/-!
# Reply shapes: the options of a request that decide how its reply is laid out

* `ReplyShape`         the four options;
* `ReplyShape.bits`    the shape as a number, `ReplyShape.ofBits` the shape of a number;
* `ReplyShape.stride`  the number of elements that a document takes in a search reply.
-/

namespace FullText

/-- the options of a request that decide how its reply is laid out -/
structure ReplyShape where
  noContent : Bool := false
  withScores : Bool := false
  withPayloads : Bool := false
  withCursor : Bool := false
  deriving DecidableEq, Repr

namespace ReplyShape

/-- the shape as a number: one bit for each option, the first option the lowest -/
def bits (s : ReplyShape) : Nat :=
  s.noContent.toNat + 2 * s.withScores.toNat + 4 * s.withPayloads.toNat + 8 * s.withCursor.toNat

/-- the shape of a number, of which only the four lowest bits count -/
def ofBits (n : Int) : ReplyShape :=
  let low := (n % 16).toNat
  ⟨low.testBit 0, low.testBit 1, low.testBit 2, low.testBit 3⟩

/-- The elements of a document: its id, and its score, payload and fields as far as they were asked
    for. -/
def stride (s : ReplyShape) : Nat :=
  1 + s.withScores.toNat + s.withPayloads.toNat + (!s.noContent).toNat

theorem stride_pos (s : ReplyShape) : 0 < s.stride := by
  unfold stride
  omega

end ReplyShape

end FullText

import FullText.Reply.Pairs
import FullText.ReplyShape

/-!
# Search replies

* `Document`            a document of the result;
* `SearchResult`        the documents of a page, and how many there are in all;
* `Reply.blocks`        a list cut into pieces of one length;
* `Document.ofBlock`    a document from the elements that it takes in the reply;
* `SearchResult.decode` the result of a reply, laid out as the request implies.
-/

namespace FullText

/-- a document of the result: score, payload and fields as far as they were asked for -/
structure Document where
  id : String
  score : Option Binary64 := none
  payload : Option String := none
  fields : Bindings Value := {}
  deriving Repr

structure SearchResult where
  total : Int
  documents : List Document
  hasContent : Bool
  deriving Repr

/-- a field of a document -/
def Document.field (d : Document) (name : String) : Except Fault Value :=
  match d.fields.get? name with
  | some v => .ok v
  | none => .error (.missingName name)

namespace Reply

/-- the first `n` pieces of length `w` of a list -/
def blocks {α : Type} (w : Nat) : (n : Nat) → List α → List (List α)
  | 0, _ => []
  | n + 1, vs => vs.take w :: blocks w n (vs.drop w)

theorem length_blocks {α : Type} (w n : Nat) (vs : List α) : (blocks w n vs).length = n := by
  induction n generalizing vs with
  | zero => rfl
  | succ n ih => simp [blocks, ih]

end Reply

namespace Document

/-- the payload of a document: a text, or nil for none -/
def payloadText : Value → Except Fault (Option String)
  | .nil => .ok none
  | .text s => .ok (some s)
  | _ => .error .payloadNotText

/-- A document from the elements that it takes: the id, then its score, payload and fields as far
    as they were asked for.  What the payload is only matters once the fields are read. -/
def ofBlock (s : ReplyShape) (block : List Value) : Except Fault Document := do
  let slot (i : Nat) : Value := block.getD i .nil
  let id ← (slot 0).name
  let score ← if s.withScores then some <$> (slot 1).expectFloat .documentScore else pure none
  let payload ← if s.withPayloads then (slot (1 + s.withScores.toNat)).asText else pure .nil
  let fields ←
    if s.noContent then pure {}
    else Reply.pairs (slot (1 + s.withScores.toNat + s.withPayloads.toNat))
  let payload ← payloadText payload
  return ⟨id, score, payload, fields⟩

end Document

/-- The result of a search reply: the total, and then the elements of every document. -/
def SearchResult.decode (s : ReplyShape) (reply : Value) : Except Fault SearchResult :=
  match reply.items? with
  | some (head :: body) => do
    let total ← head.expectInt .resultTotal
    if body.length % s.stride ≠ 0 then throw (.uneven body.length s.stride)
    let documents ← (Reply.blocks s.stride (body.length / s.stride) body).mapM (Document.ofBlock s)
    return ⟨total, documents, !s.noContent⟩
  | _ => reply.refuse .searchReply

end FullText

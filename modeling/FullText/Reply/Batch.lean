import FullText.Reply.Pairs
import FullText.ReplyShape

/-!
# Replies of aggregations and cursors

* `Batch`               some rows of an aggregation, and the cursor to read more of them;
* `Batch.hasMore`       the cursor can still be read;
* `Batch.decodeRows`    the batch of a reply without a cursor;
* `Batch.decodeCursor`  the batch of a reply with a cursor;
* `Batch.decode`        the batch of a reply, laid out as the request implies.
-/

namespace FullText

/-- Rows of an aggregation.  There is a cursor if one was asked for, zero once it is exhausted. -/
structure Batch where
  total : Int
  rows : List (Bindings Value)
  cursor : Option Int := none
  deriving Repr

namespace Batch

def hasMore (b : Batch) : Bool :=
  match b.cursor with
  | some id => id != 0
  | none => false

/-- the total and the rows after it, read with the given cursor -/
def decodeRows (cursor : Option Int) (reply : Value) : Except Fault Batch :=
  match reply.items? with
  | some (head :: body) => do
    let total ← head.expectInt .aggregationTotal
    let rows ← body.mapM Reply.pairs
    return ⟨total, rows, cursor⟩
  | _ => reply.refuse .aggregationReply

/-- the rows and the cursor to read more of them; the cursor is read first -/
def decodeCursor (reply : Value) : Except Fault Batch :=
  match reply.items? with
  | some [rows, id] => do
    let cursor ← id.expectInt .cursorId
    decodeRows (some cursor) rows
  | _ => reply.refuse .cursorReply

/-- the batch of a reply, with a cursor if one was asked for -/
def decode (s : ReplyShape) (reply : Value) : Except Fault Batch :=
  if s.withCursor then decodeCursor reply else decodeRows none reply

end Batch

end FullText

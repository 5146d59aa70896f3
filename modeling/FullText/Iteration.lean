import FullText.Client

/-!
# Iterations: all batches of an aggregation, one at a time

* `Iteration`          an index, the size of the later batches, and how far it has come;
* `Iteration.next`     the exchange for the next batch, none at the end;
* `Iteration.close`    the exchange that gives up: a cursor that is still open is released;
* `Iteration.advance`  the iteration at the batch that `next` has come to, or at its end.

Nothing is sent and nothing is read of the request before the first batch is asked for.
-/

namespace FullText

/-- How far an iteration has come: it waits with the request that it will run, it stands at a batch
    with a cursor (zero if there are no more batches), or it has ended. -/
inductive Progress where
  | waiting (request : Nat)
  | suspended (cursor : Int)
  | ended
  deriving DecidableEq, Repr

/-- an iteration over the batches of an aggregation; its request is known by its place -/
structure Iteration where
  index : String
  count : Option Int
  progress : Progress
  deriving DecidableEq, Repr

namespace Iteration

/-- the first batch of a request, which is run with a cursor even if it asks for none -/
def start (it : Iteration) (a : Aggregation) (default : Option Int) : Exchange Batch :=
  Client.aggregate it.index (a.withCursor it.count) default

/-- The exchange for the next batch, none at the end.  `request` is the request as it is now, and
    is only looked at by the first batch. -/
def next (it : Iteration) (request : Nat → Except Fault Aggregation) (default : Option Int) :
    Exchange (Option Batch) :=
  match it.progress with
  | .waiting r => do
    let a ← request r
    some <$> it.start a default
  | .suspended cursor =>
    if cursor = 0 then return none
    else some <$> Client.cursorRead it.index cursor it.count
  | .ended => return none

/-- the iteration at a batch that it has come to, or at its end -/
def advance (it : Iteration) (batch : Option Batch) : Iteration :=
  match batch with
  | some b => { it with progress := .suspended (b.cursor.getD 0) }
  | none => { it with progress := .ended }

/-- The exchange that gives up: a cursor that is still open is released, and what the engine says
    to that does not matter as long as it can be read. -/
def close (it : Iteration) : Exchange Unit :=
  match it.progress with
  | .suspended cursor =>
    if cursor = 0 then return ()
    else (fun _ => ()) <$> Client.cursorDelete it.index cursor
  | _ => return ()

/-- the iteration after its end -/
def finish (it : Iteration) : Iteration := { it with progress := .ended }

end Iteration

end FullText

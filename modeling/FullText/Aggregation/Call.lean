import FullText.Aggregation
import FullText.Building

/-!
# Building an aggregation call by call

* `Aggregation.Call`   the calls that a caller can make on a request;
* `Aggregation.call`   what each of them does, its checks and assignments in turn;
* `Aggregation.calls`  the request after several calls.
-/

namespace FullText.Aggregation

/-- a call on an aggregation request; `load` without fields loads everything -/
inductive Call where
  | verbatim (on : Bool)
  | load (fs : List FieldName)
  | stage (s : Stage)
  | withCursor (options : CursorOptions)
  | timeout (milliseconds : Int)
  | param (name : String) (value : Token)
  | params (pairs : List (String × Token))
  | dialect (d : Int)
  deriving DecidableEq, Repr

def addParam (name : String) (value : Token) : Method Aggregation Unit :=
  modify fun a => { a with params := a.params.put name value }

/-- what a call does; only a dialect of zero is a fault -/
def call : Call → Method Aggregation Unit
  | .verbatim on => modify fun a => { a with verbatim := on }
  | .load fs => modify fun a => { a with load := if fs.isEmpty then .all else .fields fs }
  | .stage s => modify fun a => { a with stages := a.stages ++ [s] }
  | .withCursor options => modify fun a => { a with cursor := some options }
  | .timeout milliseconds => modify fun a => { a with timeout := some milliseconds }
  | .param name value => addParam name value
  | .params pairs => pairs.forM fun p => addParam p.1 p.2
  | .dialect d => do
    let d ← Dialect.check d
    modify fun a => { a with dialect := some d }

/-- the request after several calls -/
def calls (a : Aggregation) (cs : List Call) : Aggregation := Building.run call a cs

/-- a new request after several calls, or the fault of the first one that fails -/
def build (text : String) (cs : List Call) : Except Fault Aggregation :=
  Building.build call { text := text } cs

end FullText.Aggregation

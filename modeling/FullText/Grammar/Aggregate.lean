import FullText.Grammar.Reader

/-!
# The grammar of aggregation commands

* `AggregateReading`        what the tokens of an aggregation say, stage by stage;
* `AggregateReading.read?`  the reading of a list of tokens, none if it is not of the grammar.

The stages come in any order and number, and the other clauses around them in one order.
-/

namespace FullText

/-- what the clause of a reducer says -/
structure ReducerReading where
  function : Token
  args : List Token
  label : Option Token
  deriving DecidableEq, Repr

/-- what the clause of a stage says -/
inductive StageReading where
  | groupBy (fields : List Token) (reducers : List ReducerReading)
  | sortBy (keys : List Token) (max : Option Token)
  | apply (expression label : Token)
  | filter (expression : Token)
  | limit (offset count : Token)
  deriving DecidableEq, Repr

/-- what is loaded: everything, or the fields of these tokens -/
inductive LoadReading where
  | all
  | fields (ts : List Token)
  deriving DecidableEq, Repr

/-- what the clause that asks for a cursor says -/
structure CursorReading where
  count : Option Token
  maxIdle : Option Token
  deriving DecidableEq, Repr

structure AggregateReading where
  text : Token
  verbatim : Bool
  load : LoadReading
  timeout : Option Token
  stages : List StageReading
  cursor : Option CursorReading
  params : List (Token × Token)
  dialect : Option Token
  deriving DecidableEq, Repr

namespace Reader

/-- what is loaded -/
def load : Reader LoadReading := do
  if ← flag "*" then return .all
  else return .fields (← count)

/-- the function, the arguments and the label of a reducer -/
def reducer : Reader ReducerReading := do
  let function ← any
  let args ← count
  let label ← option "AS"
  return ⟨function, args, label⟩

/-- a stage, if the next token is the keyword of one -/
def stage : Reader (Option StageReading) := do
  if ← flag "GROUPBY" then
    let fields ← count
    let reducers ← repeated (behind "REDUCE" reducer)
    return some (.groupBy fields reducers)
  else if ← flag "SORTBY" then
    let keys ← count
    let max ← option "MAX"
    return some (.sortBy keys max)
  else if ← flag "APPLY" then
    let expression ← any
    match ← option "AS" with
    | some label => return some (.apply expression label)
    | none => failure
  else if ← flag "FILTER" then
    return some (.filter (← any))
  else if ← flag "LIMIT" then
    let (offset, count) ← pair
    return some (.limit offset count)
  else return none

/-- the size of a batch and the idle time of a cursor -/
def cursor : Reader CursorReading := do
  let count ← option "COUNT"
  let maxIdle ← option "MAXIDLE"
  return ⟨count, maxIdle⟩

/-- the whole of an aggregation behind its index -/
def aggregate : Reader AggregateReading := do
  let text ← any
  let verbatim ← flag "VERBATIM"
  let load ← behind "LOAD" load
  let timeout ← option "TIMEOUT"
  let stages ← repeated stage
  let cursor ← behind "WITHCURSOR" cursor
  let params ← params
  let dialect ← option "DIALECT"
  return {
    text, verbatim, load := load.getD (.fields []), timeout, stages, cursor, params, dialect }

end Reader

namespace AggregateReading

/-- the reading of the tokens behind the index, none if they are not of the grammar -/
def read? (ts : List Token) : Option AggregateReading := Reader.aggregate.whole ts

/-- the reading of a complete aggregation command -/
def ofCommand? : List Token → Option AggregateReading
  | name :: _ :: ts => if name = .text "FT.AGGREGATE" then read? ts else none
  | _ => none

end AggregateReading

end FullText

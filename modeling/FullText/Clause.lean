import FullText.Aggregation.Stage
import FullText.Emission
import FullText.Filter

/-!
# Clauses: the parts that can be put behind a list of tokens

* `FieldName.emit`, `SortKey.emit`    the parts of counted clauses, which report their width;
* `Filter.emit`, `Reducer.emit`, `Stage.emit`, `CursorOptions.emit`  the other parts of requests;
* `Clause`           a part of a command that stands for itself, `Clause.emit` any of the above;
* `Clause.appendTo`  the clause behind other tokens;
* `Clause.tokens`    its tokens, or the fault of a bound without a text;
* `Clause.width?`    the number of its tokens, for the parts of clauses that count them.
-/

namespace FullText

open Emission

/-! ## parts of requests -/

def FieldName.emit (f : FieldName) : Emission Nat := do
  put (.text f.name)
  match f.label with
  | none => return 1
  | some a =>
    putAll [.text "AS", .text a]
    return 3

def SortKey.emit (k : SortKey) : Emission Nat :=
  match k.direction with
  | none => do
    put (.text k.field)
    return 1
  | some d => do
    putAll [.text k.field, .text d.keyword]
    return 2

/-- the clause of a filter, all at once: nothing is put if a bound has no text -/
def Filter.emit (f : Filter) : Emission Unit := do putAll (← f.tokens)

def Reducer.emit (r : Reducer) : Emission Unit := do
  putAll (.text "REDUCE" :: .text r.function :: .nat r.args.length :: r.args)
  putAll (Token.option "AS" (r.label.map .text))

def Stage.emit : Stage → Emission Unit
  | .groupBy fields reducers => do
    putAll (Token.counted "GROUPBY" fields)
    reducers.forM Reducer.emit
  | .sortBy keys max => do
    counted "SORTBY" (each SortKey.emit keys)
    putAll (Token.option "MAX" (max.map .int))
  | .apply expression label => putAll [.text "APPLY", .text expression, .text "AS", .text label]
  | .filter expression => putAll [.text "FILTER", .text expression]
  | .limit offset count => putAll [.text "LIMIT", .int offset, .int count]

def CursorOptions.emit (c : CursorOptions) : Emission Unit := do
  put (.text "WITHCURSOR")
  putAll (Token.option "COUNT" (c.count.map .int))
  putAll (Token.option "MAXIDLE" (c.maxIdle.map .int))

/-! ## clauses -/

inductive Clause where
  | field (f : FieldName)
  | sortKey (k : SortKey)
  | filter (f : Filter)
  | reducer (r : Reducer)
  | stage (s : Stage)
  | cursor (c : CursorOptions)
  | counted (keyword : String) (fs : List FieldName)
  deriving DecidableEq, Repr

namespace Clause

/-- a clause of any kind, and the width that it reports if it reports one -/
def emit : Clause → Emission (Option Nat)
  | .field f => some <$> f.emit
  | .sortKey k => some <$> k.emit
  | .filter f => (fun _ => none) <$> f.emit
  | .reducer r => (fun _ => none) <$> r.emit
  | .stage s => (fun _ => none) <$> s.emit
  | .cursor c => (fun _ => none) <$> c.emit
  | .counted keyword fs => (fun _ => none) <$> Emission.counted keyword (each FieldName.emit fs)

/-- what comes of a clause behind other tokens, and the tokens after it -/
def appendTo (out : List Token) (c : Clause) : Except Fault (Option Nat) × List Token :=
  c.emit.on out

/-- the tokens of a clause -/
def tokens : Clause → Except Fault (List Token)
  | .field f => .ok f.tokens
  | .sortKey k => .ok k.tokens
  | .filter f => f.tokens
  | .reducer r => .ok r.tokens
  | .stage s => .ok s.tokens
  | .cursor c => .ok c.tokens
  | .counted keyword fs => .ok (FieldName.counted keyword fs)

def width? : Clause → Option Nat
  | .field f => some f.width
  | .sortKey k => some k.width
  | _ => none

end Clause

end FullText

import FullText.Token

/-!
# Reducers: what is computed for each group of rows

* `Reducer`         a function, its arguments, and the name of its result;
* `Reducer.labelled` the same reducer with another name of its result;
* `Reducer.count`, `Reducer.sum`, …  the reducers of the engine.
-/

namespace FullText

/-- a function of the rows of a group, its arguments, and the name of its result -/
structure Reducer where
  function : String
  args : List Token := []
  label : Option String := none
  deriving DecidableEq, Repr

namespace Reducer

/-- the same reducer, its result under another name -/
def labelled (r : Reducer) (name : String) : Reducer := { r with label := some name }

/-- the clause of a reducer -/
def tokens (r : Reducer) : List Token :=
  .text "REDUCE" :: .text r.function :: .nat r.args.length
    :: (r.args ++ Token.option "AS" (r.label.map .text))

/-! ## the reducers of the engine -/

def count : Reducer := ⟨"COUNT", [], none⟩
def countDistinct (field : String) : Reducer := ⟨"COUNT_DISTINCT", [.text field], none⟩

/-- an approximation of `countDistinct`, which costs less -/
def countDistinctish (field : String) : Reducer := ⟨"COUNT_DISTINCTISH", [.text field], none⟩

def sum (field : String) : Reducer := ⟨"SUM", [.text field], none⟩
def min (field : String) : Reducer := ⟨"MIN", [.text field], none⟩
def max (field : String) : Reducer := ⟨"MAX", [.text field], none⟩
def avg (field : String) : Reducer := ⟨"AVG", [.text field], none⟩

/-- the distinct values of a field -/
def toList (field : String) : Reducer := ⟨"TOLIST", [.text field], none⟩

def quantile (field : String) (quantile : Number) : Reducer :=
  ⟨"QUANTILE", [.text field, .number quantile], none⟩

def stddev (field : String) : Reducer := ⟨"STDDEV", [.text field], none⟩

/-- the value of a field in the first row, the rows in the order of another field if one is given -/
def firstValue (field : String) (order : Option (String × Bool)) : Reducer :=
  match order with
  | none => ⟨"FIRST_VALUE", [.text field], none⟩
  | some (key, ascending) =>
    ⟨"FIRST_VALUE",
      [.text field, .text "BY", .text key, .text (if ascending then "ASC" else "DESC")], none⟩

/-- a sample of the values of a field -/
def randomSample (field : String) (size : Int) : Reducer :=
  ⟨"RANDOM_SAMPLE", [.text field, .int size], none⟩

end Reducer

end FullText

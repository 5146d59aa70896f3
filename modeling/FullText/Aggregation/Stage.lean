import FullText.Aggregation.Reducer
import FullText.Field

/-!
# Stages of an aggregation

* `Stage`           a step of the pipeline: grouping, sorting, computing, filtering, cutting;
* `Stage.tokens`    its clause;
* `CursorOptions`   how the rows are read in batches, and the clause of that.
-/

namespace FullText

/-- a step of an aggregation pipeline -/
inductive Stage where
  | groupBy (fields : List String) (reducers : List Reducer)
  | sortBy (keys : List SortKey) (max : Option Int)
  | apply (expression label : String)
  | filter (expression : String)
  | limit (offset count : Int)
  deriving DecidableEq, Repr

/-- the clause of a step; the reducers of a group follow its fields -/
def Stage.tokens : Stage → List Token
  | .groupBy fields reducers => Token.counted "GROUPBY" fields ++ reducers.flatMap Reducer.tokens
  | .sortBy keys max =>
    .text "SORTBY" :: .nat (SortKey.widths keys)
      :: (keys.flatMap SortKey.tokens ++ Token.option "MAX" (max.map .int))
  | .apply expression label =>
    [.text "APPLY", .text expression, .text "AS", .text label]
  | .filter expression => [.text "FILTER", .text expression]
  | .limit offset count => [.text "LIMIT", .int offset, .int count]

/-- the size of a batch, and how long the engine keeps an idle cursor -/
structure CursorOptions where
  count : Option Int := none
  maxIdle : Option Int := none
  deriving DecidableEq, Repr

/-- the clause that asks for a cursor -/
def CursorOptions.tokens (c : CursorOptions) : List Token :=
  .text "WITHCURSOR" :: (Token.option "COUNT" (c.count.map .int)
    ++ Token.option "MAXIDLE" (c.maxIdle.map .int))

end FullText

import FullText.Aggregation
import FullText.Grammar.Aggregate
import FullText.Grammar.Shared

/-!
# What the tokens of an aggregation say

* `Aggregation.reading`  what the command of an aggregation has to say, stage by stage, under a
                         default dialect.
-/

namespace FullText

def Reducer.reading (r : Reducer) : ReducerReading :=
  ⟨.text r.function, r.args, r.label.map .text⟩

/-- what the clause of a stage says -/
def Stage.reading : Stage → StageReading
  | .groupBy fields reducers => .groupBy (Token.names fields) (reducers.map Reducer.reading)
  | .sortBy keys max => .sortBy (keys.flatMap SortKey.tokens) (max.map .int)
  | .apply expression label => .apply (.text expression) (.text label)
  | .filter expression => .filter (.text expression)
  | .limit offset count => .limit (.int offset) (.int count)

def Load.reading : Load → LoadReading
  | .all => .all
  | .fields fs => .fields (fs.flatMap FieldName.tokens)

def CursorOptions.reading (c : CursorOptions) : CursorReading :=
  ⟨c.count.map .int, c.maxIdle.map .int⟩

namespace Aggregation

def reading (a : Aggregation) (default : Option Int) : AggregateReading where
  text := .text a.text
  verbatim := a.verbatim
  load := a.load.reading
  timeout := a.timeout.map .int
  stages := a.stages.map Stage.reading
  cursor := a.cursor.map CursorOptions.reading
  params := Params.reading a.params
  dialect := Dialect.reading (Dialect.effective a.dialect default)

end Aggregation

end FullText

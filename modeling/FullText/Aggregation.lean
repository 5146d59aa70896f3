import FullText.Aggregation.Stage
import FullText.Dialect
import FullText.Params
import FullText.ReplyShape

/-!
# Aggregation requests and their compilation

* `Aggregation`          a pipeline over the documents that a query text matches;
* `Aggregation.compile`  its tokens, the stages in the order in which they were added;
* `Aggregation.shape`    whether its reply comes with a cursor;
* `Aggregation.literal`  the request on one line.
-/

namespace FullText

/-- what a pipeline loads from the documents: everything, or the given fields -/
inductive Load where
  | all
  | fields (fs : List FieldName)
  deriving DecidableEq, Repr

/-- an aggregation request -/
structure Aggregation where
  text : String := "*"
  verbatim : Bool := false
  load : Load := .fields []
  timeout : Option Int := none
  stages : List Stage := []
  cursor : Option CursorOptions := none
  params : Params := {}
  dialect : Option Int := none
  deriving DecidableEq, Repr

/-- what is loaded, left out if that is nothing -/
def Load.tokens : Load → List Token
  | .all => [.text "LOAD", .text "*"]
  | .fields fs => if fs.isEmpty then [] else FieldName.counted "LOAD" fs

namespace Aggregation

/-- the tokens of the request, under the given default dialect -/
def compile (a : Aggregation) (default : Option Int) : List Token :=
  .text a.text :: (Token.flag "VERBATIM" a.verbatim
    ++ a.load.tokens
    ++ Token.option "TIMEOUT" (a.timeout.map .int)
    ++ a.stages.flatMap Stage.tokens
    ++ (a.cursor.map CursorOptions.tokens).getD []
    ++ Params.tokens a.params
    ++ Dialect.tokens (Dialect.effective a.dialect default))

/-- the reply comes with a cursor if one was asked for -/
def shape (a : Aggregation) : ReplyShape := ⟨false, false, false, a.cursor.isSome⟩

def literal (a : Aggregation) : String :=
  "AggregateRequest(" ++ Text.quoted a.text ++ ", stages=" ++ a.stages.length.repr ++ ")"

/-- the request with a cursor: its own, or one with the given size of a batch -/
def withCursor (a : Aggregation) (count : Option Int) : Aggregation :=
  match a.cursor with
  | some _ => a
  | none => { a with cursor := some ⟨count, none⟩ }

theorem shape_withCursor (a : Aggregation) (count : Option Int) :
    (a.withCursor count).shape = ⟨false, false, false, true⟩ := by
  unfold withCursor
  split
  · rename_i c h
    simp [shape, h]
  · rfl

end Aggregation

end FullText

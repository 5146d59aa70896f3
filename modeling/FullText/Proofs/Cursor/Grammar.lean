import FullText.Aggregation.ReadBack
import FullText.Command

/-!
# The grammar of cursor commands

* `CursorCommand`             what a command asks about a cursor: open one, read it, or release it;
* `CursorCommand.ofTokens?`   the reading of a list of tokens, none if it is not of the grammar;
* `Aggregation.opening`       what the first command of an iteration has to say.

A read and a release are their tokens and nothing else, so each has one reading, and the command can
be told from it.
-/

namespace FullText

/-- what a command asks about a cursor -/
inductive CursorCommand where
  | aggregate (index : Token) (request : AggregateReading)
  | read (index : Token) (cursor : Int) (count : Option Token)
  | delete (index : Token) (cursor : Int)
  deriving DecidableEq, Repr

namespace CursorCommand

/-- the reading of a complete command, none if it is not about a cursor -/
def ofTokens? : List Token → Option CursorCommand
  | [.text "FT.CURSOR", .text "READ", index, .int cursor] => some (.read index cursor none)
  | [.text "FT.CURSOR", .text "READ", index, .int cursor, .text "COUNT", count] =>
    some (.read index cursor (some count))
  | [.text "FT.CURSOR", .text "DEL", index, .int cursor] => some (.delete index cursor)
  | .text "FT.AGGREGATE" :: index :: ts => (AggregateReading.read? ts).map (.aggregate index)
  | _ => none

theorem ofTokens?_cursorRead (index : String) (cursor : Int) (count : Option Int) :
    ofTokens? (Command.cursorRead index cursor count)
      = some (.read (.text index) cursor (count.map .int)) := by
  cases count <;> rfl

theorem ofTokens?_cursorDelete (index : String) (cursor : Int) :
    ofTokens? (Command.cursorDelete index cursor) = some (.delete (.text index) cursor) := rfl

theorem ofTokens?_aggregate (index : String) (a : Aggregation) (default : Option Int) :
    ofTokens? (Command.aggregate index a default)
      = some (.aggregate (.text index) (a.reading default)) := by
  show (AggregateReading.read? (a.compile default)).map _ = _
  rw [Aggregation.read?_compile]
  rfl

end CursorCommand

/-- What the first command of an iteration has to say: all that the request says, and that a cursor
    is wanted, with the options of the request or else with batches of the given size. -/
def Aggregation.opening (a : Aggregation) (count default : Option Int) : AggregateReading :=
  { a.reading default with
    cursor := some ((a.cursor.map CursorOptions.reading).getD ⟨count.map .int, none⟩) }

theorem Aggregation.reading_withCursor (a : Aggregation) (count default : Option Int) :
    (a.withCursor count).reading default = a.opening count default := by
  unfold withCursor opening reading
  cases h : a.cursor with
  | some c => simp only [h, Option.map_some, Option.getD_some]
  | none => rfl

end FullText

import FullText.Proofs.Cursor.Grammar
import FullText.Proofs.Cursor.Trace
import FullText.Proofs.Outcome
import FullText.Proofs.Search.UniqueReading

/-!
# The grammar of all commands

* `CommandReading`            what a command says, whatever its kind;
* `CommandReading.ofTokens?`  the reading of a list of tokens, none if it is not of the grammar;
* `CommandReading.dialect?`   the clause of a dialect in a command that has a place for it.

Where the clause stands is up to the grammar: a text of the caller that spells the keyword is read
as what it is.
-/

namespace FullText

/-- what a command says -/
inductive CommandReading where
  | search (index : Token) (request : SearchReading)
  | cursor (command : CursorCommand)
  | info (index : Token)
  | explain (lines : Bool) (index text : Token) (dialect : Option Token)
  deriving DecidableEq, Repr

namespace CommandReading

def explain? (lines : Bool) (index text : Token) (ts : List Token) : Option CommandReading :=
  ((Reader.option "DIALECT").whole ts).map (.explain lines index text)

/-- the reading of a complete command, none if it is not of the grammar -/
def ofTokens? : List Token → Option CommandReading
  | .text "FT.SEARCH" :: index :: ts => (SearchReading.read? ts).map (.search index)
  | .text "FT.EXPLAIN" :: index :: text :: ts => explain? false index text ts
  | .text "FT.EXPLAINCLI" :: index :: text :: ts => explain? true index text ts
  | [.text "FT.INFO", index] => some (.info index)
  | ts => (CursorCommand.ofTokens? ts).map .cursor

/-- the clause of a dialect, if there is one; none for the commands that have no place for it -/
def dialect? : CommandReading → Option (Option Token)
  | .search _ r | .cursor (.aggregate _ r) => some r.dialect
  | .explain _ _ _ d => some d
  | .cursor (.read ..) | .cursor (.delete ..) | .info _ => none

theorem ofTokens?_search {index : String} {q : Query} {default : Option Int} {c : List Token}
    (h : Command.search index q default = .ok c) :
    ∃ r, ofTokens? c = some (.search (.text index) r)
      ∧ r.dialect = Dialect.reading (Dialect.effective q.dialect default) := by
  obtain ⟨ts, hts, rfl⟩ := Outcome.map_eq_ok.mp h
  obtain ⟨fs, -, hr⟩ := Reader.search_compile hts
  refine ⟨q.readingWith default fs, ?_, rfl⟩
  show (SearchReading.read? ts).map _ = _
  rw [SearchReading.read?, Reader.whole, StateT.run, hr]
  rfl

theorem ofTokens?_aggregate (index : String) (a : Aggregation) (default : Option Int) :
    ofTokens? (Command.aggregate index a default)
      = some (.cursor (.aggregate (.text index) (a.reading default))) := by
  show (CursorCommand.ofTokens? (Command.aggregate index a default)).map _ = _
  rw [CursorCommand.ofTokens?_aggregate]
  rfl

theorem ofTokens?_cursorRead (index : String) (cursor : Int) (count : Option Int) :
    ofTokens? (Command.cursorRead index cursor count)
      = some (.cursor (.read (.text index) cursor (count.map .int))) := by
  cases count <;> rfl

theorem ofTokens?_cursorDelete (index : String) (cursor : Int) :
    ofTokens? (Command.cursorDelete index cursor)
      = some (.cursor (.delete (.text index) cursor)) := rfl

theorem ofTokens?_info (index : String) :
    ofTokens? (Command.info index) = some (.info (.text index)) := rfl

theorem ofTokens?_move (m : Move) (index : String) (count : Option Int) (cursor : Int) :
    ∃ r, ofTokens? (m.command index count cursor) = some r ∧ r.dialect? = none := by
  cases m with
  | next => exact ⟨_, ofTokens?_cursorRead index cursor count, rfl⟩
  | close => exact ⟨_, ofTokens?_cursorDelete index cursor, rfl⟩

theorem ofTokens?_explain (lines : Bool) (index text : String) (dialect : Option Int) :
    ofTokens? (Command.explain lines index text dialect)
      = some (.explain lines (.text index) (.text text) (Dialect.reading dialect)) := by
  have hr : (Reader.option "DIALECT").whole (Dialect.tokens dialect)
      = some (Dialect.reading dialect) := by
    have h := Reader.dialect_append dialect (Starts.nil []) List.not_mem_nil
    rw [List.append_nil] at h
    rw [Reader.whole, StateT.run, h]
  have he : ofTokens? (Command.explain lines index text dialect)
      = explain? lines (.text index) (.text text) (Dialect.tokens dialect) := by
    cases lines <;> rfl
  rw [he, explain?, hr]
  rfl

end CommandReading

end FullText

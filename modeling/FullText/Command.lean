import FullText.Aggregation
import FullText.Query

/-!
# Commands: complete lists of tokens, name and index included

* `Command.search`, `Command.aggregate`          run a request;
* `Command.cursorRead`, `Command.cursorDelete`   read the next batch of a cursor, or release it;
* `Command.info`, `Command.explain`              ask about an index, or about a query text.
-/

namespace FullText.Command

/-- run a query on an index -/
def search (index : String) (q : Query) (default : Option Int) : Except Fault (List Token) :=
  (fun ts => .text "FT.SEARCH" :: .text index :: ts) <$> q.compile default

/-- run an aggregation on an index -/
def aggregate (index : String) (a : Aggregation) (default : Option Int) : List Token :=
  .text "FT.AGGREGATE" :: .text index :: a.compile default

/-- read the next batch of a cursor, of the given size if one is given -/
def cursorRead (index : String) (cursor : Int) (count : Option Int) : List Token :=
  [.text "FT.CURSOR", .text "READ", .text index, .int cursor]
    ++ Token.option "COUNT" (count.map .int)

/-- release a cursor -/
def cursorDelete (index : String) (cursor : Int) : List Token :=
  [.text "FT.CURSOR", .text "DEL", .text index, .int cursor]

/-- ask about an index -/
def info (index : String) : List Token := [.text "FT.INFO", .text index]

/-- ask how a query text would be run, in one text or line by line -/
def explain (lines : Bool) (index text : String) (dialect : Option Int) : List Token :=
  [.text (if lines then "FT.EXPLAINCLI" else "FT.EXPLAIN"), .text index, .text text]
    ++ Dialect.tokens dialect

end FullText.Command

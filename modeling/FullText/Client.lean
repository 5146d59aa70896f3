import FullText.Command
import FullText.Exchange
import FullText.Reply.Batch
import FullText.Reply.Info
import FullText.Reply.Search

/-!
# What a client asks of an engine

Each function pairs a command with the decoder of its reply:

* `Client.search`, `Client.aggregate`          run a request;
* `Client.cursorRead`, `Client.cursorDelete`   read the next batch of a cursor, or release it;
* `Client.info`, `Client.explain`, `Client.explainLines`  ask about an index or a query text.

The decoder of a request gets the shape that the request itself implies.
-/

namespace FullText.Client

/-- run a query on an index -/
def search (index : String) (q : Query) (default : Option Int) : Exchange SearchResult := do
  let command ← Command.search index q default
  .asking command (SearchResult.decode q.shape)

/-- run an aggregation on an index, and read its first batch -/
def aggregate (index : String) (a : Aggregation) (default : Option Int) : Exchange Batch :=
  .asking (Command.aggregate index a default) (Batch.decode a.shape)

/-- read the next batch of a cursor -/
def cursorRead (index : String) (cursor : Int) (count : Option Int) : Exchange Batch :=
  .asking (Command.cursorRead index cursor count) Batch.decodeCursor

/-- release a cursor -/
def cursorDelete (index : String) (cursor : Int) : Exchange Bool :=
  .asking (Command.cursorDelete index cursor) Reply.isOk

/-- ask about an index -/
def info (index : String) : Exchange IndexInfo := .asking (Command.info index) IndexInfo.decode

/-- ask how a query text would be run; its own dialect goes before the default one -/
def explain (index text : String) (dialect default : Option Int) : Exchange String :=
  .asking (Command.explain false index text (Dialect.effective dialect default)) Reply.explain

/-- the same, line by line -/
def explainLines (index text : String) (dialect default : Option Int) :
    Exchange (List String) :=
  .asking (Command.explain true index text (Dialect.effective dialect default)) Reply.explainLines

end FullText.Client

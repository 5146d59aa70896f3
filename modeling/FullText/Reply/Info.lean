import FullText.Reply.Pairs

/-!
# Replies about an index or a query text

* `IndexInfo`            what the engine says about an index;
* `IndexInfo.decode`     the same from its reply;
* `Reply.isOk`           a command was carried out;
* `Reply.explain`, `Reply.explainLines`  how a query text would be run.
-/

namespace FullText

/-- what the engine says about an index, under the names that it gives -/
structure IndexInfo where
  values : Bindings Value
  deriving Repr

namespace IndexInfo

def decode (reply : Value) : Except Fault IndexInfo := IndexInfo.mk <$> Reply.pairs reply

/-- what is said under a name, or something else if nothing is -/
def get (i : IndexInfo) (name : String) (default : Value) : Value :=
  (i.values.get? name).getD default

/-- the name of the index, nil if it is not said -/
def indexName (i : IndexInfo) : Value := i.get "index_name" .nil

/-- the number of documents, zero if it is not said -/
def documentCount (i : IndexInfo) : Except Fault Int := (i.get "num_docs" (.int 0)).toInt

end IndexInfo

namespace Reply

/-- the command was carried out: the engine says so, or the client has already read that as truth -/
def isOk : Value → Except Fault Bool
  | .bool true => .ok true
  | v => do
    match ← v.asText with
    | .text s => return s == "OK"
    | _ => return false

def explain (reply : Value) : Except Fault String := reply.name

/-- how a query text would be run, line by line -/
def explainLines (reply : Value) : Except Fault (List String) :=
  match reply.items? with
  | some vs => vs.mapM Value.name
  | none => reply.refuse .explainReply

end Reply

end FullText

import FullText.Bindings
import FullText.Pairing
import FullText.Value.Decode

/-!
# Names and values in replies

* `Reply.entries?`  the pairs of a mapping, or of an array of names and values in turn;
* `Reply.named`     the name and the decoded value of a pair;
* `Reply.pairs`     the bindings that the pairs of a reply make.
-/

namespace FullText.Reply

/-- the pairs that a reply holds: a mapping, an array of even length, or nil for no pairs -/
def entries? : Value → Option (List (Value × Value))
  | .nil => some []
  | .map es => some es
  | .array vs => pairUp? vs
  | .tuple vs => pairUp? vs
  | _ => none

/-- the name and the decoded value of a pair; the name is read first -/
def named (entry : Value × Value) : Except Fault (String × Value) := do
  let name ← entry.1.name
  let value ← entry.2.decode
  return (name, value)

/-- the bindings that the pairs of a reply make, from the first pair to the last -/
def pairs (v : Value) : Except Fault (Bindings Value) :=
  match entries? v with
  | some es => Bindings.ofList <$> es.mapM named
  | none => v.refuse .pairs

end FullText.Reply

import FullText.Bindings
import FullText.Token

/-!
# Parameters of a query text

* `Params`         the names that a query text may use, and what they stand for;
* `Params.tokens`  the clause that binds them.
-/

namespace FullText

/-- the parameters of a query text -/
abbrev Params := Bindings Token

/-- the clause that binds the parameters: the number of tokens, then names and values in turn -/
def Params.tokens (ps : Params) : List Token :=
  if ps.pairs.isEmpty then []
  else .text "PARAMS" :: .nat (2 * ps.pairs.length)
    :: ps.pairs.flatMap fun p => [.text p.1, p.2]

end FullText

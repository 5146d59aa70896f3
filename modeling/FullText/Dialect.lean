import FullText.Fault
import FullText.Token

/-!
# Dialects of the query language

* `Dialect.check`      every dialect may be set but zero;
* `Dialect.effective`  the dialect of a request, or the default one if it has none;
* `Dialect.tokens`     the clause of a dialect, which only a positive one has.

A negative dialect is a way to have none: it keeps the default one away and has no clause.
-/

namespace FullText.Dialect

def check (d : Int) : Except Fault Int := if d = 0 then .error .zeroDialect else .ok d

def effective (own default : Option Int) : Option Int := own.or default

def tokens (dialect : Option Int) : List Token :=
  match dialect with
  | some d => if 1 ≤ d then [.text "DIALECT", .int d] else []
  | none => []

end FullText.Dialect

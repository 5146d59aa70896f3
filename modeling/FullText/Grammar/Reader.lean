import FullText.Pairing
import FullText.Token

/-!
# Reading clauses of commands

Readers of the clauses that `FullText.Token` writes.  A reader takes its clause from the start of a
list of tokens and leaves the rest; it fails if a clause has begun and is not complete.

* `Reader.any`      one token;
* `Reader.flag`     a keyword that is there or not;
* `Reader.option`   a keyword and its operand, if the keyword is there;
* `Reader.counted`  a keyword, a count, and as many tokens, if the keyword is there;
* `Reader.repeated` clauses as long as there is one more;
* `Reader.whole`    what a reader takes from a list, if it leaves nothing.

Keywords and counts are taken at face value: a token is a keyword because of where it stands, so an
operand may well have the text of a keyword.
-/

namespace FullText

/-- a reader takes something from the start of a list of tokens and leaves the rest -/
abbrev Reader := StateT (List Token) Option

namespace Reader

variable {α : Type}

def whole (r : Reader α) (ts : List Token) : Option α :=
  match r.run ts with
  | some (a, []) => some a
  | _ => none

def any : Reader Token := fun ts =>
  match ts with
  | t :: rest => some (t, rest)
  | [] => none

/-- the next `n` tokens -/
def take (n : Nat) : Reader (List Token) := fun ts =>
  if n ≤ ts.length then some (ts.take n, ts.drop n) else none

def flag (keyword : String) : Reader Bool := fun ts =>
  match ts with
  | t :: rest => if t = .text keyword then some (true, rest) else some (false, t :: rest)
  | [] => some (false, [])

/-- what another reader takes behind a keyword, if the keyword is there -/
def behind (keyword : String) (r : Reader α) : Reader (Option α) := do
  if ← flag keyword then some <$> r else pure none

def option (keyword : String) : Reader (Option Token) := behind keyword any

/-- a count and as many tokens -/
def count : Reader (List Token) := do
  match ← any with
  | .int n =>
    match n.toNat? with
    | some n => take n
    | none => failure
  | _ => failure

def counted (keyword : String) : Reader (Option (List Token)) := behind keyword count

/-- a counted clause, which stands for no tokens if it is not there -/
def countedOrEmpty (keyword : String) : Reader (List Token) := do
  return (← counted keyword).getD []

/-- one of two keywords, or none of them -/
def either (first second : String) : Reader (Option Token) := do
  if ← flag first then return some (.text first)
  else if ← flag second then return some (.text second)
  else return none

/-- two tokens -/
def pair : Reader (Token × Token) := do
  let a ← any
  let b ← any
  return (a, b)

/-- Clauses as long as their reader finds one, at most `fuel` of them.  A clause has at least one
    token, so the number of tokens is always enough. -/
def many (r : Reader (Option α)) : (fuel : Nat) → Reader (List α)
  | 0 => pure []
  | fuel + 1 => do
    match ← r with
    | some a => return a :: (← many r fuel)
    | none => return []

/-- clauses as long as their reader finds one -/
def repeated (r : Reader (Option α)) : Reader (List α) := fun ts =>
  many r ts.length ts

/-- the clause of the parameters: names and values in turn -/
def params : Reader (List (Token × Token)) := do
  match pairUp? (← countedOrEmpty "PARAMS") with
  | some ps => return ps
  | none => failure

end Reader

end FullText

import FullText.Number

/-!
# Tokens: the words that a command is made of

* `Token`           a text or a number;
* `Token.flag`      a keyword that is there or not;
* `Token.option`    a keyword and its operand, or nothing;
* `Token.counted`   a keyword, the number of names, and the names.

A command is a list of tokens, and a clause of it is a list that starts with its keyword.
-/

namespace FullText

/-- a word of a command -/
inductive Token where
  | text (s : String)
  | number (n : Number)
  deriving DecidableEq, Repr

namespace Token

/-- an integer as a token -/
@[match_pattern] abbrev int (n : Int) : Token := .number (.int n)

/-- a natural number as a token -/
abbrev nat (n : Nat) : Token := .int n

def flag (keyword : String) (on : Bool) : List Token := if on then [.text keyword] else []

def option (keyword : String) (operand : Option Token) : List Token :=
  match operand with
  | some t => [.text keyword, t]
  | none => []

/-- names as tokens -/
def names (fs : List String) : List Token := fs.map .text

def counted (keyword : String) (fs : List String) : List Token :=
  .text keyword :: .nat fs.length :: names fs

/-- a counted clause that is left out if there are no names -/
def countedUnlessEmpty (keyword : String) (fs : List String) : List Token :=
  if fs.isEmpty then [] else counted keyword fs

theorem length_names (fs : List String) : (names fs).length = fs.length := by simp [names]

end Token

end FullText

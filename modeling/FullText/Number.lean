import FullText.Number.Numeral
import FullText.Number.Shortest

/-!
# Numbers as callers give them, and their text

* `Number`            an integer, a truth value that stands for zero or one, or a binary64;
* `Number.format`     its text without loss: integers in full, integral floats without a fraction;
* `Number.formatBound` its text as the bound of a range, marked with `(` where it is excluded.
-/

namespace FullText

/-- a number as a caller gives it -/
inductive Number where
  | int (n : Int)
  | bool (b : Bool)
  | float (x : Binary64)
  deriving DecidableEq, Repr

namespace Number

/-- A binary64 is written as an integer where it is one and every integer of its size is
    representable, and in its shortest form otherwise. -/
def formatFloat : Binary64 → Except Numeral.Fault String
  | .finite negative u h =>
    let x : Binary64 := .finite negative u h
    if x.isInteger && x.isBelowExactLimit then Numeral.writeInt (Binary64.truncUlps negative u)
    else .ok x.text
  | x => .ok x.text

/-- the text of a number -/
def format : Number → Except Numeral.Fault String
  | .int n => Numeral.writeInt n
  | .bool b => .ok (if b then "1" else "0")
  | .float x => formatFloat x

/-- the number is an infinity -/
def isInfinite : Number → Bool
  | .float x => x.isInfinite
  | _ => false

/-- The text of a bound: an excluded bound is marked, but an infinity is never excluded. -/
def formatBound (n : Number) (exclusive : Bool) : Except Numeral.Fault String :=
  (fun s => if exclusive && !n.isInfinite then "(" ++ s else s) <$> n.format

end Number

end FullText

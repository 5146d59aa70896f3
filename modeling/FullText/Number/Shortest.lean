import FullText.Number.Decimal

/-!
# The shortest decimal text that reads back

A finite binary64 is written with the fewest digits that round back to it, and of the decimals
with that many digits the nearest one is taken.

* `Decimal.neighbours k d`  the decimals without the last `k` digits of `d`, the nearer one first;
* `shortest negative u`     the first neighbour that reads back, for `1, 2, … 17` digits;
* `Layout`                  where positional notation ends, and how wide an exponent is;
* `Binary64.text`           the text of a number.

If any decimal with `n` digits reads back, so does one of the neighbours with `n` digits, because
the decimals that round to one number form an interval around it.
-/

namespace FullText

namespace Decimal

/-- The decimals directly below and above `d` that do without its last `dropped` digits, the nearer
    one first and of two equally near ones the even one; `d` itself if those digits are zeros. -/
def neighbours (dropped : Nat) (d : Decimal) : List Decimal :=
  let unit := Nat.pow 10 dropped
  let below := d.coefficient / unit
  let rest := d.coefficient % unit
  let lower : Decimal := ⟨below, d.exponent + dropped⟩
  let upper : Decimal := ⟨below + 1, d.exponent + dropped⟩
  if rest = 0 then [lower]
  else if 2 * rest < unit ∨ (2 * rest = unit ∧ below % 2 = 0) then [lower, upper]
  else [upper, lower]

/-- the digits of the coefficient without the zeros at their end -/
def significant (d : Decimal) : List Char :=
  ((decimalDigits d.coefficient).reverse.dropWhile (· == '0')).reverse

end Decimal

/-! ## layout of the digits -/

/-- A number is written positionally if the exponent of ten of its first digit is at least `least`
    and below `limit`; any other exponent has a sign and at least `width` digits. -/
structure Layout where
  least : Int
  limit : Int
  width : Nat

/-- positional from `0.0001` to below `10¹⁶`, exponents with two digits -/
def Layout.standard : Layout := ⟨-4, 16, 2⟩

namespace Layout

/-- `digits` with a point, the first digit having the exponent `e`; there is a digit on both sides
    of the point -/
def positional (digits : List Char) : Int → List Char
  | .negSucc k => '0' :: '.' :: (List.replicate k '0' ++ digits)
  | .ofNat k =>
    let fraction := digits.drop (k + 1)
    digits.take (k + 1) ++ List.replicate (k + 1 - digits.length) '0'
      ++ '.' :: (if fraction.isEmpty then ['0'] else fraction)

/-- an exponent with its sign and at least `width` digits -/
def exponentText (width : Nat) (e : Int) : List Char :=
  let digits := decimalDigits e.natAbs
  (if e < 0 then '-' else '+') :: (List.replicate (width - digits.length) '0' ++ digits)

/-- the first digit, a point if there are more digits, and the exponent `e` -/
def withExponent (width : Nat) (digits : List Char) (e : Int) : List Char :=
  digits.take 1 ++ (if digits.length ≤ 1 then [] else '.' :: digits.drop 1)
    ++ 'e' :: exponentText width e

/-- the digits in the notation that the exponent of the first one asks for -/
def write (l : Layout) (digits : List Char) (e : Int) : List Char :=
  if l.least ≤ e ∧ e < l.limit then positional digits e else withExponent l.width digits e

end Layout

/-! ## text of a number -/

namespace Binary64

/-- The decimal that a nonzero magnitude is written as.  Seventeen digits always suffice, and the
    exact decimal stands behind them. -/
def shortest (negative : Bool) (u : Nat) : Decimal :=
  let e := exact u
  let size := (decimalDigits e.coefficient).length
  let tries := (List.range 17).flatMap fun n => e.neighbours (size - (n + 1))
  (tries.find? fun d => decide (d.toBinary64 negative = ofUlps negative u)).getD e

/-- the text of a finite magnitude -/
def magnitudeText (negative : Bool) (u : Nat) : List Char :=
  if u = 0 then ['0', '.', '0']
  else
    let d := shortest negative u
    Layout.standard.write d.significant (d.magnitude - 1)

/-- The text of a number: a sign only if it is negative, a point or an exponent in every finite
    one, so that it is never taken for an integer. -/
def text : Binary64 → String
  | .nan => "nan"
  | .infinite false => "inf"
  | .infinite true => "-inf"
  | .finite false u _ => String.ofList (magnitudeText false u)
  | .finite true u _ => String.ofList ('-' :: magnitudeText true u)

end Binary64

end FullText

import FullText.Number.Binary64

/-!
# Decimals: a coefficient and a power of ten

* `Decimal`            `coefficient · 10 ^ exponent`;
* `Decimal.toBinary64` the nearest binary64, a tie to the even significand;
* `Binary64.exact`     the decimal that a finite magnitude is exactly.

Beyond `10³¹⁰` every decimal is rounded to an infinity, and below `10⁻³³⁰` to a zero, so the power
of ten that is really computed stays small, whatever exponent a text writes.
-/

namespace FullText

/-- the number `coefficient · 10 ^ exponent` -/
structure Decimal where
  coefficient : Nat
  exponent : Int
  deriving DecidableEq, Repr

/-- the decimal digits of a number, the first one first -/
def decimalDigits (n : Nat) : List Char := Nat.toDigits 10 n

namespace Decimal

/-- the decimal is below `10 ^ d.magnitude`, and not below a tenth of that unless it is zero -/
def magnitude (d : Decimal) : Int := (decimalDigits d.coefficient).length + d.exponent

/-- the nearest binary64, with the given sign -/
def toBinary64 (negative : Bool) (d : Decimal) : Binary64 :=
  if d.coefficient = 0 then .zero negative
  else if 310 < d.magnitude then .infinite negative
  else if d.magnitude < -330 then .zero negative
  else match d.exponent with
    | .ofNat k => .ofRatio negative (d.coefficient * Nat.pow 10 k) 1
    | .negSucc k => .ofRatio negative d.coefficient (Nat.pow 10 (k + 1))

end Decimal

namespace Binary64

/-- A magnitude of `u` ulps as a decimal, without rounding: `2⁻¹⁰⁷⁴ = 5¹⁰⁷⁴ · 10⁻¹⁰⁷⁴`. -/
def exact (u : Nat) : Decimal := ⟨u * Nat.pow 5 1074, -1074⟩

end Binary64

end FullText

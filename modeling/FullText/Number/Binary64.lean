/-!
# Binary64 numbers as exact multiples of the least one

Every finite binary64 magnitude is a natural number of `ulps`: multiples of `2⁻¹⁰⁷⁴`, the least
positive one.  So a number is kept as a sign and such a multiple, and all arithmetic is on `Nat`.

* `spacing u`        the distance between neighbours at the magnitude `u`;
* `Representable u`  `u` is a magnitude of the format: below `2¹⁰²⁴` and a multiple of `spacing u`;
* `roundDiv a b`     `a / b` to the nearest natural number, a tie to the even one;
* `Binary64`         not-a-number, the two infinities, the finite ones (both zeros among them);
* `ofRatio`          the nearest binary64 of a fraction, a tie to the even significand;
* `ofInt`            the nearest binary64 of an integer, none where that is an infinity.
-/

namespace FullText

/-- ulps in one: `2¹⁰⁷⁴` -/
def ulpsPerOne : Nat := Nat.pow 2 1074

/-- the distance between neighbouring magnitudes at `u`: significands have 53 bits -/
def spacing (u : Nat) : Nat := Nat.pow 2 (u.log2 - 52)

/-- `u` ulps are the magnitude of a finite binary64: they are less than `2²⁰⁹⁸` ulps -/
def Representable (u : Nat) : Prop := u.log2 < 2098 ∧ spacing u ∣ u

instance (u : Nat) : Decidable (Representable u) := inferInstanceAs (Decidable (_ ∧ _))

theorem spacing_pos (u : Nat) : 0 < spacing u := Nat.two_pow_pos _

theorem representable_zero : Representable 0 := ⟨by decide, Nat.dvd_zero _⟩

/-- A binary64 number; not-a-number has no sign and no payload. -/
inductive Binary64 where
  | nan
  | infinite (negative : Bool)
  | finite (negative : Bool) (ulps : Nat) (representable : Representable ulps)
  deriving DecidableEq, Repr

namespace Binary64

/-- zero with the given sign -/
def zero (negative : Bool) : Binary64 := .finite negative 0 representable_zero

/-- a magnitude on the grid, or the infinity if it is beyond the last one -/
def ofUlps (negative : Bool) (u : Nat) : Binary64 :=
  if h : Representable u then .finite negative u h else .infinite negative

theorem ofUlps_of_representable {negative : Bool} {u : Nat} (h : Representable u) :
    ofUlps negative u = .finite negative u h := dif_pos h

/-! ## rounding -/

/-- `a / b` to the nearest natural number, a tie to the even one -/
def roundDiv (a b : Nat) : Nat :=
  let q := a / b
  let twice := 2 * (a % b)
  if twice < b then q
  else if b < twice then q + 1
  else q + q % 2

theorem roundDiv_mul_right (q : Nat) {b : Nat} (hb : 0 < b) : roundDiv (q * b) b = q := by
  simp [roundDiv, Nat.mul_div_cancel q hb, hb]

/-- The binary64 nearest to `num / den`, a tie to the even significand.  Ulps of the integer part
    fix the spacing, and the quotient is rounded to a multiple of it in one step. -/
def ofRatio (negative : Bool) (num den : Nat) : Binary64 :=
  let scaled := num * ulpsPerOne
  let step := spacing (scaled / den)
  ofUlps negative (roundDiv scaled (den * step) * step)

def ofInt (n : Int) : Option Binary64 :=
  match ofRatio (decide (n < 0)) n.natAbs 1 with
  | .infinite _ => none
  | x => some x

/-! ## integers among them -/

/-- the integer that a finite number is truncated to -/
def truncUlps (negative : Bool) (u : Nat) : Int :=
  let whole := (u / ulpsPerOne : Nat)
  if negative then -(whole : Int) else whole

/-- the number is an integer -/
def isInteger : Binary64 → Bool
  | .finite _ u _ => u % ulpsPerOne == 0
  | _ => false

/-- the magnitude is below `2⁵³`, where every integer is representable -/
def isBelowExactLimit : Binary64 → Bool
  | .finite _ u _ => decide (u < Nat.pow 2 53 * ulpsPerOne)
  | _ => false

/-- the number is one of the infinities -/
def isInfinite : Binary64 → Bool
  | .infinite _ => true
  | _ => false

/-- Equality of numbers: the zeros are equal, and not-a-number equals nothing. -/
def numEq : Binary64 → Binary64 → Bool
  | .nan, _ => false
  | _, .nan => false
  | .infinite a, .infinite b => a == b
  | .finite a u _, .finite b v _ => u == v && (a == b || u == 0)
  | _, _ => false

/-- the number is exactly the integer `n` -/
def eqInt (x : Binary64) (n : Int) : Bool :=
  match x with
  | .finite negative u _ => u == n.natAbs * ulpsPerOne && (n == 0 || negative == decide (n < 0))
  | _ => false

end Binary64

end FullText

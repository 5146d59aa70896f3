import FullText.Number
import FullText.Value

/-!
# Equal numbers of different kinds

* `Binary64.eqInt_truncUlps`   an integral binary64 is the integer that is left of it without its fraction;
* `Binary64.numEq_of_eqInt`    what is the same integer is equal;
* `Number.Equal a b`           two numbers are equal, whatever their kinds;
* `Number.Equal.of_int`        so are numbers that are equal to one integer;
* `Number.Equal.isInfinite`    nothing finite is equal to an infinity.
-/

namespace FullText

namespace Binary64

/-! ## integers among the binary64 numbers -/

theorem eqInt_iff {negative : Bool} {u : Nat} {h : Representable u} {k : Int} :
    (finite negative u h).eqInt k = true
      ↔ u = k.natAbs * ulpsPerOne ∧ (k = 0 ∨ negative = decide (k < 0)) := by
  rw [eqInt, Bool.and_eq_true, Bool.or_eq_true, beq_iff_eq, beq_iff_eq, beq_iff_eq]

theorem numEq_finite_iff {negative negative' : Bool} {u u' : Nat} {h : Representable u}
    {h' : Representable u'} :
    (finite negative u h).numEq (finite negative' u' h') = true
      ↔ u = u' ∧ (negative = negative' ∨ u = 0) := by
  rw [numEq, Bool.and_eq_true, Bool.or_eq_true, beq_iff_eq, beq_iff_eq, beq_iff_eq]

theorem numEq_self (negative : Bool) (u : Nat) (h : Representable u) :
    (finite negative u h).numEq (finite negative u h) = true :=
  numEq_finite_iff.mpr ⟨Eq.refl u, .inl (Eq.refl negative)⟩

theorem natAbs_truncUlps (negative : Bool) (u : Nat) :
    (truncUlps negative u).natAbs = u / ulpsPerOne := by
  cases negative with
  | false => exact Int.natAbs_natCast _
  | true => exact (Int.natAbs_neg _).trans (Int.natAbs_natCast _)

/-- What is left without a fraction has the sign of the number, unless it is zero. -/
theorem sign_truncUlps (negative : Bool) (u : Nat) :
    truncUlps negative u = 0 ∨ negative = decide (truncUlps negative u < 0) := by
  obtain ⟨w, hw⟩ : ∃ w, w = u / ulpsPerOne := ⟨_, rfl⟩
  have htrunc : truncUlps negative u = if negative then -(w : Int) else w := by rw [hw]; rfl
  rw [htrunc]
  cases negative with
  | false =>
    have hnonneg : ¬ (w : Int) < 0 := by omega
    exact .inr (decide_eq_false hnonneg).symm
  | true =>
    show -(w : Int) = 0 ∨ true = decide (-(w : Int) < 0)
    obtain hzero | hpos := Nat.eq_zero_or_pos w
    · exact .inl (by omega)
    · have hneg : -(w : Int) < 0 := by omega
      exact .inr (decide_eq_true hneg).symm

/-- An integral number is exactly the integer that is left of it without its fraction. -/
theorem eqInt_truncUlps {negative : Bool} {u : Nat} {h : Representable u}
    (hinteger : (finite negative u h).isInteger = true) :
    (finite negative u h).eqInt (truncUlps negative u) = true := by
  rw [isInteger, beq_iff_eq] at hinteger
  have hmul : u / ulpsPerOne * ulpsPerOne = u := Nat.div_mul_cancel (Nat.dvd_of_mod_eq_zero hinteger)
  rw [eqInt_iff, natAbs_truncUlps]
  exact ⟨hmul.symm, sign_truncUlps negative u⟩

/-- Numbers that are the same integer are equal. -/
theorem numEq_of_eqInt {x y : Binary64} {k : Int} (hx : x.eqInt k = true) (hy : y.eqInt k = true) :
    x.numEq y = true := by
  match x, y with
  | .finite negative u h, .finite negative' u' h' =>
    obtain ⟨hu, hsign⟩ := eqInt_iff.mp hx
    obtain ⟨hu', hsign'⟩ := eqInt_iff.mp hy
    refine numEq_finite_iff.mpr ⟨hu.trans hu'.symm, ?_⟩
    by_cases hzero : k = 0
    · exact .inr (by rw [hu, hzero, Int.natAbs_zero, Nat.zero_mul])
    · exact .inl ((hsign.resolve_left hzero).trans (hsign'.resolve_left hzero).symm)
  | .nan, _ => cases hx
  | .infinite _, _ => cases hx
  | .finite _ _ _, .nan => cases hy
  | .finite _ _ _, .infinite _ => cases hy

theorem infinite_ne_nan (negative : Bool) : infinite negative ≠ .nan := nofun

theorem finite_ne_nan (negative : Bool) (u : Nat) (h : Representable u) :
    finite negative u h ≠ .nan := nofun

theorem numEq_refl {x : Binary64} (h : x ≠ .nan) : x.numEq x = true := by
  match x with
  | .nan => exact absurd rfl h
  | .infinite negative => exact beq_self_eq_true negative
  | .finite negative u hu => exact numEq_self negative u hu

end Binary64

namespace Number

/-! ## equality -/

/-- a number as a value -/
def toValue : Number → Value
  | .int n => .int n
  | .bool b => .bool b
  | .float x => .float x

/-- two numbers are equal, whatever their kinds -/
def Equal (a b : Number) : Prop := a.toValue.sameLeaf b.toValue = true

/-- the integer that a truth value counts as -/
def ofBool (b : Bool) : Int := if b then 1 else 0

theorem int_equal_int {n k : Int} : Equal (.int n) (.int k) ↔ n = k := by
  simp [Equal, toValue, Value.sameLeaf, Value.keyInt?]

theorem float_equal_int {x : Binary64} {k : Int} :
    Equal (.float x) (.int k) ↔ x.eqInt k = true := Iff.rfl

/-- A truth value is equal to what its integer is equal to. -/
theorem equal_bool {n : Number} {b : Bool} : n.Equal (.bool b) ↔ n.Equal (.int (ofBool b)) := by
  cases n <;> exact Iff.rfl

theorem bool_equal {n : Number} {b : Bool} : Equal (.bool b) n ↔ Equal (.int (ofBool b)) n := by
  cases n <;> exact Iff.rfl

theorem equal_refl {n : Number} (h : n ≠ .float .nan) : n.Equal n := by
  cases n with
  | int n => exact int_equal_int.mpr rfl
  | bool b => exact equal_bool.mpr (bool_equal.mpr (int_equal_int.mpr rfl))
  | float x => exact Binary64.numEq_refl fun hx => h (congrArg _ hx)

/-- Numbers that are equal to the same integer are equal. -/
theorem Equal.of_int {n m : Number} {k : Int} (hn : n.Equal (.int k)) (hm : m.Equal (.int k)) :
    n.Equal m := by
  cases m with
  | int a => rwa [← int_equal_int.mp hm] at hn
  | bool b =>
    rw [bool_equal, int_equal_int] at hm
    rwa [equal_bool, hm]
  | float y =>
    cases n with
    | int a =>
      rw [int_equal_int.mp hn]
      exact hm
    | bool b =>
      rw [bool_equal, int_equal_int] at hn
      rw [bool_equal, hn]
      exact hm
    | float x => exact Binary64.numEq_of_eqInt hn hm

theorem Equal.isInfinite {n m : Number} (h : n.Equal m) : n.isInfinite = m.isInfinite := by
  match n, m with
  | .int _, .int _ => rfl
  | .int _, .bool _ => rfl
  | .int _, .float (.finite _ _ _) => rfl
  | .bool _, .int _ => rfl
  | .bool _, .bool _ => rfl
  | .bool _, .float (.finite _ _ _) => rfl
  | .float (.finite _ _ _), .int _ => rfl
  | .float (.finite _ _ _), .bool _ => rfl
  | .float (.finite _ _ _), .float (.finite _ _ _) => rfl
  | .float (.infinite _), .float (.infinite _) => rfl

end Number

end FullText

import FullText.Number.Decimal
import FullText.Proofs.Number.Digits
import FullText.Proofs.Number.Overflow

/-!
# Fractions and decimals that round to the same number

* `Binary64.ofRatio_congr`      the nearest number of a fraction only depends on its quotient;
* `Binary64.ofRatio_ulps`       a magnitude of the format is the nearest one of itself;
* `Decimal.toBinary64_eq`       the nearest number of a decimal is that of a fraction, unless the decimal
                                is out of range;
* `Decimal.toBinary64_scale`    a zero at the end of the coefficient is a step of the exponent;
* `Decimal.toBinary64_exact`    a magnitude is the nearest one of the decimal that it is exactly;
* `Decimal.toBinary64_whole`    a whole number of ones is the nearest one of that number.
-/

namespace FullText

namespace Binary64

theorem roundDiv_mul_mul_right (a b : Nat) {k : Nat} (hk : 0 < k) :
    roundDiv (a * k) (b * k) = roundDiv a b := by
  have hq : a * k / (b * k) = a / b := Nat.mul_div_mul_right a b hk
  have hr : 2 * (a * k % (b * k)) = 2 * (a % b) * k := by
    rw [Nat.mul_mod_mul_right, Nat.mul_assoc]
  unfold roundDiv
  simp only [hq, hr, Nat.mul_lt_mul_right hk]

/-- Fractions with the same quotient have the same nearest number. -/
theorem ofRatio_congr {num den num' den' : Nat} (negative : Bool) (hd : 0 < den) (hd' : 0 < den')
    (h : num * den' = num' * den) : ofRatio negative num den = ofRatio negative num' den' := by
  have hscaled : num * ulpsPerOne * den' = num' * ulpsPerOne * den := by
    rw [Nat.mul_right_comm, h, Nat.mul_right_comm]
  have hquotient : num * ulpsPerOne / den = num' * ulpsPerOne / den' := by
    calc num * ulpsPerOne / den
        = num * ulpsPerOne * den' / (den * den') := (Nat.mul_div_mul_right _ _ hd').symm
      _ = num' * ulpsPerOne * den / (den' * den) := by rw [hscaled, Nat.mul_comm den]
      _ = num' * ulpsPerOne / den' := Nat.mul_div_mul_right _ _ hd
  have hround : ∀ step, roundDiv (num * ulpsPerOne) (den * step)
      = roundDiv (num' * ulpsPerOne) (den' * step) := by
    intro step
    calc roundDiv (num * ulpsPerOne) (den * step)
        = roundDiv (num * ulpsPerOne * den') (den * step * den') :=
          (roundDiv_mul_mul_right _ _ hd').symm
      _ = roundDiv (num' * ulpsPerOne * den) (den' * step * den) := by
          rw [hscaled, Nat.mul_right_comm den, Nat.mul_comm den den', Nat.mul_right_comm den']
      _ = roundDiv (num' * ulpsPerOne) (den' * step) := roundDiv_mul_mul_right _ _ hd
  simp only [ofRatio, hquotient, hround]

theorem ulpsPerOne_pos : 0 < ulpsPerOne := by decide +kernel

/-- What is on the grid stays where it is. -/
theorem rounded_of_representable {u : Nat} (h : Representable u) : rounded u = u := by
  obtain ⟨q, hq⟩ := h.2
  have hu : u = q * spacing u := hq.trans (Nat.mul_comm _ _)
  have hround : roundDiv u (spacing u) = q :=
    (congrArg (roundDiv · (spacing u)) hu).trans (roundDiv_mul_right q (spacing_pos u))
  rw [rounded, hround]
  exact hu.symm

/-- A magnitude of the format is the nearest one of itself. -/
theorem ofRatio_ulps {negative : Bool} {u : Nat} (h : Representable u) :
    ofRatio negative u ulpsPerOne = .finite negative u h := by
  have hwhole : u * ulpsPerOne / ulpsPerOne = u := Nat.mul_div_cancel u ulpsPerOne_pos
  have hround : roundDiv (u * ulpsPerOne) (ulpsPerOne * spacing u) * spacing u = u := by
    rw [Nat.mul_comm ulpsPerOne, roundDiv_mul_mul_right _ _ ulpsPerOne_pos]
    exact rounded_of_representable h
  simp only [ofRatio, hwhole, hround]
  exact ofUlps_of_representable h

end Binary64

namespace Decimal

/-! ## decimals -/

/-- the numerator of a decimal as a fraction -/
def num (d : Decimal) : Nat := d.coefficient * 10 ^ d.exponent.toNat

/-- its denominator -/
def den (d : Decimal) : Nat := 10 ^ (-d.exponent).toNat

theorem den_pos (d : Decimal) : 0 < d.den := Nat.pow_pos (by decide)

theorem toBinary64_zero (negative : Bool) (e : Int) :
    toBinary64 negative ⟨0, e⟩ = .zero negative := rfl

/-- Unless it is out of range, the nearest number of a decimal is that of a fraction. -/
theorem toBinary64_eq (negative : Bool) (d : Decimal) :
    d.toBinary64 negative
      = if d.coefficient = 0 then .zero negative
        else if 310 < d.magnitude then .infinite negative
        else if d.magnitude < -330 then .zero negative
        else .ofRatio negative d.num d.den := by
  obtain ⟨c, e⟩ := d
  rw [toBinary64]
  cases e with
  | ofNat k =>
    have hden : (-Int.ofNat k).toNat = 0 := Int.toNat_neg_natCast k
    simp only [num, den, hden, Nat.pow_zero, Nat.pow_eq]
    rfl
  | negSucc k =>
    have hnum : (Int.negSucc k).toNat = 0 := rfl
    have hden : (-Int.negSucc k).toNat = k + 1 := rfl
    simp only [num, den, hnum, hden, Nat.pow_zero, Nat.mul_one, Nat.pow_eq]

theorem magnitude_scale {c : Nat} (hc : c ≠ 0) (k : Nat) (e : Int) :
    magnitude ⟨c * 10 ^ k, e⟩ = magnitude ⟨c, e + k⟩ := by
  show ((decimalDigits (c * 10 ^ k)).length : Int) + e = (decimalDigits c).length + (e + k)
  rw [Numeral.decimalDigits_mul_pow hc, List.length_append, List.length_replicate]
  omega

/-- A zero at the end of the coefficient is a step of the exponent. -/
theorem toBinary64_scale (negative : Bool) (c k : Nat) (e : Int) :
    toBinary64 negative ⟨c * 10 ^ k, e⟩ = toBinary64 negative ⟨c, e + k⟩ := by
  obtain rfl | hc := Nat.eq_zero_or_pos c
  · rw [Nat.zero_mul]
    rfl
  · have hne : c ≠ 0 := Nat.ne_of_gt hc
    have hne' : c * 10 ^ k ≠ 0 := Nat.mul_ne_zero hne (Nat.ne_of_gt (Nat.pow_pos (by decide)))
    have hratio : Binary64.ofRatio negative (num ⟨c * 10 ^ k, e⟩) (den ⟨c * 10 ^ k, e⟩)
        = .ofRatio negative (num ⟨c, e + k⟩) (den ⟨c, e + k⟩) := by
      refine Binary64.ofRatio_congr negative (den_pos _) (den_pos _) ?_
      simp only [num, den, Nat.mul_assoc, ← Nat.pow_add]
      congr 2
      omega
    rw [toBinary64_eq, toBinary64_eq, magnitude_scale hne, hratio]
    simp only [hne, hne', if_false]

/-! ## magnitudes as decimals -/

theorem mul_pow_five_lt {u i j k : Nat} (h : u < 2 ^ (i + k)) (hij : 2 ^ i ≤ 10 ^ j) :
    u * 5 ^ k < 10 ^ (j + k) := by
  calc u * 5 ^ k
      < 2 ^ (i + k) * 5 ^ k := Nat.mul_lt_mul_of_pos_right h (Nat.pow_pos (by decide))
    _ = 2 ^ i * 10 ^ k := by rw [Nat.pow_add, Nat.mul_assoc, ← Nat.mul_pow]
    _ ≤ 10 ^ j * 10 ^ k := Nat.mul_le_mul_right _ hij
    _ = 10 ^ (j + k) := (Nat.pow_add 10 j k).symm

theorem coefficient_exact (u : Nat) : (Binary64.exact u).coefficient = u * Nat.pow 5 1074 := rfl

/-- Every magnitude but zero is in range as a decimal: in ones it has at most 309 digits, and the least
    one has 743 of them in units of the last one. -/
theorem magnitude_exact {u : Nat} (hu : u ≠ 0) (h : Representable u) :
    -330 ≤ (Binary64.exact u).magnitude ∧ (Binary64.exact u).magnitude ≤ 310 := by
  -- the exponents are kept as variables, so that nothing evaluates the powers
  obtain ⟨k, hk⟩ : ∃ k, k = 1074 := ⟨_, rfl⟩
  obtain ⟨l, hl⟩ : ∃ l, l = 743 := ⟨_, rfl⟩
  have hlog : u < 2 ^ (1024 + k) := by
    rw [show 1024 + k = 53 + (971 + k) by omega]
    exact ((representable_iff (by omega) hu).mp h).1
  have hones : 2 ^ 1024 ≤ 10 ^ 309 := by decide +kernel
  have hupper : (decimalDigits (u * 5 ^ k)).length ≤ 309 + k :=
    (Numeral.length_decimalDigits_le_iff (by omega)).mpr (mul_pow_five_lt hlog hones)
  have hlower : ¬ (decimalDigits (u * 5 ^ k)).length ≤ l := by
    have hleast : 10 ^ l ≤ 5 ^ k := by
      rw [hk, hl]
      decide +kernel
    rw [Numeral.length_decimalDigits_le_iff (by omega), Nat.not_lt]
    exact Nat.le_trans hleast (Nat.le_mul_of_pos_left _ (Nat.pos_of_ne_zero hu))
  have hcoefficient : (Binary64.exact u).coefficient = u * 5 ^ k := by
    rw [coefficient_exact, ← hk, Nat.pow_eq]
  have hexponent : (Binary64.exact u).exponent = -(k : Int) := by
    rw [hk]
    rfl
  rw [magnitude, hcoefficient, hexponent]
  omega

theorem ulpsPerOne_mul_pow : ulpsPerOne * Nat.pow 5 1074 = 10 ^ 1074 := by decide +kernel

/-- A magnitude is the nearest one of the decimal that it is exactly. -/
theorem toBinary64_exact {negative : Bool} {u : Nat} (hu : u ≠ 0) (h : Representable u) :
    (Binary64.exact u).toBinary64 negative = .finite negative u h := by
  obtain ⟨hlow, hhigh⟩ := magnitude_exact hu h
  obtain ⟨five, hfive⟩ : ∃ five, five = Nat.pow 5 1074 := ⟨_, rfl⟩
  have hpos : five ≠ 0 := by
    rw [hfive]
    decide +kernel
  have hcoefficient : (Binary64.exact u).coefficient = u * five := by
    rw [coefficient_exact, hfive]
  have hnum : (Binary64.exact u).num = u * five := by
    rw [num, hcoefficient]
    exact Nat.mul_one _
  have hden : (Binary64.exact u).den = 10 ^ 1074 := by
    have hexponent : (-(Binary64.exact u).exponent).toNat = 1074 := rfl
    rw [den, hexponent]
  rw [toBinary64_eq, hcoefficient, if_neg (Nat.mul_ne_zero hu hpos), if_neg (not_lt.mpr hhigh),
    if_neg (not_lt.mpr hlow), ← Binary64.ofRatio_ulps h]
  refine Binary64.ofRatio_congr negative (den_pos _) Binary64.ulpsPerOne_pos ?_
  rw [hnum, hden, Nat.mul_assoc, Nat.mul_comm five, hfive, ulpsPerOne_mul_pow]

/-- A whole number of ones is the nearest binary64 of its numeral. -/
theorem toBinary64_whole {negative : Bool} {m u : Nat} (hm : m ≠ 0) (hu : u = m * ulpsPerOne)
    (h : Representable u) : toBinary64 negative ⟨m, 0⟩ = .finite negative u h := by
  have hne : u ≠ 0 := by
    rw [hu]
    exact Nat.mul_ne_zero hm (Nat.ne_of_gt Binary64.ulpsPerOne_pos)
  obtain ⟨j, hj⟩ : ∃ j, j = 1074 := ⟨_, rfl⟩
  have hexact : Binary64.exact u = ⟨m * 10 ^ j, -(j : Int)⟩ := by
    rw [Binary64.exact, hu, Nat.mul_assoc, ulpsPerOne_mul_pow, hj]
    rfl
  rw [← toBinary64_exact hne h, hexact, toBinary64_scale, Int.add_left_neg]

end Decimal

end FullText

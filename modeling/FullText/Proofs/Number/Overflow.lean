import FullText.Number.Binary64
import Mathlib.Algebra.Group.Nat.Defs

/-!
# Which integers are beyond the binary64 numbers

* `Binary64.roundDiv_lt_iff`    from half a step below an even number on, a quotient is rounded to it;
* `rounded`                     the magnitude that a number of ulps is rounded to;
* `representable_rounded_iff`   it is one of the format up to half a step beyond the largest;
* `Binary64.ofInt_eq_none_iff`  so these are the integers with no binary64.

The powers are of exponents that are not known here, but for the last theorem: nothing is to evaluate
them.
-/

namespace FullText

namespace Binary64

theorem le_roundDiv (a b : Nat) : a / b ≤ roundDiv a b := by
  unfold roundDiv
  dsimp only
  split
  · exact Nat.le_refl _
  · split <;> omega

theorem roundDiv_le (a b : Nat) : roundDiv a b ≤ a / b + 1 := by
  unfold roundDiv
  dsimp only
  split
  · omega
  · split <;> omega

/-- An even number is reached from half a step below it on: the tie goes to it. -/
theorem roundDiv_lt_iff {a b q : Nat} (hb : 0 < b) (heven : q % 2 = 0) :
    roundDiv a b < q ↔ 2 * a + b < 2 * q * b := by
  have ha : 2 * a = 2 * (a / b) * b + 2 * (a % b) := by
    rw [Nat.mul_assoc, ← Nat.mul_add, Nat.div_add_mod' a b]
  have hr : a % b < b := Nat.mod_lt a hb
  have hle := le_roundDiv a b
  have hge := roundDiv_le a b
  obtain h | h | h := Nat.lt_trichotomy (a / b + 1) q
  · have hstep : (2 * (a / b) + 4) * b ≤ 2 * q * b := Nat.mul_le_mul_right b (by omega)
    rw [Nat.add_mul] at hstep
    omega
  · -- the number is the next one after the quotient, and it is all up to the remainder
    have hstep : 2 * q * b = 2 * (a / b) * b + 2 * b := by
      rw [← h, Nat.mul_add, Nat.add_mul]
    unfold roundDiv
    dsimp only
    split
    · omega
    · split <;> omega
  · have hstep : 2 * q * b ≤ 2 * (a / b) * b := Nat.mul_le_mul_right b (by omega)
    omega

end Binary64

/-! ## magnitudes -/

theorem spacing_eq (u : Nat) : spacing u = 2 ^ (u.log2 - 52) := Nat.pow_eq

theorem representable_iff {u e : Nat} (he : 53 + e = 2098) (hne : u ≠ 0) :
    Representable u ↔ u < 2 ^ (53 + e) ∧ 2 ^ (u.log2 - 52) ∣ u := by
  rw [Representable, spacing_eq, ← he]
  exact and_congr (Nat.log2_lt hne) Iff.rfl

/-- A significand of 53 bits, or the next one after all of them, makes a magnitude if it is not too
    large. -/
theorem representable_mul_iff {q e : Nat} (he : 53 + e = 2098) (hlow : 2 ^ 52 ≤ q)
    (hhigh : q ≤ 2 ^ 53) (k : Nat) : Representable (q * 2 ^ k) ↔ q * 2 ^ k < 2 ^ (53 + e) := by
  have hne : q * 2 ^ k ≠ 0 := Nat.mul_ne_zero (by omega) (Nat.ne_of_gt (Nat.two_pow_pos k))
  rw [representable_iff he hne]
  refine and_iff_left ?_
  obtain h | rfl := Nat.lt_or_eq_of_le hhigh
  · have hlog : (q * 2 ^ k).log2 = 52 + k := by
      rw [Nat.log2_eq_iff hne, show 52 + k + 1 = 53 + k by omega, Nat.pow_add, Nat.pow_add]
      exact ⟨Nat.mul_le_mul_right _ hlow, Nat.mul_lt_mul_of_pos_right h (Nat.two_pow_pos k)⟩
    rw [hlog, Nat.add_sub_cancel_left]
    exact Nat.dvd_mul_left _ _
  · rw [← Nat.pow_add, Nat.log2_two_pow]
    exact Nat.pow_dvd_pow 2 (by omega)

/-- the magnitude that `u` is rounded to -/
def rounded (u : Nat) : Nat := Binary64.roundDiv u (spacing u) * spacing u

/-- what is not too small has a significand of 53 bits -/
theorem significand_bounds {u : Nat} (h : 52 ≤ u.log2) :
    2 ^ 52 * spacing u ≤ u ∧ u < 2 ^ 53 * spacing u := by
  have hne : u ≠ 0 := by
    rintro rfl
    exact absurd h (by decide)
  rw [spacing_eq, ← Nat.pow_add, ← Nat.pow_add, Nat.add_sub_cancel' h,
    show 53 + (u.log2 - 52) = u.log2 + 1 by omega]
  exact ⟨Nat.log2_self_le hne, Nat.lt_log2_self⟩

theorem roundDiv_bounds {u w : Nat} (hw : 0 < w) (hlow : 2 ^ 52 * w ≤ u) (hhigh : u < 2 ^ 53 * w) :
    2 ^ 52 ≤ Binary64.roundDiv u w ∧ Binary64.roundDiv u w ≤ 2 ^ 53 := by
  have hq : 2 ^ 52 ≤ u / w := (Nat.le_div_iff_mul_le hw).mpr hlow
  have hq' : u / w < 2 ^ 53 := (Nat.div_lt_iff_lt_mul hw).mpr hhigh
  exact ⟨Nat.le_trans hq (Binary64.le_roundDiv u w),
    Nat.le_trans (Binary64.roundDiv_le u w) hq'⟩

/-- What is rounded to `53` bits stays below a power of two unless it is within half of the last step
    before it. -/
theorem roundDiv_mul_lt_iff {u k : Nat} (e : Nat) (hlow : 2 ^ 52 * 2 ^ k ≤ u)
    (hhigh : u < 2 ^ 53 * 2 ^ k) :
    Binary64.roundDiv u (2 ^ k) * 2 ^ k < 2 ^ (53 + e) ↔ 2 * u + 2 ^ e < 2 * 2 ^ (53 + e) := by
  obtain ⟨hq, hq'⟩ := roundDiv_bounds (Nat.two_pow_pos k) hlow hhigh
  have hmul := Nat.mul_le_mul_right (2 ^ k) hq
  have hmul' := Nat.mul_le_mul_right (2 ^ k) hq'
  rw [Nat.pow_add 2 53 e]
  obtain h | rfl | h := Nat.lt_trichotomy k e
  · have hpow : 2 * 2 ^ k ≤ 2 ^ e := by
      rw [← Nat.pow_succ']
      exact Nat.pow_le_pow_right (by decide) h
    have hpos := Nat.two_pow_pos k
    omega
  · rw [Nat.mul_lt_mul_right (Nat.two_pow_pos k), ← Nat.mul_assoc]
    exact Binary64.roundDiv_lt_iff (Nat.two_pow_pos k) (by decide)
  · have hpow : 2 * 2 ^ e ≤ 2 ^ k := by
      rw [← Nat.pow_succ']
      exact Nat.pow_le_pow_right (by decide) h
    omega

theorem representable_rounded_iff {u e : Nat} (he : 53 + e = 2098) (h : 52 ≤ u.log2) :
    Representable (rounded u) ↔ 2 * u + 2 ^ e < 2 * 2 ^ (53 + e) := by
  obtain ⟨hu, hu'⟩ := significand_bounds h
  obtain ⟨hq, hq'⟩ := roundDiv_bounds (spacing_pos u) hu hu'
  rw [rounded]
  rw [spacing_eq] at hu hu' hq hq' ⊢
  exact (representable_mul_iff he hq hq' _).trans (roundDiv_mul_lt_iff e hu hu')

/-! ## integers -/

theorem Binary64.ofUlps_eq_infinite_iff {negative : Bool} {u : Nat} :
    (∃ b, ofUlps negative u = .infinite b) ↔ ¬ Representable u := by
  unfold ofUlps
  split
  next h => exact ⟨nofun, fun h' => absurd h h'⟩
  next h => exact ⟨fun _ => h, fun _ => ⟨negative, rfl⟩⟩

theorem Binary64.ofInt_eq_none_iff_ofRatio {n : Int} :
    ofInt n = none ↔ ∃ b, ofRatio (decide (n < 0)) n.natAbs 1 = .infinite b := by
  -- unfolded while it is not applied: the match on its result would be run, with all its numerals
  obtain ⟨f, hf⟩ : ∃ f, f = ofInt := ⟨_, rfl⟩
  rw [← hf]
  delta ofInt at hf
  rw [hf]
  dsimp only
  generalize ofRatio (decide (n < 0)) n.natAbs 1 = x
  cases x with
  | infinite b => exact ⟨fun _ => ⟨b, rfl⟩, fun _ => rfl⟩
  | nan | finite => exact ⟨nofun, nofun⟩

theorem Binary64.ofRatio_one (negative : Bool) (m : Nat) :
    ofRatio negative m 1 = ofUlps negative (rounded (m * ulpsPerOne)) := by
  rw [ofRatio, Nat.div_one, Nat.one_mul, rounded]

theorem le_log2_mul {m k : Nat} (hm : 0 < m) : k ≤ (m * 2 ^ k).log2 := by
  have hpos := Nat.two_pow_pos k
  rw [Nat.le_log2 (Nat.mul_ne_zero (by omega) (by omega))]
  exact Nat.le_mul_of_pos_left _ hm

/-- what is half a step beyond the largest magnitude, in ones instead of ulps -/
theorem overflow_iff_in_ones {m j k : Nat} :
    ¬ 2 * (m * 2 ^ k) + 2 ^ (j + 1 + k) < 2 * 2 ^ (53 + (j + 1 + k))
      ↔ (2 ^ 54 - 1) * 2 ^ j ≤ m := by
  have hscale : 2 * (m * 2 ^ k) + 2 ^ (j + 1 + k) = 2 * (m + 2 ^ j) * 2 ^ k := by
    rw [Nat.pow_add, Nat.pow_succ', Nat.mul_add, Nat.add_mul, Nat.mul_assoc 2 m]
  have hscale' : 2 * 2 ^ (53 + (j + 1 + k)) = 2 * 2 ^ (54 + j) * 2 ^ k := by
    rw [Nat.mul_assoc, ← Nat.pow_add, show 53 + (j + 1 + k) = 54 + j + k by omega]
  rw [hscale, hscale', Nat.mul_lt_mul_right (Nat.two_pow_pos k),
    Nat.mul_lt_mul_left (by decide : 0 < 2), Nat.not_lt, Nat.pow_add, Nat.sub_mul, Nat.one_mul,
    Nat.sub_le_iff_le_add]

theorem Binary64.ofRatio_infinite_iff {negative : Bool} {m k : Nat} (hk : ulpsPerOne = Nat.pow 2 k)
    (hk' : 52 ≤ k) {j : Nat} (hj : 53 + (j + 1 + k) = 2098) :
    (∃ b, ofRatio negative m 1 = .infinite b) ↔ (2 ^ 54 - 1) * 2 ^ j ≤ m := by
  rw [ofRatio_one, ofUlps_eq_infinite_iff, hk, Nat.pow_eq]
  obtain rfl | hm := Nat.eq_zero_or_pos m
  · have hzero : Representable (rounded 0) := by decide
    have hpos := Nat.two_pow_pos j
    rw [Nat.zero_mul]
    exact iff_of_false (fun h => h hzero) (by omega)
  · rw [representable_rounded_iff hj (Nat.le_trans hk' (le_log2_mul hm))]
    exact overflow_iff_in_ones

/-- The integers with no binary64 are those from half a step beyond the largest finite number on, and
    their opposites. -/
theorem Binary64.ofInt_eq_none_iff (n : Int) :
    ofInt n = none ↔ (2 ^ 54 - 1) * 2 ^ 970 ≤ n.natAbs := by
  obtain ⟨k, hk, hulps⟩ : ∃ k, k = 1074 ∧ ulpsPerOne = Nat.pow 2 k := by
    refine ⟨_, rfl, ?_⟩
    delta ulpsPerOne
    exact Eq.refl _
  rw [ofInt_eq_none_iff_ofRatio]
  generalize hj : 970 = j
  exact ofRatio_infinite_iff hulps (by omega) (by omega)

end FullText

import FullText.Filter
import FullText.Proofs.Number.Equality
import FullText.Proofs.Number.ReadBack

/-!
# Bounds of a range

* `Number.Writes n t`         the ways to write a number: the numeral of an integer that it is equal to, or
                              the shortest text of a float;
* `Number.Writes.equal`       one text is only ever written for equal numbers;
* `Number.Says n t`           a text says exactly what a number is;
* `Number.Faithful n exclusive t`  so does a bound, and it is marked if the number itself is excluded;
* `Number.bounds_faithful`    this is how bounds are written, and what follows for two of them.

The texts of integers and floats never coincide: only the latter hold a point, an exponent or a letter.
-/

namespace FullText

open Numeral

namespace Binary64

/-- The numeral of an integer that a number is reads back as that number, but for the sign of zero. -/
theorem readFloat?_of_eqInt {negative : Bool} {u : Nat} {h : Representable u} {k : Int}
    (hk : (finite negative u h).eqInt k = true) :
    ∃ y, readFloat? (toString k) = some y ∧ y.numEq (finite negative u h) = true := by
  obtain ⟨hu, hsign⟩ := eqInt_iff.mp hk
  rw [readFloat?_toString]
  by_cases hzero : k = 0
  · have hread : Decimal.toBinary64 (decide (k < 0)) ⟨k.natAbs, 0⟩ = zero (decide (k < 0)) := by
      rw [hzero]
      exact Decimal.toBinary64_zero _ _
    have hu0 : 0 = u := by rw [hu, hzero, Int.natAbs_zero, Nat.zero_mul]
    exact ⟨zero (decide (k < 0)), congrArg some hread, numEq_finite_iff.mpr ⟨hu0, .inr rfl⟩⟩
  · have hread : Decimal.toBinary64 (decide (k < 0)) ⟨k.natAbs, 0⟩ = finite negative u h := by
      rw [← hsign.resolve_left hzero]
      exact Decimal.toBinary64_whole (Int.natAbs_ne_zero.mpr hzero) hu h
    exact ⟨finite negative u h, congrArg some hread, numEq_self negative u h⟩

end Binary64

namespace Number

/-! ## what is written -/

/-- The ways to write a number: as the numeral of an integer that it is equal to, or in the shortest form
    of a binary64. -/
inductive Writes : Number → String → Prop where
  | whole {n : Number} {k : Int} {t : String} (equal : n.Equal (.int k)) (text : writeInt k = .ok t) :
    Writes n t
  | float {x : Binary64} {t : String} (number : x ≠ .nan) (text : t = x.text) : Writes (.float x) t

/-- bounds: integers of at most 4300 digits, truth values, and every binary64 but not-a-number -/
def IsBound : Number → Prop
  | .int n => (decimalDigits n.natAbs).length ≤ digitLimit
  | .bool _ => True
  | .float x => x ≠ .nan

/-- What is below the exact limit has at most 16 digits. -/
theorem length_truncUlps_le {negative : Bool} {u : Nat} {h : Representable u}
    (hbelow : (Binary64.finite negative u h).isBelowExactLimit = true) :
    (decimalDigits (Binary64.truncUlps negative u).natAbs).length ≤ digitLimit := by
  rw [Binary64.isBelowExactLimit, decide_eq_true_iff] at hbelow
  have hwhole : u / ulpsPerOne < 10 ^ 16 := by
    have hlimit : Nat.pow 2 53 ≤ 10 ^ 16 := by decide
    exact Nat.lt_of_lt_of_le ((Nat.div_lt_iff_lt_mul Binary64.ulpsPerOne_pos).mpr hbelow) hlimit
  have hshort : (decimalDigits (u / ulpsPerOne)).length ≤ 16 :=
    (length_decimalDigits_le_iff (by decide)).mpr hwhole
  rw [Binary64.natAbs_truncUlps]
  exact Nat.le_trans hshort (by decide)

theorem formatFloat_writes {x : Binary64} (h : x ≠ .nan) :
    ∃ t, formatFloat x = .ok t ∧ Writes (.float x) t := by
  cases x with
  | nan => exact absurd rfl h
  | infinite negative => exact ⟨_, rfl, .float (Binary64.infinite_ne_nan negative) rfl⟩
  | finite negative u hu =>
    rw [formatFloat]
    split
    next hexact =>
      obtain ⟨hwhole, hbelow⟩ := Bool.and_eq_true_iff.mp hexact
      obtain ⟨k, hk⟩ : ∃ k, k = Binary64.truncUlps negative u := ⟨_, rfl⟩
      have hequal : Equal (.float (.finite negative u hu)) (.int k) := by
        rw [float_equal_int, hk]
        exact Binary64.eqInt_truncUlps hwhole
      have hshort : (decimalDigits k.natAbs).length ≤ digitLimit :=
        hk ▸ length_truncUlps_le hbelow
      have hwrite : writeInt k = .ok (toString k) := writeInt_eq_ok_iff.mpr ⟨hshort, rfl⟩
      rw [← hk]
      exact ⟨_, hwrite, .whole hequal hwrite⟩
    next => exact ⟨_, rfl, .float (Binary64.finite_ne_nan negative u hu) rfl⟩

theorem format_writes {n : Number} (h : n.IsBound) : ∃ t, n.format = .ok t ∧ Writes n t := by
  cases n with
  | int n =>
    have hwrite : writeInt n = .ok (toString n) := writeInt_eq_ok_iff.mpr ⟨h, rfl⟩
    exact ⟨_, hwrite, .whole (equal_refl nofun) hwrite⟩
  | bool b =>
    have hequal : Equal (.bool b) (.int (ofBool b)) := bool_equal.mpr (int_equal_int.mpr rfl)
    cases b with
    | false => exact ⟨_, rfl, .whole hequal rfl⟩
    | true => exact ⟨_, rfl, .whole hequal rfl⟩
  | float x => exact formatFloat_writes h

/-- One text is only ever written for equal numbers. -/
theorem Writes.equal {n m : Number} {t : String} (hn : Writes n t) (hm : Writes m t) : n.Equal m := by
  cases hn with
  | whole equal text =>
    cases hm with
    | whole equal' text' =>
      rw [writeInt_injective text text'] at equal
      exact equal.of_int equal'
    | float number text' => exact absurd (text' ▸ text) (writeInt_ne_text _ _)
  | float number text =>
    cases hm with
    | whole equal' text' => exact absurd (text ▸ text') (writeInt_ne_text _ _)
    | float number' text' =>
      rw [Binary64.text_injective (text'.symm.trans text)]
      exact equal_refl fun h => number (Number.float.inj h)

theorem Writes.not_mem {n : Number} {t : String} (h : Writes n t) : '(' ∉ t.toList := by
  cases h with
  | whole equal text => exact not_mem_writeInt text
  | float number text => exact text ▸ Binary64.not_mem_text _

/-! ## what a text says -/

/-- a text says exactly what a number is -/
def Says (t : String) : Number → Prop
  | .int n => t = toString n ∧ readInt t = .ok n
  | .bool b => t = if b then "1" else "0"
  | .float (.infinite negative) => t = if negative then "-inf" else "inf"
  | .float x => ∃ y, readFloat? t = some y ∧ y.numEq x = true

theorem Writes.identifies {n : Number} {t : String} (h : Writes n t) : Says t n := by
  cases h with
  | @whole _ k _ equal text =>
    obtain ⟨hshort, rfl⟩ := writeInt_eq_ok_iff.mp text
    match n with
    | .int n =>
      obtain rfl := int_equal_int.mp equal
      exact ⟨rfl, readInt_toString hshort⟩
    | .bool b =>
      obtain rfl := int_equal_int.mp (bool_equal.mp equal)
      cases b <;> rfl
    | .float .nan => cases equal
    | .float (.infinite negative) => cases equal
    | .float (.finite negative u hu) =>
      exact Binary64.readFloat?_of_eqInt (float_equal_int.mp equal)
  | @float x _ number text =>
    subst text
    match x with
    | .nan => exact absurd rfl number
    | .infinite false => rfl
    | .infinite true => rfl
    | .finite negative u hu =>
      exact ⟨_, Binary64.readFloat?_text _, Binary64.numEq_self negative u hu⟩

/-! ## marks -/

/-- a text with the mark of an excluded bound, or without -/
def mark (marked : Bool) (t : String) : String := if marked then "(" ++ t else t

/-- a text without the mark of an excluded bound, if it has one -/
def unmarked (t : String) : String :=
  match t.toList with
  | '(' :: cs => String.ofList cs
  | _ => t

variable {n m : Number} {t : String}

theorem toList_mark_true : (mark true t).toList = '(' :: t.toList := by
  show ("(" ++ t).toList = _
  rw [String.toList_append]
  rfl

theorem unmarked_mark (marked : Bool) (h : '(' ∉ t.toList) : unmarked (mark marked t) = t := by
  cases marked with
  | true =>
    rw [unmarked, toList_mark_true]
    exact String.ofList_toList
  | false =>
    show unmarked t = t
    unfold unmarked
    split
    next cs hcs => exact absurd (hcs ▸ List.mem_cons_self) h
    next => rfl

theorem head?_mark (marked : Bool) (h : '(' ∉ t.toList) :
    (mark marked t).toList.head? = some '(' ↔ marked = true := by
  cases marked with
  | true =>
    rw [toList_mark_true]
    exact iff_of_true rfl rfl
  | false => exact iff_of_false (fun hhead => h (List.mem_of_head? hhead)) nofun

/-! ## bounds -/

theorem formatBound_mark (h : n.IsBound) (exclusive : Bool) :
    ∃ t, Writes n t ∧ n.formatBound exclusive = .ok (mark (exclusive && !n.isInfinite) t) := by
  obtain ⟨t, hformat, hwrites⟩ := format_writes h
  refine ⟨t, hwrites, ?_⟩
  rw [formatBound, hformat]
  rfl

/-- A text is that of a bound: marked if it excludes a number that is not an infinity, and apart from that
    it says which number. -/
structure Faithful (n : Number) (exclusive : Bool) (t : String) : Prop where
  marked : t.toList.head? = some '(' ↔ exclusive = true ∧ n.isInfinite = false
  number : Says (unmarked t) n

theorem formatBound_faithful (h : n.IsBound) (exclusive : Bool) :
    ∃ t, n.formatBound exclusive = .ok t ∧ Faithful n exclusive t := by
  obtain ⟨t, hwrites, hbound⟩ := formatBound_mark h exclusive
  refine ⟨_, hbound, ?_, ?_⟩
  · rw [head?_mark _ hwrites.not_mem, Bool.and_eq_true, Bool.not_eq_true']
  · rw [unmarked_mark _ hwrites.not_mem]
    exact hwrites.identifies

theorem formatBound_inj {e e' : Bool} (hn : n.IsBound) (hm : m.IsBound)
    (h : n.formatBound e = m.formatBound e') : n.Equal m ∧ (n.isInfinite = false → e = e') := by
  obtain ⟨s, hwrites, hbound⟩ := formatBound_mark hn e
  obtain ⟨s', hwrites', hbound'⟩ := formatBound_mark hm e'
  have htexts : mark (e && !n.isInfinite) s = mark (e' && !m.isInfinite) s' := by
    rw [hbound, hbound'] at h
    exact Except.ok.inj h
  have hsame : s = s' := by
    rw [← unmarked_mark (e && !n.isInfinite) hwrites.not_mem, htexts,
      unmarked_mark (e' && !m.isInfinite) hwrites'.not_mem]
  have hequal : n.Equal m := hwrites.equal (hsame ▸ hwrites')
  refine ⟨hequal, fun hfinite => ?_⟩
  have hmarks := head?_mark (e && !n.isInfinite) hwrites.not_mem
  rw [htexts, head?_mark (e' && !m.isInfinite) hwrites'.not_mem, ← hequal.isInfinite, hfinite] at hmarks
  rw [Bool.not_false, Bool.and_true, Bool.and_true] at hmarks
  exact (Bool.eq_iff_iff.mpr hmarks).symm

/-- Every bound has a text that says which number it is and whether it is excluded, infinities never
    being so; equal texts are those of equal numbers, and of numbers that are both excluded or both not
    unless they are infinite; and a filter puts the texts of its two bounds behind its field. -/
theorem bounds_faithful :
    (∀ (n : Number) (exclusive : Bool), n.IsBound →
        ∃ t, n.formatBound exclusive = .ok t ∧ Faithful n exclusive t)
      ∧ (∀ (n m : Number) (e e' : Bool), n.IsBound → m.IsBound → n.formatBound e = m.formatBound e' →
        n.Equal m ∧ (n.isInfinite = false → e = e'))
      ∧ (∀ f : NumericFilter, f.minimum.IsBound → f.maximum.IsBound →
        ∃ low high, f.tokens = .ok [.text "FILTER", .text f.property, .text low, .text high]
          ∧ Faithful f.minimum f.exclusiveMin low ∧ Faithful f.maximum f.exclusiveMax high) := by
  refine ⟨fun n exclusive h => formatBound_faithful h exclusive,
    fun n m e e' hn hm => formatBound_inj hn hm, fun f hmin hmax => ?_⟩
  obtain ⟨low, hlow, hfaithful⟩ := formatBound_faithful hmin f.exclusiveMin
  obtain ⟨high, hhigh, hfaithful'⟩ := formatBound_faithful hmax f.exclusiveMax
  refine ⟨low, high, ?_, hfaithful, hfaithful'⟩
  rw [NumericFilter.tokens, hlow, hhigh]
  rfl

end Number

end FullText

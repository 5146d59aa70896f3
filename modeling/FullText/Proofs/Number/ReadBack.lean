import FullText.Number
import FullText.Proofs.Number.Layout

/-!
# Numbers are read back from their texts

* `Decimal.readFloat?_write`     a decimal without the zeros at its end is read back as its nearest number;
* `Binary64.readFloat?_text`     so is a binary64 from its shortest text;
* `Numeral.readInt_toString`     and so is the numeral of an integer.
-/

namespace FullText

open Numeral

/-! ## decimals -/

namespace Decimal

/-- The digits of a coefficient are the significant ones and zeros behind them. -/
theorem exists_decimalDigits_eq (d : Decimal) :
    ∃ k, decimalDigits d.coefficient = d.significant ++ List.replicate k '0' := by
  obtain ⟨l, hl⟩ : ∃ l, l = (decimalDigits d.coefficient).reverse := ⟨_, rfl⟩
  have hzeros : ∀ c ∈ l.takeWhile (· == '0'), c = '0' := fun c hc =>
    eq_of_beq (List.all_eq_true.mp List.all_takeWhile c hc)
  refine ⟨(l.takeWhile (· == '0')).length, ?_⟩
  calc decimalDigits d.coefficient
      = (l.takeWhile (· == '0') ++ l.dropWhile (· == '0')).reverse := by
        rw [List.takeWhile_append_dropWhile, hl, List.reverse_reverse]
    _ = d.significant ++ (l.takeWhile (· == '0')).reverse := by
        rw [List.reverse_append, significant, hl]
    _ = d.significant ++ List.replicate _ '0' := by
        rw [← List.eq_replicate_of_mem hzeros, List.eq_replicate_of_mem hzeros, List.reverse_replicate]

theorem digits_significant (d : Decimal) : Digits d.significant := by
  obtain ⟨k, hk⟩ := d.exists_decimalDigits_eq
  exact fun c hc => digits_decimalDigits d.coefficient c (hk ▸ List.mem_append_left _ hc)

theorem readFloat?_write (l : Layout) (negative : Bool) {d : Decimal} (hd : d.coefficient ≠ 0) :
    readFloat? (String.ofList (signed negative (l.write d.significant (d.magnitude - 1))))
      = some (d.toBinary64 negative) := by
  obtain ⟨k, hk⟩ := d.exists_decimalDigits_eq
  have hvalue : d.coefficient = valueOf d.significant * 10 ^ k := by
    rw [← valueOf_append_zeros, ← hk, valueOf_decimalDigits]
  have hne : d.significant ≠ [] := by
    intro hnil
    rw [hnil] at hvalue
    exact hd (hvalue.trans (Nat.zero_mul _))
  have hlength : (decimalDigits d.coefficient).length = d.significant.length + k := by
    rw [hk, List.length_append, List.length_replicate]
  have hexponent : d.magnitude - 1 + 1 - d.significant.length = d.exponent + k := by
    rw [magnitude, hlength]
    omega
  rw [Layout.readFloat?_write l negative d.digits_significant hne, hexponent, ← toBinary64_scale, ← hvalue]

end Decimal

/-! ## binary64 numbers -/

namespace Binary64

theorem getD_find? {α : Type} {p : α → Bool} {a : α} (l : List α) (ha : p a = true) :
    p ((l.find? p).getD a) = true := by
  cases h : l.find? p with
  | none => exact ha
  | some b => exact List.find?_some h

/-- The exact decimal is given by a variable here: nothing is to evaluate its coefficient. -/
theorem exists_shortest_eq (negative : Bool) {u : Nat} {e : Decimal} (he : exact u = e) :
    ∃ tries : List Decimal, shortest negative u
      = (tries.find? fun d => decide (d.toBinary64 negative = ofUlps negative u)).getD e := by
  unfold shortest
  rw [he]
  exact ⟨_, rfl⟩

/-- Whichever decimal is taken, it reads back. -/
theorem toBinary64_shortest {negative : Bool} {u : Nat} (hu : u ≠ 0) (h : Representable u) :
    (shortest negative u).toBinary64 negative = .finite negative u h := by
  obtain ⟨e, he⟩ : ∃ e, exact u = e := ⟨_, rfl⟩
  obtain ⟨tries, htries⟩ := exists_shortest_eq negative he
  have hexact : decide (e.toBinary64 negative = ofUlps negative u) = true := by
    rw [decide_eq_true_iff, ofUlps_of_representable h, ← he]
    exact Decimal.toBinary64_exact hu h
  have hfound := getD_find? (p := fun d : Decimal => decide (d.toBinary64 negative = ofUlps negative u))
    tries hexact
  rw [← htries, decide_eq_true_iff, ofUlps_of_representable h] at hfound
  exact hfound

theorem text_finite (negative : Bool) (u : Nat) (h : Representable u) :
    (finite negative u h).text = String.ofList (signed negative (magnitudeText negative u)) := by
  cases negative with
  | false =>
    rw [signed_false]
    rfl
  | true =>
    rw [signed_true]
    rfl

theorem readFloat?_text_finite (negative : Bool) (u : Nat) (h : Representable u) :
    readFloat? (finite negative u h).text = some (.finite negative u h) := by
  rw [text_finite, magnitudeText]
  obtain ⟨d, hd⟩ : ∃ d, shortest negative u = d := ⟨_, rfl⟩
  split
  next hu =>
    subst hu
    have hzero : Digits ['0'] := digits_zeros 1
    have hvalue : valueOf (['0'] ++ ['0']) = 0 := rfl
    have hread := Layout.readFloat?_point negative hzero (by decide) hzero
    rw [hvalue, Decimal.toBinary64_zero] at hread
    exact hread
  next hu =>
    have hread : d.toBinary64 negative = .finite negative u h := hd ▸ toBinary64_shortest hu h
    have hne : d.coefficient ≠ 0 := by
      intro hzero
      rw [Decimal.toBinary64_eq, if_pos hzero, zero] at hread
      cases hread
      exact hu rfl
    rw [hd, ← hread]
    exact Decimal.readFloat?_write .standard negative hne

/-- The text of a number is read back as the number, the sign of a zero included. -/
theorem readFloat?_text (x : Binary64) : readFloat? x.text = some x := by
  match x with
  | .nan => rfl
  | .infinite false => rfl
  | .infinite true => rfl
  | .finite negative u h => exact readFloat?_text_finite negative u h

theorem text_injective {x y : Binary64} (h : x.text = y.text) : x = y := by
  have hread : some x = some y := by rw [← readFloat?_text, h, readFloat?_text]
  exact Option.some.inj hread

end Binary64

/-! ## integers -/

namespace Numeral

theorem toString_eq (n : Int) :
    toString n = String.ofList (signed (decide (n < 0)) (decimalDigits n.natAbs)) := by
  rw [Int.toString_eq_repr]
  cases n with
  | ofNat m => exact Nat.repr_eq_ofList_toDigits
  | negSucc m =>
    have hneg : decide (Int.negSucc m < 0) = true := decide_eq_true (Int.negSucc_lt_zero m)
    show "-" ++ (m + 1).repr = _
    rw [hneg, signed_true, Nat.repr_eq_ofList_toDigits, String.ofList_cons]
    rfl

theorem writeInt_eq_ok_iff {n : Int} {t : String} :
    writeInt n = .ok t ↔ (decimalDigits n.natAbs).length ≤ digitLimit ∧ t = toString n := by
  have htext : String.ofList (if n < 0 then '-' :: decimalDigits n.natAbs
      else decimalDigits n.natAbs) = toString n := by
    rw [toString_eq, signed]
    simp only [decide_eq_true_eq]
  rw [writeInt, ← Nat.not_lt]
  by_cases h : digitLimit < (decimalDigits n.natAbs).length
  · rw [if_pos h]
    exact iff_of_false nofun fun hle => hle.1 h
  · rw [if_neg h, htext]
    exact ⟨fun ht => ⟨h, (Except.ok.inj ht).symm⟩, fun ht => congrArg _ ht.2.symm⟩

/-- The numeral of an integer is read back as that integer. -/
theorem readInt_toString {n : Int} (h : (decimalDigits n.natAbs).length ≤ digitLimit) :
    readInt (toString n) = .ok n := by
  rw [toString_eq, readInt_signed _ (digits_decimalDigits _) (decimalDigits_ne_nil _) h,
    valueOf_decimalDigits]
  simp only [decide_eq_true_eq]
  congr 1
  split <;> omega

theorem writeInt_injective {n k : Int} {t : String} (hn : writeInt n = .ok t)
    (hk : writeInt k = .ok t) : n = k := by
  obtain ⟨hshort, rfl⟩ := writeInt_eq_ok_iff.mp hn
  obtain ⟨hshort', htext⟩ := writeInt_eq_ok_iff.mp hk
  have hread : (.ok n : Except Fault Int) = .ok k := by
    rw [← readInt_toString hshort, htext, readInt_toString hshort']
  exact Except.ok.inj hread

/-- As a binary64 it is read as the nearest one of that integer. -/
theorem readFloat?_toString (n : Int) :
    readFloat? (toString n) = some (Decimal.toBinary64 (decide (n < 0)) ⟨n.natAbs, 0⟩) := by
  have hfraction : fraction [] = (values [], []) := rfl
  have hread := readFloat?_signed (decide (n < 0)) (digits_decimalDigits n.natAbs)
    (decimalDigits_ne_nil _) stops_nil nofun hfraction rfl
  rw [List.append_nil, valueOf_decimalDigits] at hread
  rw [toString_eq]
  exact hread

end Numeral

/-! ## characters -/

namespace Binary64

theorem plain_magnitudeText (negative : Bool) (u : Nat) : Plain (magnitudeText negative u) := by
  rw [magnitudeText]
  obtain ⟨d, hd⟩ : ∃ d, shortest negative u = d := ⟨_, rfl⟩
  split
  next => exact (digits_zeros 1).plain.append ((digits_zeros 1).plain.cons (by decide))
  next =>
    rw [hd]
    exact Layout.plain_write .standard d.digits_significant (d.magnitude - 1)

theorem mark_mem_magnitudeText (negative : Bool) (u : Nat) :
    '.' ∈ magnitudeText negative u ∨ 'e' ∈ magnitudeText negative u := by
  rw [magnitudeText]
  obtain ⟨d, hd⟩ : ∃ d, shortest negative u = d := ⟨_, rfl⟩
  split
  next => exact .inl (by decide)
  next =>
    rw [hd]
    exact Layout.mark_mem_write .standard d.significant (d.magnitude - 1)

/-- The text of a number never begins like that of an excluded bound. -/
theorem not_mem_text (x : Binary64) : '(' ∉ x.text.toList := by
  match x with
  | .nan => decide
  | .infinite false => decide
  | .infinite true => decide
  | .finite negative u h =>
    intro hmem
    rw [text_finite, String.toList_ofList] at hmem
    obtain hdigit | hmark := (plain_magnitudeText negative u).signed negative _ hmem
    · exact absurd hdigit (by decide)
    · exact absurd hmark (by decide)

/-- A point, an exponent or a letter tells the text of a number from the numeral of an integer. -/
theorem exists_mem_text (x : Binary64) : ∃ c ∈ x.text.toList, c ∈ ['.', 'e', 'n'] := by
  match x with
  | .nan => exact ⟨'n', by decide, by decide⟩
  | .infinite false => exact ⟨'n', by decide, by decide⟩
  | .infinite true => exact ⟨'n', by decide, by decide⟩
  | .finite negative u h =>
    rw [text_finite, String.toList_ofList]
    obtain hpoint | hletter := mark_mem_magnitudeText negative u
    · exact ⟨'.', mem_signed negative hpoint, by decide⟩
    · exact ⟨'e', mem_signed negative hletter, by decide⟩

end Binary64

namespace Numeral

theorem mem_toString {n : Int} {c : Char} (h : c ∈ (toString n).toList) :
    c = '-' ∨ c.isDigit = true := by
  rw [toString_eq, String.toList_ofList] at h
  cases hneg : decide (n < 0) with
  | false =>
    rw [hneg] at h
    exact .inr (digits_decimalDigits _ c h)
  | true =>
    rw [hneg] at h
    obtain rfl | h := List.mem_cons.mp h
    · exact .inl rfl
    · exact .inr (digits_decimalDigits _ c h)

theorem not_mem_writeInt {n : Int} {t : String} (h : writeInt n = .ok t) : '(' ∉ t.toList := by
  obtain ⟨-, rfl⟩ := writeInt_eq_ok_iff.mp h
  intro hmem
  obtain hsign | hdigit := mem_toString hmem
  · exact absurd hsign (by decide)
  · exact absurd hdigit (by decide)

/-- So no binary64 has the text of an integer. -/
theorem writeInt_ne_text (n : Int) (x : Binary64) : writeInt n ≠ .ok x.text := by
  intro h
  obtain ⟨-, htext⟩ := writeInt_eq_ok_iff.mp h
  obtain ⟨c, hc, hmark⟩ := x.exists_mem_text
  obtain rfl | hdigit := mem_toString (htext ▸ hc)
  · exact absurd hmark (by decide)
  · have hmarks : ['.', 'e', 'n'].all (·.isDigit == false) = true := by decide
    have hletter : c.isDigit = false := eq_of_beq (List.all_eq_true.mp hmarks c hmark)
    rw [hletter] at hdigit
    cases hdigit

end Numeral

end FullText

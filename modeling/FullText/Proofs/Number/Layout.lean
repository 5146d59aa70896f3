import FullText.Number.Shortest
import FullText.Proofs.Number.Rounding

/-!
# The two notations of a decimal

* `Layout.readFloat?_positional`, `Layout.readFloat?_withExponent`, `Layout.readFloat?_write`  digits in
                                 either notation are read as the number that they were written for;
* `Layout.plain_write`           they are written with digits, signs, points and the letter `e`;
* `Layout.mark_mem_write`        and there is a point or that letter.
-/

namespace FullText

open Numeral

namespace Layout

variable {ds : List Char}

/-! ## reading -/

/-- a whole part and a fraction behind a point -/
theorem readFloat?_point {whole part : List Char} (negative : Bool) (hw : Digits whole)
    (hne : whole ≠ []) (hp : Digits part) :
    readFloat? (String.ofList (signed negative (whole ++ '.' :: part)))
      = some (Decimal.toBinary64 negative ⟨valueOf (whole ++ part), -part.length⟩) := by
  have hfraction : fraction ('.' :: part) = (values part, []) := digitRun_digits hp
  have hread := readFloat?_signed negative hw hne (stops_cons (by decide) (by decide))
    (hp.plain.cons (by decide)) hfraction rfl
  rwa [zero_sub] at hread

/-- All digits are in front of the point, with zeros up to it, and a zero is put behind it. -/
theorem positional_padded {n : Nat} (hlen : ds.length ≤ n + 1) :
    positional ds (.ofNat n) = (ds ++ List.replicate (n + 1 - ds.length) '0') ++ '.' :: ['0'] := by
  have hdrop : (ds.drop (n + 1)).isEmpty = true := by
    rw [List.drop_eq_nil_of_le hlen]
    rfl
  rw [positional, List.take_of_length_le hlen, if_pos hdrop]

/-- The digits go on behind the point. -/
theorem positional_split {n : Nat} (hlen : n + 1 < ds.length) :
    positional ds (.ofNat n) = ds.take (n + 1) ++ '.' :: ds.drop (n + 1) := by
  have hdrop : ¬ (ds.drop (n + 1)).isEmpty = true := by
    rw [List.isEmpty_iff, List.drop_eq_nil_iff]
    omega
  rw [positional, Nat.sub_eq_zero_of_le (by omega), List.replicate_zero, List.append_nil, if_neg hdrop]

/-- In positional notation the last digit has the exponent that the digits leave for it. -/
theorem readFloat?_positional (negative : Bool) (hd : Digits ds) (hne : ds ≠ []) (e : Int) :
    readFloat? (String.ofList (signed negative (positional ds e)))
      = some (Decimal.toBinary64 negative ⟨valueOf ds, e + 1 - ds.length⟩) := by
  cases e with
  | negSucc k =>
    have hread := readFloat?_point negative (digits_zeros 1) (by decide) ((digits_zeros k).append hd)
    have hvalue : valueOf (List.replicate 1 '0' ++ (List.replicate k '0' ++ ds)) = valueOf ds := by
      rw [valueOf_zeros_append, valueOf_zeros_append]
    have hexponent : -((List.replicate k '0' ++ ds).length : Int) = Int.negSucc k + 1 - ds.length := by
      rw [List.length_append, List.length_replicate]
      omega
    rw [hvalue, hexponent] at hread
    exact hread
  | ofNat n =>
    have hcast : Int.ofNat n = (n : Int) := rfl
    by_cases hlen : ds.length ≤ n + 1
    · have hvalue : valueOf (ds ++ List.replicate (n + 1 - ds.length) '0' ++ ['0'])
          = valueOf ds * 10 ^ (n + 1 - ds.length + 1) := by
        rw [List.append_assoc, ← List.replicate_succ', valueOf_append_zeros]
      have hexponent : -(['0'].length : Int) + (n + 1 - ds.length + 1 : Nat)
          = Int.ofNat n + 1 - ds.length := by
        rw [hcast, List.length_singleton]
        omega
      have hzero : Digits ['0'] := digits_zeros 1
      rw [positional_padded hlen, readFloat?_point negative (hd.append (digits_zeros _))
        (by simp [hne]) hzero, hvalue, Decimal.toBinary64_scale, ← hexponent]
    · have hexponent : -((ds.drop (n + 1)).length : Int) = Int.ofNat n + 1 - ds.length := by
        rw [hcast, List.length_drop]
        omega
      rw [positional_split (Nat.lt_of_not_le hlen), readFloat?_point negative (hd.take _)
        (by simp [hne]) (hd.drop _), List.take_append_drop, hexponent]

theorem plain_exponentText (width : Nat) (e : Int) : Plain (exponentText width e) := by
  have hdigits : Plain (List.replicate (width - (decimalDigits e.natAbs).length) '0'
      ++ decimalDigits e.natAbs) := ((digits_zeros _).append (digits_decimalDigits _)).plain
  unfold exponentText
  split
  next => exact hdigits.cons (by decide)
  next => exact hdigits.cons (by decide)

theorem exponent?_exponentText (width : Nat) (e : Int) :
    exponent? ('e' :: exponentText width e) = some e := by
  obtain ⟨body, hbody⟩ : ∃ body, body
      = List.replicate (width - (decimalDigits e.natAbs).length) '0' ++ decimalDigits e.natAbs :=
    ⟨_, rfl⟩
  have hdigits : Digits body := hbody ▸ (digits_zeros _).append (digits_decimalDigits _)
  have hvalue : ofDigits (values body) = e.natAbs := by
    rw [ofDigits_values, hbody, valueOf_zeros_append, valueOf_decimalDigits]
  have hne : values body ≠ [] := by
    intro hnil
    have hempty : body = [] := List.map_eq_nil_iff.mp hnil
    rw [hempty] at hbody
    exact decimalDigits_ne_nil _ (List.append_eq_nil_iff.mp hbody.symm).2
  obtain ⟨d, ds, hds⟩ := List.exists_cons_of_ne_nil hne
  have hrun : digitRun body = (d :: ds, []) := hds ▸ digitRun_digits hdigits
  rw [hds] at hvalue
  by_cases hneg : e < 0
  · have htext : exponentText width e = '-' :: body := by
      rw [exponentText, if_pos hneg, ← hbody]
    rw [htext, exponent?, if_pos (.inl rfl)]
    simp only [sign, hrun, hvalue, if_true]
    congr 1
    omega
  · have htext : exponentText width e = '+' :: body := by
      rw [exponentText, if_neg hneg, ← hbody]
    rw [htext, exponent?, if_pos (.inl rfl)]
    simp only [sign, hrun, hvalue, Bool.false_eq_true, if_false]
    congr 1
    omega

theorem readFloat?_withExponent (negative : Bool) (width : Nat) (hd : Digits ds) (hne : ds ≠ [])
    (e : Int) :
    readFloat? (String.ofList (signed negative (withExponent width ds e)))
      = some (Decimal.toBinary64 negative ⟨valueOf ds, e + 1 - ds.length⟩) := by
  obtain ⟨c, cs, rfl⟩ := List.exists_cons_of_ne_nil hne
  have hcs : Digits cs := fun d hm => hd d (List.mem_cons_of_mem c hm)
  have hfirst : Digits [c] := List.forall_mem_singleton.mpr (hd c List.mem_cons_self)
  obtain ⟨ex, hex⟩ : ∃ ex, ex = 'e' :: exponentText width e := ⟨_, rfl⟩
  have hstop : Stops ex := hex ▸ stops_cons (by decide) (by decide)
  have hplain : Plain ex := hex ▸ (plain_exponentText width e).cons (by decide)
  have hread : exponent? ex = some e := hex ▸ exponent?_exponentText width e
  have hlast : e - (cs.length : Int) = e + 1 - ((c :: cs).length : Int) := by
    rw [List.length_cons]
    omega
  rw [← hlast]
  by_cases hlen : cs = []
  · subst hlen
    have hfraction : fraction ex = (values [], ex) := by
      rw [hex]
      rfl
    have hall := readFloat?_signed negative hfirst (by simp) hstop hplain hfraction hread
    rw [hex] at hall
    exact hall
  · have hfraction : fraction ('.' :: (cs ++ ex)) = (values cs, ex) := digitRun_append hcs hstop
    have hall := readFloat?_signed negative hfirst (by simp) (stops_cons (by decide) (by decide))
      ((hcs.plain.append hplain).cons (by decide)) hfraction hread
    have hlong : ¬ (c :: cs).length ≤ 1 := by
      have hpos := List.length_pos_iff.mpr hlen
      rw [List.length_cons]
      omega
    have htext : withExponent width (c :: cs) e = [c] ++ '.' :: (cs ++ ex) := by
      rw [withExponent, if_neg hlong, hex]
      rfl
    rw [htext]
    exact hall

theorem readFloat?_write (l : Layout) (negative : Bool) (hd : Digits ds) (hne : ds ≠ []) (e : Int) :
    readFloat? (String.ofList (signed negative (l.write ds e)))
      = some (Decimal.toBinary64 negative ⟨valueOf ds, e + 1 - ds.length⟩) := by
  rw [write]
  split
  next => exact readFloat?_positional negative hd hne e
  next => exact readFloat?_withExponent negative l.width hd hne e

/-! ## characters -/

theorem plain_write (l : Layout) (hd : Digits ds) (e : Int) : Plain (l.write ds e) := by
  rw [write]
  split
  next =>
    cases e with
    | negSucc k =>
      exact (digits_zeros 1).plain.append (((digits_zeros k).append hd).plain.cons (by decide))
    | ofNat n =>
      refine ((hd.take _).append (digits_zeros _)).plain.append (Plain.cons (by decide) ?_)
      split
      next => exact (digits_zeros 1).plain
      next => exact (hd.drop _).plain
  next =>
    refine ((hd.take _).plain.append ?_).append ((plain_exponentText l.width e).cons (by decide))
    split
    next => exact nofun
    next => exact (hd.drop _).plain.cons (by decide)

/-- There is a point or an exponent. -/
theorem mark_mem_write (l : Layout) (ds : List Char) (e : Int) :
    '.' ∈ l.write ds e ∨ 'e' ∈ l.write ds e := by
  rw [write]
  split
  next =>
    refine .inl ?_
    cases e with
    | negSucc k => exact List.mem_cons_of_mem _ List.mem_cons_self
    | ofNat n => exact List.mem_append_right _ List.mem_cons_self
  next => exact .inr (List.mem_append_right _ List.mem_cons_self)

end Layout

end FullText

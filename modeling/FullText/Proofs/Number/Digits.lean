import FullText.Number.Numeral
import FullText.Proofs.Text.Trim
import Mathlib.Algebra.Order.Ring.Nat

/-!
# Numerals that are read again

* `Numeral.Digits cs`         nothing but digits of ASCII, and `Numeral.valueOf cs` what they are worth;
* `Numeral.Plain cs`          digits, signs, points and the letter `e`: no space, no mark of a bound;
* `Numeral.signed negative cs`  a minus in front, if there is to be one;
* `readFloat?_signed`         what a text with whole part, fraction and exponent is read as;
* `readInt_signed`            what digits are read as.

The two readers find the parts of a numeral by what comes next, so a part ends where something follows
that cannot belong to it.
-/

namespace FullText

namespace Text

theorem isDigit_iff {c : Char} : c.isDigit = true ↔ 48 ≤ c.toNat ∧ c.toNat ≤ 57 := by
  rw [Char.isDigit, Bool.and_eq_true, decide_eq_true_iff, decide_eq_true_iff]
  exact Iff.rfl

theorem digitValue?_of_isDigit {c : Char} (h : c.isDigit = true) :
    digitValue? c = some (c.toNat - 48) := by
  obtain ⟨hlow, hhigh⟩ := isDigit_iff.mp h
  have hfirst : decide (0x30 ≤ c.toNat ∧ c.toNat ≤ 0x30 + 9) = true := by
    rw [decide_eq_true_iff]
    omega
  obtain ⟨others, hzeros⟩ : ∃ others, zeros = 0x30 :: others := ⟨_, rfl⟩
  have hfind : zeros.find? (fun z => decide (z ≤ c.toNat ∧ c.toNat ≤ z + 9)) = some 0x30 := by
    rw [hzeros]
    exact List.find?_cons_of_pos hfirst
  rw [digitValue?, hfind]
  rfl

end Text

namespace Numeral

/-! ## digits -/

/-- nothing but digits of ASCII -/
def Digits (cs : List Char) : Prop := ∀ c ∈ cs, c.isDigit = true

/-- what digits are worth, the first one the most significant -/
def valueOf (cs : List Char) : Nat := Nat.ofDigitChars 10 cs 0

/-- the digits one by one -/
def values (cs : List Char) : List Nat := cs.map fun c => c.toNat - 48

theorem length_values (cs : List Char) : (values cs).length = cs.length := List.length_map _

theorem values_append (cs ds : List Char) : values (cs ++ ds) = values cs ++ values ds :=
  List.map_append

theorem ofDigits_values (cs : List Char) : ofDigits (values cs) = valueOf cs := by
  rw [ofDigits, values, List.foldl_map]
  rfl

/-- Zeros in front do not count. -/
theorem valueOf_zeros_append (k : Nat) (cs : List Char) :
    valueOf (List.replicate k '0' ++ cs) = valueOf cs := by
  rw [valueOf, Nat.ofDigitChars_append, Nat.ofDigitChars_replicate_zero, Nat.mul_zero]
  rfl

/-- Every zero behind is a factor of ten. -/
theorem valueOf_append_zeros (cs : List Char) (k : Nat) :
    valueOf (cs ++ List.replicate k '0') = valueOf cs * 10 ^ k := by
  rw [valueOf, Nat.ofDigitChars_append, Nat.ofDigitChars_replicate_zero, Nat.mul_comm]
  rfl

theorem Digits.append {cs ds : List Char} (hc : Digits cs) (hd : Digits ds) : Digits (cs ++ ds) :=
  List.forall_mem_append.mpr ⟨hc, hd⟩

theorem Digits.take {cs : List Char} (h : Digits cs) (n : Nat) : Digits (cs.take n) :=
  fun c hc => h c (List.mem_of_mem_take hc)

theorem Digits.drop {cs : List Char} (h : Digits cs) (n : Nat) : Digits (cs.drop n) :=
  fun c hc => h c (List.mem_of_mem_drop hc)

theorem digits_zeros (k : Nat) : Digits (List.replicate k '0') := by
  intro c hc
  rw [List.eq_of_mem_replicate hc]
  decide

theorem digits_decimalDigits (n : Nat) : Digits (decimalDigits n) := fun _ hc =>
  Nat.isDigit_of_mem_toDigits (by decide) (by decide) hc

theorem valueOf_decimalDigits (n : Nat) : valueOf (decimalDigits n) = n :=
  Nat.ofDigitChars_ten_toDigits

theorem decimalDigits_ne_nil (n : Nat) : decimalDigits n ≠ [] := Nat.toDigits_ne_nil

/-- A factor of ten is a zero behind. -/
theorem decimalDigits_mul_pow {n : Nat} (hn : n ≠ 0) (k : Nat) :
    decimalDigits (n * 10 ^ k) = decimalDigits n ++ List.replicate k '0' := by
  induction k with
  | zero => rw [Nat.pow_zero, Nat.mul_one, List.replicate_zero, List.append_nil]
  | succ k ih =>
    have hpos : 0 < n * 10 ^ k := Nat.mul_pos (Nat.pos_of_ne_zero hn) (Nat.pow_pos (by decide))
    have hstep := Nat.toDigits_append_toDigits (b := 10) (by decide) hpos (by decide : 0 < 10)
    rw [Nat.pow_succ, ← Nat.mul_assoc, Nat.mul_comm _ 10, List.replicate_succ', ← List.append_assoc,
      ← ih]
    exact hstep.symm

theorem length_decimalDigits_le_iff {n k : Nat} (hk : 0 < k) :
    (decimalDigits n).length ≤ k ↔ n < 10 ^ k :=
  Nat.length_toDigits_le_iff (by decide) hk

/-! ## runs of digits -/

/-- what follows is no digit, and does not go on with one -/
def Stops (rest : List Char) : Prop :=
  ∀ c, rest.head? = some c → Text.digitValue? c = none ∧ c ≠ '_'

theorem stops_nil : Stops [] := nofun

theorem stops_cons {c : Char} {cs : List Char} (hd : Text.digitValue? c = none) (hc : c ≠ '_') :
    Stops (c :: cs) := by
  intro c' h
  cases h
  exact ⟨hd, hc⟩

theorem digitsFrom_append {cs rest : List Char} (after : Bool) (h : Digits cs) (hr : Stops rest) :
    digitsFrom after (cs ++ rest) = (values cs, rest) := by
  induction cs generalizing after with
  | nil =>
    cases rest with
    | nil => rfl
    | cons c rest =>
      obtain ⟨hd, hc⟩ := hr c rfl
      have hline : (decide (c = '_') && after && (rest.head?.bind Text.digitValue?).isSome) = false := by
        rw [decide_eq_false hc]
        rfl
      rw [List.nil_append, digitsFrom, hd]
      simp only [hline, Bool.false_eq_true, if_false]
      rfl
  | cons c cs ih =>
    obtain ⟨hc, hcs⟩ := List.forall_mem_cons.mp h
    rw [List.cons_append, digitsFrom, Text.digitValue?_of_isDigit hc]
    simp only [ih true hcs]
    rfl

theorem digitRun_append {cs rest : List Char} (h : Digits cs) (hr : Stops rest) :
    digitRun (cs ++ rest) = (values cs, rest) := digitsFrom_append false h hr

theorem digitRun_digits {cs : List Char} (h : Digits cs) : digitRun cs = (values cs, []) := by
  have hrun := digitRun_append h stops_nil
  rwa [List.append_nil] at hrun

/-! ## signs and space -/

/-- digits, signs, points and the letter of an exponent -/
def Plain (cs : List Char) : Prop := ∀ c ∈ cs, c.isDigit = true ∨ c ∈ ['-', '+', '.', 'e']

theorem Digits.plain {cs : List Char} (h : Digits cs) : Plain cs := fun c hc => .inl (h c hc)

theorem Plain.append {cs ds : List Char} (hc : Plain cs) (hd : Plain ds) : Plain (cs ++ ds) :=
  List.forall_mem_append.mpr ⟨hc, hd⟩

theorem Plain.cons {c : Char} {cs : List Char} (hc : c ∈ ['-', '+', '.', 'e']) (h : Plain cs) :
    Plain (c :: cs) :=
  List.forall_mem_cons.mpr ⟨.inr hc, h⟩

theorem Plain.isWhite {cs : List Char} (h : Plain cs) : ∀ c ∈ cs, Text.isWhite c = false := by
  intro c hc
  obtain hdigit | hmark := h c hc
  · obtain ⟨hlow, hhigh⟩ := Text.isDigit_iff.mp hdigit
    simp only [Text.isWhite, Bool.or_eq_false_iff, Bool.and_eq_false_iff, decide_eq_false_iff_not,
      beq_eq_false_iff_ne]
    omega
  · have hmarks : ['-', '+', '.', 'e'].all (Text.isWhite · == false) = true := by decide
    exact eq_of_beq (List.all_eq_true.mp hmarks c hmark)

/-- a minus in front, if there is to be one -/
def signed (negative : Bool) (cs : List Char) : List Char := if negative then '-' :: cs else cs

theorem signed_false (cs : List Char) : signed false cs = cs := rfl

theorem signed_true (cs : List Char) : signed true cs = '-' :: cs := rfl

theorem mem_signed {c : Char} {cs : List Char} (negative : Bool) (h : c ∈ cs) :
    c ∈ signed negative cs := by
  cases negative with
  | false => exact h
  | true => exact List.mem_cons_of_mem '-' h

theorem Plain.signed {cs : List Char} (negative : Bool) (h : Plain cs) : Plain (signed negative cs) := by
  cases negative with
  | false => exact h
  | true => exact h.cons (by decide)

theorem sign_signed {c : Char} (negative : Bool) (cs : List Char) (hc : c.isDigit = true) :
    sign (signed negative (c :: cs)) = (negative, c :: cs) := by
  cases negative with
  | true => rfl
  | false =>
    show sign (c :: cs) = _
    unfold sign
    split
    next h =>
      cases h
      exact absurd hc (by decide)
    next h =>
      cases h
      exact absurd hc (by decide)
    next => rfl

/-! ## the readers -/

variable {whole part rest ex : List Char} {e : Int}

theorem toLower_of_isDigit {c : Char} (h : c.isDigit = true) : c.toLower = c := by
  obtain ⟨-, hhigh⟩ := Text.isDigit_iff.mp h
  refine dif_neg fun hupper => ?_
  have hlow : 65 ≤ c.toNat := hupper.1
  omega

theorem word?_of_head {cs : List Char} (negative : Bool) (hi : cs.head? ≠ some 'i')
    (hn : cs.head? ≠ some 'n') : word? negative cs = none := by
  unfold word?
  split
  next => exact absurd rfl hi
  next => exact absurd rfl hi
  next => exact absurd rfl hn
  next => rfl

/-- The words begin with a letter. -/
theorem word?_of_isDigit {c : Char} (negative : Bool) (cs : List Char) (hc : c.isDigit = true) :
    word? negative ((c :: cs).map Char.toLower) = none := by
  have hne : ∀ d : Char, d.isDigit = false → ((c :: cs).map Char.toLower).head? ≠ some d := by
    intro d hd h
    rw [List.map_cons, List.head?_cons, toLower_of_isDigit hc, Option.some.injEq] at h
    rw [← h, hc] at hd
    cases hd
  exact word?_of_head negative (hne 'i' (by decide)) (hne 'n' (by decide))

/-- A text with a whole part, a fraction and an exponent is read as its digits, with the exponent less
    the length of the fraction. -/
theorem readFloat?_signed (negative : Bool) (hw : Digits whole) (hne : whole ≠ [])
    (hstop : Stops rest) (hp : Plain rest) (hf : fraction rest = (values part, ex))
    (he : exponent? ex = some e) :
    readFloat? (String.ofList (signed negative (whole ++ rest)))
      = some (Decimal.toBinary64 negative ⟨valueOf (whole ++ part), e - part.length⟩) := by
  have htrim : Text.trim Text.isWhite (signed negative (whole ++ rest))
      = signed negative (whole ++ rest) :=
    Text.trim_of_free ((hw.plain.append hp).signed negative).isWhite
  obtain ⟨c, cs, rfl⟩ := List.exists_cons_of_ne_nil hne
  have hc : c.isDigit = true := hw c List.mem_cons_self
  have hsign : sign (signed negative ((c :: cs) ++ rest)) = (negative, (c :: cs) ++ rest) :=
    sign_signed negative (cs ++ rest) hc
  have hword : word? negative (((c :: cs) ++ rest).map Char.toLower) = none :=
    word?_of_isDigit negative (cs ++ rest) hc
  have hsome : (values (c :: cs)).isEmpty = false := rfl
  rw [readFloat?, String.toList_ofList, htrim, hsign]
  simp only [hword, digitRun_append hw hstop, hf, he, hsome, Bool.false_and, Bool.false_eq_true,
    if_false, Option.map_some, ← values_append, ofDigits_values, length_values]

/-- Digits are read as the integer that they are. -/
theorem readInt_signed (negative : Bool) (hw : Digits whole) (hne : whole ≠ [])
    (hlen : whole.length ≤ digitLimit) :
    readInt (String.ofList (signed negative whole))
      = .ok (if negative then -(valueOf whole : Int) else valueOf whole) := by
  have htrim : Text.trim Text.isWhite (signed negative whole) = signed negative whole :=
    Text.trim_of_free (hw.plain.signed negative).isWhite
  obtain ⟨c, cs, rfl⟩ := List.exists_cons_of_ne_nil hne
  have hsign : sign (signed negative (c :: cs)) = (negative, c :: cs) :=
    sign_signed negative cs (hw c List.mem_cons_self)
  have hsome : (values (c :: cs)).isEmpty = false := rfl
  rw [readInt, String.toList_ofList, htrim, hsign]
  simp only [digitRun_digits hw, hsome, length_values, Nat.not_lt_of_le hlen, ofDigits_values]
  rfl

end Numeral

end FullText

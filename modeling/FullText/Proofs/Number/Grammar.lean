import FullText.Number.Numeral
import FullText.Proofs.Outcome
import FullText.Proofs.Text.Trim

/-!
# The grammar of numerals

* `Numeral.Run body ds`      digits of any script, with at most one `_` between two, and their values;
* `Numeral.Sign mark negative`  a sign or none, and is it a minus;
* `Numeral.Spelled p cs n`   a sign and a run of digits that are worth `n`, with characters of `p` around;
* `Numeral.Zero p cs`        the same with nothing but zeros;
* `digitRun_eq_iff`          the reader of runs reads these, and no others, to their end;
* `readInt_eq_ok_iff`        integers are read from the texts that spell them, with white space around;
* `spelled_zero_iff`         zero is spelled by zeros alone;
* `Reads read`               a reader of numbers skips white space, and there is no space inside of one;
* `Reads.strip_eq_some_iff`  so it does not matter which space is taken away before it reads;
* `spelled_iff_strip`        with any space around, a text spells what is read when it is stripped.

A text may be stripped of more space than the readers skip themselves.  That it is still the same number
is due to what is inside: no digit, sign, point or letter of a number is space.
-/

namespace FullText

open Text (Only Free isSpace isWhite digitValue?)

namespace Numeral

/-! ## runs of digits -/

/-- digits of any script, with at most one `_` between two of them, and their values one by one -/
inductive Run : List Char → List Nat → Prop where
  | one {c : Char} {d : Nat} (digit : digitValue? c = some d) : Run [c] [d]
  | next {c : Char} {d : Nat} {cs : List Char} {ds : List Nat} (digit : digitValue? c = some d)
    (rest : Run cs ds) : Run (c :: cs) (d :: ds)
  | line {c : Char} {d : Nat} {cs : List Char} {ds : List Nat} (digit : digitValue? c = some d)
    (rest : Run cs ds) : Run (c :: '_' :: cs) (d :: ds)

variable {c : Char} {d : Nat} {cs body mark : List Char} {ds : List Nat} {after negative : Bool}

theorem Run.head (h : Run cs ds) : ∃ c d, cs.head? = some c ∧ digitValue? c = some d := by
  cases h with
  | one digit | next digit | line digit => exact ⟨_, _, rfl, digit⟩

theorem Run.head_ne (h : Run cs ds) (hc : digitValue? c = none) : cs.head? ≠ some c := by
  obtain ⟨c', d, hhead, hd⟩ := h.head
  rw [hhead]
  rintro ⟨⟩
  rw [hc] at hd
  cases hd

theorem Run.ne_nil (h : Run cs ds) : ds ≠ [] := by
  cases h with
  | one | next | line => exact List.cons_ne_nil _ _

theorem digitsFrom_digit (after : Bool) (h : digitValue? c = some d) (cs : List Char) :
    digitsFrom after (c :: cs) = (d :: (digitsFrom true cs).1, (digitsFrom true cs).2) := by
  rw [digitsFrom, h]

/-- What is no digit ends the run, unless it is a `_` between two. -/
theorem digitsFrom_other (after : Bool) (h : digitValue? c = none) (cs : List Char) :
    digitsFrom after (c :: cs) = ([], c :: cs)
      ∨ c = '_' ∧ after = true ∧ cs ≠ [] ∧ digitsFrom after (c :: cs) = digitsFrom false cs := by
  rw [digitsFrom, h]
  by_cases hline : (decide (c = '_') && after && (cs.head?.bind digitValue?).isSome) = true
  · right
    rw [if_pos hline]
    simp only [Bool.and_eq_true, decide_eq_true_eq] at hline
    obtain ⟨⟨hc, hafter⟩, hnext⟩ := hline
    refine ⟨hc, hafter, ?_, rfl⟩
    rintro rfl
    cases hnext
  · exact .inl (if_neg hline)

theorem run_of_digitsFrom (h : digitsFrom after cs = (ds, [])) :
    (cs = [] ∧ ds = []) ∨ Run cs ds ∨ after = true ∧ ∃ cs', cs = '_' :: cs' ∧ Run cs' ds := by
  induction cs generalizing after ds with
  | nil =>
    cases h
    exact .inl ⟨rfl, rfl⟩
  | cons c cs ih =>
    right
    cases hc : digitValue? c with
    | some d =>
      rw [digitsFrom_digit after hc] at h
      obtain ⟨rfl, hrest⟩ := Prod.mk.inj h
      obtain ⟨rfl, -⟩ | hrun | ⟨-, cs', rfl, hrun⟩ := ih (Prod.ext rfl hrest)
      · exact .inl (.one hc)
      · exact .inl (.next hc hrun)
      · exact .inl (.line hc hrun)
    | none =>
      obtain hend | ⟨rfl, rfl, hne, hline⟩ := digitsFrom_other after hc cs
      · rw [hend] at h
        cases h
      · rw [hline] at h
        obtain ⟨hnil, -⟩ | hrun | ⟨hfalse, -⟩ := ih h
        · exact absurd hnil hne
        · exact .inr ⟨rfl, cs, rfl, hrun⟩
        · cases hfalse

theorem Run.digitsFrom_eq (h : Run cs ds) (after : Bool) : digitsFrom after cs = (ds, []) := by
  induction h generalizing after with
  | one digit => rw [digitsFrom_digit after digit, digitsFrom]
  | next digit _ ih => rw [digitsFrom_digit after digit, ih true]
  | @line _ _ cs _ digit rest ih =>
    obtain ⟨c, d, hc, hd⟩ := rest.head
    have hline : digitsFrom true ('_' :: cs) = digitsFrom false cs := by
      have hnone : digitValue? '_' = none := by decide
      rw [digitsFrom, hnone, hc]
      simp only [Option.bind_some, hd]
      rfl
    rw [digitsFrom_digit after digit, hline, ih false]

theorem digitRun_eq_iff : digitRun cs = (ds, []) ∧ ds ≠ [] ↔ Run cs ds := by
  constructor
  · rintro ⟨h, hne⟩
    obtain ⟨-, hnil⟩ | hrun | ⟨hfalse, -⟩ := run_of_digitsFrom h
    · exact absurd hnil hne
    · exact hrun
    · cases hfalse
  · exact fun h => ⟨h.digitsFrom_eq false, h.ne_nil⟩

/-! ## signs -/

/-- a sign or none, and is it a minus -/
inductive Sign : List Char → Bool → Prop where
  | absent : Sign [] false
  | plus : Sign ['+'] false
  | minus : Sign ['-'] true

theorem exists_sign (cs : List Char) : ∃ mark, Sign mark (sign cs).1 ∧ cs = mark ++ (sign cs).2 := by
  unfold sign
  split
  next => exact ⟨_, .minus, rfl⟩
  next => exact ⟨_, .plus, rfl⟩
  next => exact ⟨_, .absent, rfl⟩

/-- No sign is a digit. -/
theorem Sign.sign_append (h : Sign mark negative) (hrun : Run body ds) :
    sign (mark ++ body) = (negative, body) := by
  cases h with
  | plus | minus => rfl
  | absent =>
    rw [List.nil_append]
    unfold sign
    split
    next => exact absurd rfl (hrun.head_ne (by decide))
    next => exact absurd rfl (hrun.head_ne (by decide))
    next => rfl

/-! ## space -/

theorem not_isSpace_of_digit (h : digitValue? c = some d) : isSpace c = false := by
  obtain ⟨z, hz, -⟩ := Option.map_eq_some_iff.mp h
  have hfound := List.find?_some hz
  have hrange : z ≤ c.toNat ∧ c.toNat ≤ z + 9 := of_decide_eq_true hfound
  have hall : (Text.zeros.all fun z => (List.range 10).all fun k => !isSpace (Char.ofNat (z + k)))
      = true := by decide +kernel
  have hz' := List.all_eq_true.mp hall z (List.mem_of_find?_eq_some hz)
  have hk := List.all_eq_true.mp hz' (c.toNat - z) (List.mem_range.mpr (by omega))
  rw [Nat.add_sub_cancel' hrange.1, Char.ofNat_toNat] at hk
  exact Bool.not_eq_true' _ ▸ hk

theorem Sign.free (h : Sign mark negative) : Free isSpace mark := by
  cases h with
  | absent | plus | minus => decide

theorem Run.free (h : Run body ds) : Free isSpace body := by
  induction h with
  | one digit => exact .cons (not_isSpace_of_digit digit) Text.free_nil
  | next digit _ ih => exact .cons (not_isSpace_of_digit digit) ih
  | line digit _ ih => exact .cons (not_isSpace_of_digit digit) (.cons (by decide) ih)

/-! ## integers -/

/-- a text spells an integer: a sign or none and a run of digits, with characters of `p` around them -/
inductive Spelled (p : Char → Bool) (cs : List Char) (n : Int) : Prop where
  | mk {before mark body after : List Char} {negative : Bool} {ds : List Nat} (front : Only p before)
    (back : Only p after) (sign : Sign mark negative) (run : Run body ds)
    (short : ds.length ≤ digitLimit) (text : cs = before ++ (mark ++ body) ++ after)
    (worth : n = if negative then -(ofDigits ds : Int) else ofDigits ds) : Spelled p cs n

theorem Spelled.mono {p q : Char → Bool} {n : Int} (h : Spelled p cs n)
    (hpq : ∀ c ∈ cs, p c = true → q c = true) : Spelled q cs n := by
  obtain ⟨hb, ha, hmark, hrun, hshort, rfl, hn⟩ := h
  refine .mk (fun c hc => hpq c ?_ (hb c hc)) (fun c hc => hpq c ?_ (ha c hc)) hmark hrun hshort rfl
    hn
  · exact List.mem_append_left _ (List.mem_append_left _ hc)
  · exact List.mem_append_right _ hc

theorem readInt_eq_ok {s : String} {n : Int} :
    readInt s = .ok n ↔ ∃ negative body ds, sign (Text.trim isWhite s.toList) = (negative, body)
      ∧ Run body ds ∧ ds.length ≤ digitLimit
      ∧ n = if negative then -(ofDigits ds : Int) else ofDigits ds := by
  rw [readInt]
  obtain ⟨negative, body⟩ := sign (Text.trim isWhite s.toList)
  simp only [Prod.mk.injEq]
  constructor
  · intro h
    obtain ⟨⟨ds, rest⟩, hrun⟩ : ∃ r, r = digitRun body := ⟨_, rfl⟩
    rw [← hrun] at h
    simp only at h
    split at h
    next => cases h
    next hne =>
      split at h
      next => cases h
      next hshort =>
        split at h
        next => cases h
        next hrest =>
          obtain rfl : rest = [] := by simpa using hrest
          have hds : ds ≠ [] := by simpa using hne
          exact ⟨negative, body, ds, ⟨rfl, rfl⟩, digitRun_eq_iff.mp ⟨hrun.symm, hds⟩,
            Nat.le_of_not_lt hshort, (Except.ok.inj h).symm⟩
  · rintro ⟨negative, body, ds, ⟨rfl, rfl⟩, hrun, hshort, rfl⟩
    obtain ⟨hread, hne⟩ := digitRun_eq_iff.mpr hrun
    rw [hread]
    have hsome : ds.isEmpty = false := by simpa using hne
    simp only [hsome, Nat.not_lt_of_le hshort]
    rfl

/-- An integer is read from the texts that spell it, with white space around them. -/
theorem readInt_eq_ok_iff {s : String} {n : Int} :
    readInt s = .ok n ↔ Spelled isWhite s.toList n := by
  rw [readInt_eq_ok]
  constructor
  · rintro ⟨negative, body, ds, hsign, hrun, hshort, hn⟩
    obtain ⟨before, after, hb, ha, hs⟩ := Text.exists_eq_trim isWhite s.toList
    obtain ⟨mark, hmark, htrim⟩ := exists_sign (Text.trim isWhite s.toList)
    rw [hsign] at hmark htrim
    rw [htrim] at hs
    exact .mk hb ha hmark hrun hshort hs hn
  · rintro ⟨hb, ha, hmark, hrun, hshort, htext, hn⟩
    refine ⟨_, _, _, ?_, hrun, hshort, hn⟩
    rw [htext, Text.trim_append hb ha, Text.trim_of_free (hmark.free.append hrun.free).isWhite]
    exact hmark.sign_append hrun

/-! ## zero -/

theorem foldl_digits_eq_zero_iff {m : Nat} :
    ds.foldl (fun n d => 10 * n + d) m = 0 ↔ m = 0 ∧ ∀ d ∈ ds, d = 0 := by
  induction ds generalizing m with
  | nil => exact ⟨fun h => ⟨h, List.forall_mem_nil _⟩, fun h => h.1⟩
  | cons d ds ih =>
    rw [List.foldl_cons, ih, List.forall_mem_cons]
    constructor
    · rintro ⟨h, hds⟩
      exact ⟨by omega, by omega, hds⟩
    · rintro ⟨rfl, rfl, hds⟩
      exact ⟨rfl, hds⟩

theorem ofDigits_eq_zero_iff : ofDigits ds = 0 ↔ ds = List.replicate ds.length 0 := by
  rw [ofDigits, foldl_digits_eq_zero_iff, List.eq_replicate_iff]
  exact ⟨fun h => ⟨rfl, h.2⟩, fun h => ⟨rfl, h.2⟩⟩

/-- a sign or none and a run of nothing but zeros, with characters of `p` around them -/
inductive Zero (p : Char → Bool) (cs : List Char) : Prop where
  | mk {before mark body after : List Char} {negative : Bool} {k : Nat} (front : Only p before)
    (back : Only p after) (sign : Sign mark negative) (zeros : Run body (List.replicate k 0))
    (short : k ≤ digitLimit) (text : cs = before ++ (mark ++ body) ++ after) : Zero p cs

theorem spelled_zero_iff {p : Char → Bool} : Spelled p cs 0 ↔ Zero p cs := by
  constructor
  · rintro ⟨hb, ha, hmark, hrun, hshort, htext, hzero⟩
    rename_i negative ds
    have hvalue : ofDigits ds = 0 := by
      cases negative <;> simp at hzero <;> omega
    rw [ofDigits_eq_zero_iff.mp hvalue] at hrun
    exact .mk hb ha hmark hrun hshort htext
  · rintro ⟨hb, ha, hmark, hrun, hshort, htext⟩
    rename_i negative k
    have hvalue : ofDigits (List.replicate k 0) = 0 := by
      rw [ofDigits_eq_zero_iff, List.length_replicate]
    refine .mk hb ha hmark hrun (by rwa [List.length_replicate]) htext ?_
    rw [hvalue]
    cases negative <;> rfl

/-! ## no space inside -/

theorem free_of_digitsFrom (h : Free isSpace (digitsFrom after cs).2) : Free isSpace cs := by
  induction cs generalizing after with
  | nil => exact h
  | cons c cs ih =>
    cases hc : digitValue? c with
    | some d =>
      rw [digitsFrom_digit after hc] at h
      exact .cons (not_isSpace_of_digit hc) (ih h)
    | none =>
      obtain hend | ⟨rfl, -, -, hline⟩ := digitsFrom_other after hc cs
      · rwa [hend] at h
      · rw [hline] at h
        exact .cons (by decide) (ih h)

theorem free_of_fraction (h : Free isSpace (fraction cs).2) : Free isSpace cs := by
  unfold fraction at h
  split at h
  next => exact .cons (by decide) (free_of_digitsFrom h)
  next => exact h

theorem free_of_sign (h : Free isSpace (sign cs).2) : Free isSpace cs := by
  obtain ⟨mark, hmark, hcs⟩ := exists_sign cs
  rw [hcs]
  exact hmark.free.append h

theorem free_of_exponent? {e : Int} (h : exponent? cs = some e) : Free isSpace cs := by
  cases cs with
  | nil => exact Text.free_nil
  | cons c cs =>
    rw [exponent?] at h
    split at h
    next hc =>
      simp only at h
      have hletter : isSpace c = false := by
        obtain rfl | rfl := hc <;> decide
      -- nothing follows the digits of an exponent
      have hdigits : Free isSpace (digitRun (sign cs).2).2 := by
        split at h
        next => cases h
        next heq =>
          rw [heq]
          exact Text.free_nil
        next => cases h
      exact .cons hletter (free_of_sign (free_of_digitsFrom hdigits))
    next => cases h

theorem free_of_word? {x : Binary64} (h : word? negative (cs.map Char.toLower) = some x) :
    Free isSpace cs := by
  have hword : Free isSpace (cs.map Char.toLower) := by
    unfold word? at h
    split at h
    next heq => rw [heq]; decide
    next heq => rw [heq]; decide
    next heq => rw [heq]; decide
    next => cases h
  exact fun c hc => Text.not_isSpace_of_toLower (hword _ (List.mem_map_of_mem hc))

/-! ## both kinds of numbers -/

/-- how a number is read: white space at its ends does not matter, and there is no space inside -/
structure Reads {α : Type} (read : String → Option α) : Prop where
  congr : ∀ {s s' : String},
    Text.trim isWhite s.toList = Text.trim isWhite s'.toList → read s = read s'
  free : ∀ {s : String} {a : α}, read s = some a → Free isSpace (Text.trim isWhite s.toList)
  ne_nil : ∀ {s : String} {a : α}, read s = some a → Text.trim isWhite s.toList ≠ []

theorem reads_int : Reads fun s => (readInt s).toOption where
  congr {s s'} h := by
    refine Option.ext fun n => ?_
    simp only [Outcome.toOption_eq_some, readInt_eq_ok, h]
  free h := by
    obtain ⟨negative, body, ds, hsign, hrun, -⟩ := readInt_eq_ok.mp (Outcome.toOption_eq_some.mp h)
    refine free_of_sign ?_
    rw [hsign]
    exact hrun.free
  ne_nil h hnil := by
    obtain ⟨negative, body, ds, hsign, hrun, -⟩ := readInt_eq_ok.mp (Outcome.toOption_eq_some.mp h)
    rw [hnil] at hsign
    cases hsign
    cases hrun

theorem reads_float : Reads readFloat? where
  congr h := by simp only [readFloat?, h]
  free {s x} h := by
    refine free_of_sign ?_
    simp only [readFloat?] at h
    split at h
    next hw => exact free_of_word? hw
    next =>
      split at h
      next => cases h
      next =>
        obtain ⟨e, he, -⟩ := Option.map_eq_some_iff.mp h
        exact free_of_digitsFrom (free_of_fraction (free_of_exponent? he))
  ne_nil {s x} h hnil := by
    simp only [readFloat?, hnil] at h
    cases h

/-- It does not matter which space is taken away before a number is read. -/
theorem Reads.strip_eq_some_iff {α : Type} {read : String → Option α} (h : Reads read) {s : String}
    {a : α} : read (Text.strip s) = some a ↔ ∃ core, Text.Spaced core s ∧ read core = some a := by
  constructor
  · exact fun hs => ⟨Text.strip s, Text.spaced_strip s, hs⟩
  · rintro ⟨core, hspaced, hcore⟩
    have hfree := h.free hcore
    have hsame : read (Text.strip s) = read core := by
      refine h.congr ?_
      rw [Text.strip_of_spaced hspaced hfree, Text.trim_of_free hfree.isWhite]
    rw [hsame, hcore]

theorem Reads.strip_of_blank {α : Type} {read : String → Option α} (h : Reads read) {s : String}
    (hs : Text.isBlankText s = true) : read (Text.strip s) = none := by
  refine Option.eq_none_iff_forall_ne_some.mpr fun a ha => h.ne_nil ha ?_
  rw [Text.strip_of_isBlankText hs]
  rfl

theorem spelled_iff_exists_core {s : String} {n : Int} :
    Spelled isSpace s.toList n ↔ ∃ core, Text.Spaced core s ∧ readInt core = .ok n := by
  constructor
  · rintro ⟨hb, ha, hmark, hrun, hshort, htext, hn⟩
    rename_i before mark body after negative ds
    refine ⟨String.ofList (mark ++ body), ⟨before, after, hb, ha, ?_⟩, readInt_eq_ok_iff.mpr ?_⟩
    · rw [String.toList_ofList, htext]
    · rw [String.toList_ofList]
      refine .mk Text.only_nil Text.only_nil hmark hrun hshort ?_ hn
      rw [List.nil_append, List.append_nil]
  · rintro ⟨core, ⟨before, after, hb, ha, hs⟩, hread⟩
    obtain ⟨hb', ha', hmark, hrun, hshort, hcore, hn⟩ := readInt_eq_ok_iff.mp hread
    refine .mk (hb.append (hb'.mono fun _ => Text.isSpace_of_isWhite))
      ((ha'.mono fun _ => Text.isSpace_of_isWhite).append ha) hmark hrun hshort ?_ hn
    rw [hs, hcore]
    simp only [List.append_assoc]

/-- A text spells the integer that is read from what is left of it when it is stripped. -/
theorem spelled_iff_strip {s : String} {n : Int} :
    Spelled isSpace s.toList n ↔ readInt (Text.strip s) = .ok n := by
  rw [spelled_iff_exists_core, ← Outcome.toOption_eq_some,
    reads_int.strip_eq_some_iff (s := s) (a := n)]
  simp only [Outcome.toOption_eq_some]

end Numeral

end FullText

import FullText.Proofs.Value.Writable

/-!
# Which values are numbers of a reply

* `Whole v`     `v` is no truth value, and has an integer;
* `Numeric v`   `v` has a binary64;
* `expectInt_eq_ok_iff`, `expectFloat_eq_ok_iff`   as parts of a reply these, and no others, are read;
* `expectInt_of_not_whole`, `expectInt_infinite`   what becomes of the others as an integer.
-/

namespace FullText.Value

/-- a value that is no truth value, and has an integer -/
def Whole (v : Value) : Prop := (∀ b, v ≠ .bool b) ∧ ∃ n, v.toInt = .ok n

/-- a value that has a binary64 -/
def Numeric (v : Value) : Prop := ∃ x, v.toFloat = .ok x

/-! ## conversions as parts of a reply -/

variable {α : Type}

theorem orRefuse_of_error {v : Value} {e : Expected} {f : Fault} (h : f ≠ .outOfRange) :
    (v.orRefuse e (.error f) : Except Fault α) = v.refuse e := by
  unfold orRefuse
  split
  next h' => cases h'
  next h' =>
    cases h'
    exact absurd rfl h
  next => rfl

theorem orRefuse_eq_ok_iff {v : Value} {e : Expected} {o : Except Fault α} {a : α} :
    v.orRefuse e o = .ok a ↔ o = .ok a := by
  cases o with
  | ok b => exact Iff.rfl
  | error f =>
    refine ⟨fun h => ?_, nofun⟩
    by_cases hf : f = .outOfRange
    · subst hf
      cases h
    · rw [orRefuse_of_error hf] at h
      exact absurd h refuse_ne_ok

theorem expectFloat_eq_ok_iff {v : Value} {e : Expected} {x : Binary64} :
    v.expectFloat e = .ok x ↔ v.toFloat = .ok x :=
  orRefuse_eq_ok_iff

theorem expectInt_of_not_bool {v : Value} {e : Expected} (h : ∀ b, v ≠ .bool b) :
    v.expectInt e = v.orRefuse e v.toInt := by
  cases v with
  | bool b => exact absurd rfl (h b)
  | nil | int | float | text | bytes | array | tuple | map => rfl

theorem expectInt_eq_ok_iff {v : Value} {e : Expected} {n : Int} :
    v.expectInt e = .ok n ↔ (∀ b, v ≠ .bool b) ∧ v.toInt = .ok n := by
  by_cases h : ∀ b, v ≠ .bool b
  · rw [expectInt_of_not_bool h, orRefuse_eq_ok_iff]
    exact ⟨fun hn => ⟨h, hn⟩, fun hn => hn.2⟩
  · refine ⟨fun hn => ?_, fun hn => absurd hn.1 h⟩
    rw [not_forall] at h
    obtain ⟨b, hb⟩ := h
    rw [not_not.mp hb] at hn
    exact absurd hn refuse_ne_ok

theorem exists_expectInt_iff {v : Value} {e : Expected} :
    (∃ n, v.expectInt e = .ok n) ↔ v.Whole := by
  simp only [expectInt_eq_ok_iff, Whole, exists_and_left]

/-! ## values that are no integers -/

theorem numeral_ne_outOfRange {r : Except Numeral.Fault α} : numeral r ≠ .error .outOfRange := by
  intro h
  cases r with
  | ok a => cases h
  | error f => cases h

theorem bytesToText_eq_error {bs : List UInt8} {f : Fault} (h : bytesToText bs = .error f) :
    ∃ g, f = .notUtf8 g := by
  rw [bytesToText] at h
  cases hd : Text.Utf8.decode bs with
  | ok s =>
    rw [hd] at h
    cases h
  | error g =>
    rw [hd] at h
    cases h
    exact ⟨g, rfl⟩

theorem bytesToText_ne_outOfRange {bs : List UInt8} : bytesToText bs ≠ .error .outOfRange := by
  intro h
  obtain ⟨g, hg⟩ := bytesToText_eq_error h
  cases hg

/-- Only the infinities are beyond the integers. -/
theorem toInt_eq_outOfRange_iff {v : Value} :
    v.toInt = .error .outOfRange ↔ ∃ negative, v = .float (.infinite negative) := by
  constructor
  · intro h
    cases v with
    | float x =>
      cases x with
      | infinite negative => exact ⟨negative, rfl⟩
      | nan | finite => cases h
    | text s => exact absurd h numeral_ne_outOfRange
    | bytes bs =>
      rw [toInt] at h
      cases hs : bytesToText bs with
      | ok s =>
        rw [hs] at h
        exact absurd h numeral_ne_outOfRange
      | error f =>
        rw [hs] at h
        cases h
        exact absurd hs bytesToText_ne_outOfRange
    | nil | bool | int | array | tuple | map => cases h
  · rintro ⟨negative, rfl⟩
    rfl

theorem expectInt_infinite (negative : Bool) (e : Expected) :
    (float (.infinite negative)).expectInt e = .error .outOfRange := rfl

/-- Whatever else is no integer is refused. -/
theorem expectInt_of_not_whole {v : Value} {e : Expected} (h : ¬ v.Whole)
    (hi : ∀ negative, v ≠ .float (.infinite negative)) : v.expectInt e = v.refuse e := by
  by_cases hb : ∀ b, v ≠ .bool b
  · rw [expectInt_of_not_bool hb]
    cases hn : v.toInt with
    | ok n => exact absurd ⟨hb, n, hn⟩ h
    | error f =>
      refine orRefuse_of_error fun hf => ?_
      subst hf
      obtain ⟨negative, hv⟩ := toInt_eq_outOfRange_iff.mp hn
      exact hi negative hv
  · rw [not_forall] at hb
    obtain ⟨b, hb⟩ := hb
    rw [not_not.mp hb]
    rfl

end FullText.Value

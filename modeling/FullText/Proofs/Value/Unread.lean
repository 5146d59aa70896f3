import FullText.Proofs.Number.Overflow
import FullText.Proofs.Value.Numeric

/-!
# What becomes of a value that is needed as a number and is none

* `Fault.OfReply f`          the fault `f` says how a reply is not what the request implies;
* `Fault.OfNumber f`         it says that something is no number, or too large a one;
* `TooLarge e v`             the value `v` is a number, but beyond what is needed in its place;
* `Unread e v f`             `f` is the fault of a value that cannot be read;
* `unread_int`, `unread_float`  the conversions fail with it;
* `not_ofNumber_of_name`, `not_ofNumber_of_decode`  neither names nor decoded values ever fail so.
-/

namespace FullText

/-- the faults that say how a reply is not what the request implies -/
inductive Fault.OfReply : Fault → Prop where
  | unexpected (e : Expected) (found : String) : OfReply (.unexpected e found)
  | uneven (elements stride : Nat) : OfReply (.uneven elements stride)

/-- the parts of a reply that are numbers -/
def Expected.isNumber : Expected → Bool
  | .resultTotal | .documentScore | .aggregationTotal | .cursorId => true
  | .pairs | .searchReply | .aggregationReply | .cursorReply | .explainReply => false

/-- the faults that say that something is no number, or one that is out of range -/
inductive Fault.OfNumber : Fault → Prop where
  | unexpected {e : Expected} (number : e.isNumber) (found : String) : OfNumber (.unexpected e found)
  | outOfRange : OfNumber .outOfRange

namespace Value

/-! ## numbers that are out of range -/

/-- a number that is too large for its place: an infinity for an integer, and for a score an integer
    from half a step beyond the largest finite binary64 on -/
inductive TooLarge : Expected → Value → Prop where
  | infinite {e : Expected} (integer : e ≠ .documentScore) (negative : Bool) :
    TooLarge e (.float (.infinite negative))
  | int {n : Int} (large : (2 ^ 54 - 1) * 2 ^ 970 ≤ n.natAbs) : TooLarge .documentScore (.int n)

theorem intToFloat_eq_outOfRange_iff {n : Int} :
    intToFloat n = .error .outOfRange ↔ (2 ^ 54 - 1) * 2 ^ 970 ≤ n.natAbs := by
  rw [← Binary64.ofInt_eq_none_iff]
  -- unfolded while it is not applied: the match on its result would be run, with all its numerals
  obtain ⟨f, hf⟩ : ∃ f, f = intToFloat := ⟨_, rfl⟩
  rw [← hf]
  delta intToFloat at hf
  rw [hf]
  dsimp only
  generalize Binary64.ofInt n = x
  cases x with
  | none => exact ⟨fun _ => rfl, fun _ => rfl⟩
  | some x => exact ⟨nofun, nofun⟩

theorem textToFloat_ne_outOfRange {s : String} : textToFloat s ≠ .error .outOfRange := by
  rw [textToFloat]
  intro h
  split at h
  next => cases h
  next => cases h

theorem toFloat_eq_outOfRange_iff {v : Value} :
    v.toFloat = .error .outOfRange ↔ v.TooLarge .documentScore := by
  constructor
  · intro h
    cases v with
    | int n => exact .int (intToFloat_eq_outOfRange_iff.mp h)
    | bool b =>
      have hlarge := intToFloat_eq_outOfRange_iff.mp h
      cases b <;> exact absurd hlarge (by decide +kernel)
    | text s => exact absurd h textToFloat_ne_outOfRange
    | bytes bs =>
      obtain h | ⟨s, -, h⟩ := Outcome.bind_eq_error.mp h
      · exact absurd h bytesToText_ne_outOfRange
      · exact absurd h textToFloat_ne_outOfRange
    | nil | float | array | tuple | map => cases h
  · intro h
    cases h with
    | infinite integer => exact absurd rfl integer
    | int large => exact intToFloat_eq_outOfRange_iff.mpr large

/-! ## values that cannot be read -/

/-- what the fault says, if a value is needed as a number and is none -/
structure Unread (e : Expected) (v : Value) (f : Fault) : Prop where
  /-- that it is not what was expected, unless it is too large, or cannot be shown -/
  ofReply : f.OfReply ↔ ¬ v.TooLarge e ∧ v.Writable
  /-- and then it shows the value -/
  shown : f.OfReply → ∃ t, v.literal = .ok t ∧ f = .unexpected e t
  /-- a number that is too large is out of range, and nothing else is -/
  outOfRange : f = .outOfRange ↔ v.TooLarge e
  /-- of a value that cannot be shown, it only says so -/
  unwritable : ¬ v.TooLarge e → ¬ v.Writable → f = .badNumeral .tooLongToWrite

theorem unread_of_tooLarge {e : Expected} {v : Value} (h : v.TooLarge e) : v.Unread e .outOfRange where
  ofReply := iff_of_false nofun fun hn => hn.1 h
  shown := nofun
  outOfRange := iff_of_true rfl h
  unwritable hn := absurd h hn

/-- Whatever is not too large is refused, and that is its fault. -/
theorem exists_unread_of_refuse {α : Type} {e : Expected} {v : Value} (h : ¬ v.TooLarge e) :
    ∃ f, (v.refuse e : Except Fault α) = .error f ∧ v.Unread e f := by
  by_cases hw : v.Writable
  · obtain ⟨t, ht, he⟩ := refuse_of_writable e hw
    refine ⟨_, he, ?_⟩
    exact {
      ofReply := iff_of_true (.unexpected e t) ⟨h, hw⟩
      shown _ := ⟨t, ht, rfl⟩
      outOfRange := iff_of_false nofun h
      unwritable _ hn := absurd hw hn }
  · refine ⟨_, refuse_of_not_writable e hw, ?_⟩
    exact {
      ofReply := iff_of_false nofun fun hn => hw hn.2
      shown := nofun
      outOfRange := iff_of_false nofun h
      unwritable _ _ := rfl }

theorem unread_int {e : Expected} {v : Value} (he : e ≠ .documentScore) (h : ¬ v.Whole) :
    ∃ f, v.expectInt e = .error f ∧ v.Unread e f := by
  by_cases hi : ∃ negative, v = .float (.infinite negative)
  · obtain ⟨negative, rfl⟩ := hi
    exact ⟨_, expectInt_infinite negative e, unread_of_tooLarge (.infinite he negative)⟩
  · rw [not_exists] at hi
    rw [expectInt_of_not_whole h hi]
    refine exists_unread_of_refuse fun hlarge => ?_
    cases hlarge with
    | infinite _ negative => exact hi negative rfl
    | int => exact he rfl

theorem unread_float {v : Value} (h : ¬ v.Numeric) :
    ∃ f, v.expectFloat .documentScore = .error f ∧ v.Unread .documentScore f := by
  rw [expectFloat]
  cases hf : v.toFloat with
  | ok x => exact absurd ⟨x, hf⟩ h
  | error f =>
    by_cases hrange : f = .outOfRange
    · subst hrange
      exact ⟨_, rfl, unread_of_tooLarge (toFloat_eq_outOfRange_iff.mp hf)⟩
    · rw [orRefuse_of_error hrange]
      refine exists_unread_of_refuse fun hlarge => hrange ?_
      rw [toFloat_eq_outOfRange_iff.mpr hlarge] at hf
      exact (Except.error.inj hf).symm

/-! ## computations without numbers -/

variable {f : Fault}

theorem not_ofNumber_of_literal {v : Value} (h : v.literal = .error f) : ¬ f.OfNumber := by
  rw [literal_eq_error v h]
  intro hf
  cases hf

theorem not_ofNumber_of_refuse {α : Type} {v : Value} {e : Expected} (he : e.isNumber = false)
    (h : (v.refuse e : Except Fault α) = .error f) : ¬ f.OfNumber := by
  rw [refuse] at h
  obtain h | ⟨t, -, h⟩ := Outcome.bind_eq_error.mp h
  · exact not_ofNumber_of_literal h
  · cases h
    intro hf
    cases hf with
    | unexpected number =>
      rw [he] at number
      cases number

theorem not_ofNumber_of_bytesToText {bs : List UInt8} (h : bytesToText bs = .error f) :
    ¬ f.OfNumber := by
  obtain ⟨g, rfl⟩ := bytesToText_eq_error h
  intro hf
  cases hf

theorem not_ofNumber_of_asText {v : Value} (h : v.asText = .error f) : ¬ f.OfNumber := by
  cases v with
  | bytes bs => exact not_ofNumber_of_bytesToText (Outcome.map_eq_error.mp h)
  | nil | bool | int | float | text | array | tuple | map => cases h

theorem not_ofNumber_of_name {v : Value} (h : v.name = .error f) : ¬ f.OfNumber := by
  rw [name] at h
  obtain h | ⟨w, -, h⟩ := Outcome.bind_eq_error.mp h
  · exact not_ofNumber_of_asText h
  · split at h
    next => cases h
    next => exact not_ofNumber_of_literal h

mutual

theorem not_ofNumber_of_decode : (v : Value) → v.decode = .error f → ¬ f.OfNumber
  | .bytes _, h => not_ofNumber_of_bytesToText (Outcome.map_eq_error.mp h)
  | .array vs, h | .tuple vs, h => not_ofNumber_of_decodeAll vs (Outcome.map_eq_error.mp h)
  | .nil, h | .bool _, h | .int _, h | .float _, h | .text _, h | .map _, h => nomatch h

theorem not_ofNumber_of_decodeAll : (vs : List Value) → decodeAll vs = .error f → ¬ f.OfNumber
  | v :: vs, h =>
    (Outcome.bind_eq_error.mp h).elim (not_ofNumber_of_decode v) fun ⟨_, _, h⟩ =>
      not_ofNumber_of_decodeAll vs (Outcome.map_eq_error.mp h)

end

end Value

end FullText

import FullText.Proofs.Value.Numeric
import FullText.Proofs.Value.Writable

/-!
# Values in which some bytes have been decoded

* `Value.Recoded v w`       `w` is `v`, but for some byte strings that have become their texts;
* `Recoded.decode_eq`, `Recoded.toInt_eq`, `Recoded.toFloat_eq`  what is read of both is the same;
* `Fault.SameKind`          two faults are the same, but for the value that they show;
* `Recoded.refuse`          a literal shows whether bytes have been decoded, but it is there or not there
                            for both;
* `Recoded.name`            the name of an array is its literal, and the name of anything else is the same.
-/

namespace FullText

open Outcome

/-- two faults are the same, but for the value that they show -/
inductive Fault.SameKind : Fault → Fault → Prop where
  | same (f : Fault) : SameKind f f
  | shown (e : Expected) (found found' : String) :
    SameKind (.unexpected e found) (.unexpected e found')

namespace Value

mutual

/-- A value is as another one, but for some of the byte strings that are reached through arrays: in
    place of them are the texts that they are the bytes of. -/
inductive Recoded : Value → Value → Prop where
  | same (v : Value) : Recoded v v
  | text (s : String) : Recoded (.bytes (Text.Utf8.encode s)) (.text s)
  | array {vs ws : List Value} (items : RecodedAll vs ws) : Recoded (.array vs) (.array ws)
  | tuple {vs ws : List Value} (items : RecodedAll vs ws) : Recoded (.tuple vs) (.tuple ws)

/-- the same for the elements of an array, place by place -/
inductive RecodedAll : List Value → List Value → Prop where
  | nil : RecodedAll [] []
  | cons {v w : Value} {vs ws : List Value} (first : Recoded v w) (others : RecodedAll vs ws) :
    RecodedAll (v :: vs) (w :: ws)

end

theorem RecodedAll.refl (vs : List Value) : RecodedAll vs vs := by
  induction vs with
  | nil => exact .nil
  | cons v vs ih => exact .cons (.same v) ih

theorem RecodedAll.forall₂ {vs ws : List Value} (h : RecodedAll vs ws) :
    List.Forall₂ Recoded vs ws := by
  induction vs generalizing ws with
  | nil =>
    cases h
    exact .nil
  | cons v vs ih =>
    cases h with
    | cons first others => exact .cons first (ih others)

/-- Both are arrays, whose elements are recoded, or neither is one. -/
theorem Recoded.items {v w : Value} (h : Recoded v w) :
    (v.items? = none ∧ w.items? = none)
      ∨ ∃ vs ws, v.items? = some vs ∧ w.items? = some ws ∧ RecodedAll vs ws := by
  cases h with
  | same =>
    cases hv : v.items? with
    | none => exact .inl ⟨rfl, rfl⟩
    | some vs => exact .inr ⟨vs, vs, rfl, rfl, .refl vs⟩
  | text s => exact .inl ⟨rfl, rfl⟩
  | array items | tuple items => exact .inr ⟨_, _, rfl, rfl, items⟩

theorem Recoded.items_eq_some {v w : Value} {vs : List Value} (h : Recoded v w)
    (hv : v.items? = some vs) : ∃ ws, w.items? = some ws ∧ RecodedAll vs ws := by
  obtain ⟨hnone, -⟩ | ⟨vs', ws, hv', hw, hall⟩ := h.items
  · rw [hv] at hnone
    cases hnone
  · rw [hv] at hv'
    cases hv'
    exact ⟨ws, hw, hall⟩

/-- Both are arrays with a first element, or neither is one. -/
theorem Recoded.items_cons {v w : Value} (h : Recoded v w) :
    (∃ head head' body body', v.items? = some (head :: body) ∧ w.items? = some (head' :: body')
        ∧ Recoded head head' ∧ List.Forall₂ Recoded body body')
      ∨ ((∀ head body, v.items? ≠ some (head :: body)) ∧ ∀ head body, w.items? ≠ some (head :: body)) := by
  obtain ⟨hv, hw⟩ | ⟨vs, ws, hv, hw, hall⟩ := h.items
  · rw [hv, hw]
    exact .inr ⟨nofun, nofun⟩
  · rw [hv, hw]
    cases hall with
    | nil => exact .inr ⟨nofun, nofun⟩
    | cons first others => exact .inl ⟨_, _, _, _, rfl, rfl, first, others.forall₂⟩

/-- Both are arrays of two elements, or neither is one. -/
theorem Recoded.items_pair {v w : Value} (h : Recoded v w) :
    (∃ a b a' b', v.items? = some [a, b] ∧ w.items? = some [a', b'] ∧ Recoded a a' ∧ Recoded b b')
      ∨ ((∀ a b, v.items? ≠ some [a, b]) ∧ ∀ a b, w.items? ≠ some [a, b]) := by
  obtain ⟨a, a', body, body', hv, hw, ha, hbody⟩ | ⟨hv, hw⟩ := h.items_cons
  · rw [hv, hw]
    obtain _ | ⟨hb, _ | _⟩ := hbody
    · exact .inr ⟨nofun, nofun⟩
    · exact .inl ⟨_, _, _, _, rfl, rfl, ha, hb⟩
    · exact .inr ⟨nofun, nofun⟩
  · exact .inr ⟨fun a b => hv a [b], fun a b => hw a [b]⟩

/-! ## what is read -/

theorem Recoded.asText_eq {v w : Value} (h : Recoded v w) (hv : v.items? = none) :
    v.asText = w.asText := by
  cases h with
  | same => rfl
  | text s =>
    rw [asText, bytesToText_encode]
    rfl
  | array | tuple => cases hv

mutual

theorem Recoded.decode_eq {v w : Value} (h : Recoded v w) : v.decode = w.decode := by
  cases h with
  | same => rfl
  | text s =>
    rw [Value.decode, bytesToText_encode]
    rfl
  | array items => rw [Value.decode, Value.decode, RecodedAll.decodeAll_eq items]
  | tuple items => rw [Value.decode, Value.decode, RecodedAll.decodeAll_eq items]

theorem RecodedAll.decodeAll_eq {vs ws : List Value} (h : RecodedAll vs ws) :
    decodeAll vs = decodeAll ws := by
  cases h with
  | nil => rfl
  | cons first others =>
    rw [decodeAll, decodeAll, Recoded.decode_eq first, RecodedAll.decodeAll_eq others]

end

theorem Recoded.toInt_eq {v w : Value} (h : Recoded v w) : v.toInt = w.toInt := by
  cases h with
  | same | array | tuple => rfl
  | text s =>
    show (do numeral (Numeral.readInt (← bytesToText (Text.Utf8.encode s)))) = _
    rw [bytesToText_encode]
    rfl

theorem Recoded.toFloat_eq {v w : Value} (h : Recoded v w) : v.toFloat = w.toFloat := by
  cases h with
  | same | array | tuple => rfl
  | text s =>
    show (do textToFloat (← bytesToText (Text.Utf8.encode s))) = _
    rw [bytesToText_encode]
    rfl

/-! ## what is shown -/

mutual

theorem Recoded.writable_iff {v w : Value} (h : Recoded v w) : v.Writable ↔ w.Writable := by
  cases h with
  | same => rfl
  | text s =>
    exact iff_of_true (writable_of_leaf nofun rfl nofun) (writable_of_leaf nofun rfl nofun)
  | @array vs ws items =>
    rw [writable_iff_of_items (w := .array vs) rfl, writable_iff_of_items (w := .array ws) rfl]
    exact RecodedAll.writable_iff items
  | @tuple vs ws items =>
    rw [writable_iff_of_items (w := .tuple vs) rfl, writable_iff_of_items (w := .tuple ws) rfl]
    exact RecodedAll.writable_iff items

theorem RecodedAll.writable_iff {vs ws : List Value} (h : RecodedAll vs ws) :
    (∀ v ∈ vs, v.Writable) ↔ ∀ w ∈ ws, w.Writable := by
  cases h with
  | nil => rfl
  | cons first others =>
    rw [List.forall_mem_cons, List.forall_mem_cons, Recoded.writable_iff first,
      RecodedAll.writable_iff others]

end

variable {α : Type} {v w : Value}

/-- Both have a literal, or neither has one. -/
theorem Recoded.literal (h : Recoded v w) :
    Alike Fault.SameKind (fun _ _ => True) v.literal w.literal := by
  cases hv : v.literal with
  | ok t =>
    have hw : w.Writable := h.writable_iff.mp ((exists_literal_iff v).mp ⟨t, hv⟩)
    obtain ⟨t', ht'⟩ := (exists_literal_iff w).mpr hw
    rw [ht']
    exact .ok trivial
  | error f =>
    cases hw : w.literal with
    | ok t' =>
      have hwritable : v.Writable := h.writable_iff.mpr ((exists_literal_iff w).mp ⟨t', hw⟩)
      obtain ⟨t, ht⟩ := (exists_literal_iff v).mpr hwritable
      rw [hv] at ht
      cases ht
    | error f' =>
      rw [literal_eq_error v hv, literal_eq_error w hw]
      exact .error (.same _)

/-- Both are refused for the same reason. -/
theorem Recoded.refuse (h : Recoded v w) (e : Expected) (q : α → α → Prop) :
    Alike Fault.SameKind q (v.refuse e) (w.refuse e) :=
  h.literal.bind fun t t' _ => .error (.shown e t t')

theorem Recoded.orRefuse (h : Recoded v w) (e : Expected) (o : Except Fault α) :
    Alike Fault.SameKind Eq (v.orRefuse e o) (w.orRefuse e o) := by
  cases o with
  | ok a => exact .ok rfl
  | error f =>
    by_cases hf : f = .outOfRange
    · rw [hf]
      exact .error (.same _)
    · rw [orRefuse_of_error hf, orRefuse_of_error hf]
      exact h.refuse e Eq

theorem Recoded.expectInt (h : Recoded v w) (e : Expected) :
    Alike Fault.SameKind Eq (v.expectInt e) (w.expectInt e) := by
  have hread : Alike Fault.SameKind Eq (v.orRefuse e v.toInt) (w.orRefuse e w.toInt) := by
    rw [← h.toInt_eq]
    exact h.orRefuse e v.toInt
  cases h with
  | same => exact .refl .same (fun _ => rfl) _
  | text | array | tuple => exact hread

theorem Recoded.expectFloat (h : Recoded v w) (e : Expected) :
    Alike Fault.SameKind Eq (v.expectFloat e) (w.expectFloat e) := by
  rw [Value.expectFloat, Value.expectFloat, ← h.toFloat_eq]
  exact h.orRefuse e v.toFloat

/-- Both have a name, which is the same unless it is that of an array, or neither has one. -/
theorem Recoded.name (h : Recoded v w) :
    Alike Fault.SameKind (fun n m => v.items? = none → n = m) v.name w.name := by
  have hliteral := h.literal
  cases h with
  | same => exact .refl .same (fun _ _ => rfl) _
  | text s =>
    rw [name_bytes_eq_ok_iff.mpr rfl]
    exact .ok fun _ => rfl
  -- the name of an array is its literal
  | array | tuple => exact hliteral.mono fun _ _ _ hitems => nomatch hitems

end Value

end FullText

import FullText.Proofs.Value.Legible

/-!
# Bytes that decoding leaves in a value

* `Carries v bs`            the bytes `bs` are somewhere in `v`, be it as a key of a mapping;
* `Shelters v bs`           they are in a mapping that is reached from `v` through arrays alone;
* `Writes.carries_iff`      the bytes in a decoded value are those that the value shelters.

All bytes that are reached through arrays become text, and a mapping that is reached so stays as it is.
-/

namespace FullText.Value

/-- the bytes `bs` are somewhere in a value, be it as a key -/
inductive Carries : Value → List UInt8 → Prop where
  | here (bs : List UInt8) : Carries (.bytes bs) bs
  | element {w v : Value} {vs : List Value} {bs : List UInt8} (items : w.items? = some vs)
    (mem : v ∈ vs) (carries : Carries v bs) : Carries w bs
  | key {es : List (Value × Value)} {e : Value × Value} {bs : List UInt8} (mem : e ∈ es)
    (carries : Carries e.1 bs) : Carries (.map es) bs
  | value {es : List (Value × Value)} {e : Value × Value} {bs : List UInt8} (mem : e ∈ es)
    (carries : Carries e.2 bs) : Carries (.map es) bs

/-- the bytes `bs` are in a mapping that is reached from a value through arrays alone -/
inductive Shelters : Value → List UInt8 → Prop where
  | map {es : List (Value × Value)} {bs : List UInt8} (carries : Carries (.map es) bs) :
    Shelters (.map es) bs
  | element {w v : Value} {vs : List Value} {bs : List UInt8} (items : w.items? = some vs)
    (mem : v ∈ vs) (shelters : Shelters v bs) : Shelters w bs

variable {bs : List UInt8}

theorem carries_iff_of_items {w : Value} {vs : List Value} (hw : w.items? = some vs) :
    w.Carries bs ↔ ∃ v ∈ vs, v.Carries bs := by
  constructor
  · intro h
    cases h with
    | element items mem carries =>
      rw [hw] at items
      cases items
      exact ⟨_, mem, carries⟩
    | here | key | value => cases hw
  · rintro ⟨v, hv, h⟩
    exact .element hw hv h

theorem shelters_iff_of_items {w : Value} {vs : List Value} (hw : w.items? = some vs) :
    w.Shelters bs ↔ ∃ v ∈ vs, v.Shelters bs := by
  constructor
  · intro h
    cases h with
    | element items mem shelters =>
      rw [hw] at items
      cases items
      exact ⟨_, mem, shelters⟩
    | map => cases hw
  · rintro ⟨v, hv, h⟩
    exact .element hw hv h

theorem not_carries_of_leaf {v : Value} (hb : ∀ cs, v ≠ .bytes cs) (hi : v.items? = none)
    (hm : ∀ es, v ≠ .map es) : ¬ v.Carries bs := by
  intro h
  cases h with
  | here => exact hb _ rfl
  | element items =>
    rw [hi] at items
    cases items
  | key | value => exact hm _ rfl

theorem not_shelters_of_leaf {v : Value} (hi : v.items? = none) (hm : ∀ es, v ≠ .map es) :
    ¬ v.Shelters bs := by
  intro h
  cases h with
  | map => exact hm _ rfl
  | element items =>
    rw [hi] at items
    cases items

theorem shelters_map_iff {es : List (Value × Value)} :
    (map es).Shelters bs ↔ (map es).Carries bs := by
  refine ⟨fun h => ?_, .map⟩
  cases h with
  | map carries => exact carries
  | element items => cases items

mutual

theorem Writes.carries_iff {v w : Value} (h : Writes v w) : v.Carries bs ↔ w.Shelters bs := by
  cases h with
  | nil | bool | int | float | text | bytes =>
    exact iff_of_false (not_carries_of_leaf nofun rfl nofun) (not_shelters_of_leaf rfl nofun)
  | array h | tuple h =>
    rw [carries_iff_of_items rfl, shelters_iff_of_items rfl]
    exact WritesAll.carries_iff h
  | map es => exact shelters_map_iff.symm

theorem WritesAll.carries_iff {vs ws : List Value} (h : WritesAll vs ws) :
    (∃ v ∈ vs, v.Carries bs) ↔ ∃ w ∈ ws, w.Shelters bs := by
  cases h with
  | nil => exact iff_of_false nofun nofun
  | cons h hs =>
    rw [List.exists_mem_cons_iff, List.exists_mem_cons_iff, Writes.carries_iff h,
      WritesAll.carries_iff hs]

end

end FullText.Value

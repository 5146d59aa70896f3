import FullText.Proofs.Outcome
import FullText.Proofs.Text.WellFormed
import FullText.Proofs.Value.Written

/-!
# Which values can be decoded

* `Reaches v bs`            the bytes `bs` are reached from `v` through arrays alone;
* `Legible v`               all bytes that are reached through arrays are those of texts;
* `decode_eq_ok_iff`        a value decodes to `u` if and only if it is a way to write `u`;
* `exists_decode_iff`       a value can be decoded if and only if it is legible.

The values of a mapping are not reached: what is in a mapping need not be text.
-/

namespace FullText.Value

/-- the bytes `bs` are reached from a value through arrays alone -/
inductive Reaches : Value → List UInt8 → Prop where
  | here (bs : List UInt8) : Reaches (.bytes bs) bs
  | element {w v : Value} {vs : List Value} {bs : List UInt8} (items : w.items? = some vs)
    (mem : v ∈ vs) (reaches : Reaches v bs) : Reaches w bs

/-- all bytes that are reached through arrays are those of texts -/
def Legible (v : Value) : Prop := ∀ bs, v.Reaches bs → Text.Utf8.Valid bs

theorem legible_of_leaf {v : Value} (hb : ∀ bs, v ≠ .bytes bs) (hi : v.items? = none) :
    v.Legible := by
  intro bs h
  cases h with
  | here => exact absurd rfl (hb bs)
  | element items =>
    rw [hi] at items
    cases items

theorem legible_bytes_iff {bs : List UInt8} : (bytes bs).Legible ↔ Text.Utf8.Valid bs := by
  constructor
  · exact fun h => h bs (.here bs)
  · intro h bs' hr
    cases hr with
    | here => exact h
    | element items => cases items

theorem legible_iff_of_items {w : Value} {vs : List Value} (hw : w.items? = some vs) :
    w.Legible ↔ ∀ v ∈ vs, v.Legible := by
  constructor
  · exact fun h v hv bs hr => h bs (.element hw hv hr)
  · intro h bs hr
    cases hr with
    | here => cases hw
    | element items mem reaches =>
      rw [hw] at items
      cases items
      exact h _ mem bs reaches

/-! ## bytes -/

theorem bytesToText_eq_ok_iff {bs : List UInt8} {s : String} :
    bytesToText bs = .ok s ↔ Text.Utf8.encode s = bs := by
  rw [← Text.Utf8.decode_eq_ok_iff, bytesToText]
  cases Text.Utf8.decode bs with
  | ok t => exact ⟨fun h => congrArg _ (Except.ok.inj h), fun h => congrArg _ (Except.ok.inj h)⟩
  | error f =>
    constructor
    · intro h
      cases h
    · intro h
      cases h

theorem asText_bytes_eq_ok_iff {bs : List UInt8} {u : Value} :
    (bytes bs).asText = .ok u ↔ ∃ s, Text.Utf8.encode s = bs ∧ u = .text s := by
  rw [asText, Outcome.map_eq_ok]
  simp only [bytesToText_eq_ok_iff, eq_comm (a := u)]

/-! ## decoding -/

mutual

theorem writes_of_decode : {w v : Value} → w.decode = .ok v → Writes v w
  | .nil, _, h | .bool _, _, h | .int _, _, h | .float _, _, h | .text _, _, h | .map _, _, h => by
    cases h
    constructor
  | .bytes bs, v, h => by
    obtain ⟨s, rfl, rfl⟩ := asText_bytes_eq_ok_iff.mp h
    exact .bytes s
  | .array ws, v, h => by
    obtain ⟨vs, hvs, rfl⟩ := Outcome.map_eq_ok.mp h
    exact .array (writesAll_of_decodeAll hvs)
  | .tuple ws, v, h => by
    obtain ⟨vs, hvs, rfl⟩ := Outcome.map_eq_ok.mp h
    exact .tuple (writesAll_of_decodeAll hvs)

theorem writesAll_of_decodeAll : {ws vs : List Value} → decodeAll ws = .ok vs → WritesAll vs ws
  | [], _, h => by
    cases h
    exact .nil
  | w :: ws, _, h => by
    obtain ⟨v, hv, h⟩ := Outcome.bind_eq_ok.mp h
    obtain ⟨vs, hvs, h⟩ := Outcome.bind_eq_ok.mp h
    cases h
    exact .cons (writes_of_decode hv) (writesAll_of_decodeAll hvs)

end

/-- Decoding undoes writing, and does nothing else. -/
theorem decode_eq_ok_iff {w v : Value} : w.decode = .ok v ↔ Writes v w :=
  ⟨writes_of_decode, Writes.decode_eq⟩

mutual

theorem exists_decode_iff : (v : Value) → ((∃ u, v.decode = .ok u) ↔ v.Legible)
  | .nil | .bool _ | .int _ | .float _ | .text _ | .map _ =>
    ⟨fun _ => legible_of_leaf nofun rfl, fun _ => ⟨_, rfl⟩⟩
  | .bytes bs => by
    rw [legible_bytes_iff]
    constructor
    · rintro ⟨u, h⟩
      obtain ⟨s, hs, -⟩ := asText_bytes_eq_ok_iff.mp h
      exact ⟨s, hs⟩
    · rintro ⟨s, hs⟩
      exact ⟨.text s, asText_bytes_eq_ok_iff.mpr ⟨s, hs, rfl⟩⟩
  | .array vs => by
    rw [legible_iff_of_items (w := .array vs) rfl, ← exists_decodeAll_iff vs]
    exact Outcome.exists_map_ok
  | .tuple vs => by
    rw [legible_iff_of_items (w := .tuple vs) rfl, ← exists_decodeAll_iff vs]
    exact Outcome.exists_map_ok

theorem exists_decodeAll_iff : (vs : List Value) →
    ((∃ us, decodeAll vs = .ok us) ↔ ∀ v ∈ vs, v.Legible)
  | [] => ⟨fun _ => List.forall_mem_nil _, fun _ => ⟨[], rfl⟩⟩
  | v :: vs => by
    rw [List.forall_mem_cons, ← exists_decode_iff v, ← exists_decodeAll_iff vs]
    exact Outcome.exists_bind_ok fun u _ => Outcome.exists_map_ok

end

end FullText.Value

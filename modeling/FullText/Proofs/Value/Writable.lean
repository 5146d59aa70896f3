import FullText.Proofs.Value.Legible

/-!
# Which values can be shown

* `Holds v n`             the integer `n` is somewhere in `v`;
* `Writable v`            no integer in `v` has more digits than a numeral may have;
* `exists_literal_iff`    a value has a literal if and only if it is writable;
* `refuse_of_writable`    a writable value is refused with the literal of itself;
* `refuse_of_not_writable`  of any other, all that is said is that a numeral is too long;
* `Nameable v`            `v` is writable and, if it is bytes, the bytes of a text;
* `exists_name_iff`       a value has a name if and only if it is nameable.

The limit on the digits of a numeral is the only thing that can keep a value from being shown.
-/

namespace FullText.Value

/-- an integer that is somewhere in a value, be it as a key -/
inductive Holds : Value → Int → Prop where
  | here (n : Int) : Holds (.int n) n
  | element {w v : Value} {vs : List Value} {n : Int} (items : w.items? = some vs) (mem : v ∈ vs)
    (holds : Holds v n) : Holds w n
  | key {es : List (Value × Value)} {e : Value × Value} {n : Int} (mem : e ∈ es)
    (holds : Holds e.1 n) : Holds (.map es) n
  | value {es : List (Value × Value)} {e : Value × Value} {n : Int} (mem : e ∈ es)
    (holds : Holds e.2 n) : Holds (.map es) n

/-- no integer in a value has more digits than a numeral may have -/
def Writable (v : Value) : Prop :=
  ∀ n, v.Holds n → (decimalDigits n.natAbs).length ≤ Numeral.digitLimit

theorem writable_int_iff {n : Int} :
    (int n).Writable ↔ (decimalDigits n.natAbs).length ≤ Numeral.digitLimit := by
  constructor
  · exact fun h => h n (.here n)
  · intro h m hm
    cases hm with
    | here => exact h
    | element items => cases items

theorem writable_of_leaf {v : Value} (hn : ∀ n, v ≠ .int n) (hi : v.items? = none)
    (hm : ∀ es, v ≠ .map es) : v.Writable := by
  intro n h
  cases h with
  | here => exact absurd rfl (hn n)
  | element items =>
    rw [hi] at items
    cases items
  | key | value => exact absurd rfl (hm _)

theorem writable_iff_of_items {w : Value} {vs : List Value} (hw : w.items? = some vs) :
    w.Writable ↔ ∀ v ∈ vs, v.Writable := by
  constructor
  · exact fun h v hv n hn => h n (.element hw hv hn)
  · intro h n hn
    cases hn with
    | element items mem holds =>
      rw [hw] at items
      cases items
      exact h _ mem n holds
    | here | key | value => cases hw

theorem writable_map_iff {es : List (Value × Value)} :
    (map es).Writable ↔ ∀ e ∈ es, e.1.Writable ∧ e.2.Writable := by
  constructor
  · exact fun h e he => ⟨fun n hn => h n (.key he hn), fun n hn => h n (.value he hn)⟩
  · intro h n hn
    cases hn with
    | element items => cases items
    | key mem holds => exact (h _ mem).1 n holds
    | value mem holds => exact (h _ mem).2 n holds

/-! ## literals -/

theorem exists_writeInt_iff {n : Int} :
    (∃ t, numeral (Numeral.writeInt n) = .ok t) ↔ (int n).Writable := by
  rw [writable_int_iff, Numeral.writeInt]
  by_cases h : Numeral.digitLimit < (decimalDigits n.natAbs).length
  · rw [if_pos h]
    constructor
    · rintro ⟨t, ht⟩
      cases ht
    · intro hle
      omega
  · rw [if_neg h]
    exact ⟨fun _ => Nat.le_of_not_lt h, fun _ => ⟨_, rfl⟩⟩

mutual

theorem exists_literal_iff : (v : Value) → ((∃ t, v.literal = .ok t) ↔ v.Writable)
  | .nil | .bool true | .bool false | .float _ | .text _ | .bytes _ =>
    ⟨fun _ => writable_of_leaf nofun rfl nofun, fun _ => ⟨_, rfl⟩⟩
  | .int n => exists_writeInt_iff
  | .array vs => by
    rw [writable_iff_of_items (w := .array vs) rfl, ← exists_literals_iff vs]
    exact Outcome.exists_map_ok
  | .tuple vs => by
    rw [writable_iff_of_items (w := .tuple vs) rfl, ← exists_literals_iff vs]
    exact Outcome.exists_map_ok
  | .map es => by
    rw [writable_map_iff, ← exists_literalEntries_iff es]
    exact Outcome.exists_map_ok

theorem exists_literals_iff : (vs : List Value) →
    ((∃ ts, literals vs = .ok ts) ↔ ∀ v ∈ vs, v.Writable)
  | [] => ⟨fun _ => List.forall_mem_nil _, fun _ => ⟨[], rfl⟩⟩
  | v :: vs => by
    rw [List.forall_mem_cons, ← exists_literal_iff v, ← exists_literals_iff vs]
    exact Outcome.exists_bind_ok fun t _ => Outcome.exists_map_ok

theorem exists_literalEntries_iff : (es : List (Value × Value)) →
    ((∃ ts, literalEntries es = .ok ts) ↔ ∀ e ∈ es, e.1.Writable ∧ e.2.Writable)
  | [] => ⟨fun _ => List.forall_mem_nil _, fun _ => ⟨[], rfl⟩⟩
  | (k, v) :: es => by
    rw [List.forall_mem_cons, ← exists_literal_iff k, ← exists_literal_iff v,
      ← exists_literalEntries_iff es, and_assoc]
    exact Outcome.exists_bind_ok fun t _ => Outcome.exists_bind_ok fun u _ => Outcome.exists_map_ok

end

/-- A value that can be shown is refused with its own literal. -/
theorem refuse_of_writable {α : Type} {v : Value} (e : Expected) (h : v.Writable) :
    ∃ t, v.literal = .ok t ∧ (v.refuse e : Except Fault α) = .error (.unexpected e t) := by
  obtain ⟨t, ht⟩ := (exists_literal_iff v).mpr h
  refine ⟨t, ht, ?_⟩
  rw [refuse, ht]
  rfl

mutual

/-- the only fault of a literal is that of a numeral -/
theorem literal_eq_error : (v : Value) → {f : Fault} → v.literal = .error f →
    f = .badNumeral .tooLongToWrite
  | .nil, _, h | .bool true, _, h | .bool false, _, h | .float _, _, h | .text _, _, h
  | .bytes _, _, h => nomatch h
  | .int n, f, h => by
    rw [literal, numeral, Numeral.writeInt] at h
    split at h
    next => exact (Except.error.inj h).symm
    next => cases h
  | .array vs, _, h | .tuple vs, _, h => literals_eq_error vs (Outcome.map_eq_error.mp h)
  | .map es, _, h => literalEntries_eq_error es (Outcome.map_eq_error.mp h)

theorem literals_eq_error : (vs : List Value) → {f : Fault} → literals vs = .error f →
    f = .badNumeral .tooLongToWrite
  | v :: vs, _, h =>
    (Outcome.bind_eq_error.mp h).elim (literal_eq_error v) fun ⟨_, _, h⟩ =>
      literals_eq_error vs (Outcome.map_eq_error.mp h)

theorem literalEntries_eq_error : (es : List (Value × Value)) → {f : Fault} →
    literalEntries es = .error f → f = .badNumeral .tooLongToWrite
  | (k, v) :: es, _, h =>
    (Outcome.bind_eq_error.mp h).elim (literal_eq_error k) fun ⟨_, _, h⟩ =>
      (Outcome.bind_eq_error.mp h).elim (literal_eq_error v) fun ⟨_, _, h⟩ =>
        literalEntries_eq_error es (Outcome.map_eq_error.mp h)

end

/-- Of a value that cannot be shown, all that is said is that a numeral is too long. -/
theorem refuse_of_not_writable {α : Type} {v : Value} (e : Expected) (h : ¬ v.Writable) :
    (v.refuse e : Except Fault α) = .error (.badNumeral .tooLongToWrite) := by
  cases hl : v.literal with
  | ok t => exact absurd ((exists_literal_iff v).mp ⟨t, hl⟩) h
  | error f =>
    rw [← literal_eq_error v hl, refuse, hl]
    rfl

/-- A refusal is never an answer. -/
theorem refuse_ne_ok {α : Type} {v : Value} {e : Expected} {a : α} : v.refuse e ≠ .ok a := by
  rw [refuse]
  intro h
  obtain ⟨t, -, ht⟩ := Outcome.bind_eq_ok.mp h
  cases ht

/-! ## names -/

/-- a value that can be shown and, if it is bytes, is the bytes of a text -/
def Nameable (v : Value) : Prop := v.Writable ∧ ∀ bs, v = .bytes bs → Text.Utf8.Valid bs

theorem name_bytes_eq_ok_iff {bs : List UInt8} {s : String} :
    (bytes bs).name = .ok s ↔ Text.Utf8.encode s = bs := by
  rw [name, Outcome.bind_eq_ok]
  constructor
  · rintro ⟨u, hu, h⟩
    obtain ⟨t, ht, rfl⟩ := asText_bytes_eq_ok_iff.mp hu
    cases h
    exact ht
  · exact fun h => ⟨.text s, asText_bytes_eq_ok_iff.mpr ⟨s, h, rfl⟩, rfl⟩

/-- what is no bytes can be named if it can be shown -/
theorem nameable_iff_writable {v : Value} (h : ∀ bs, v ≠ .bytes bs) : v.Nameable ↔ v.Writable :=
  ⟨fun hv => hv.1, fun hv => ⟨hv, fun bs hb => absurd hb (h bs)⟩⟩

theorem exists_name_iff (v : Value) : (∃ t, v.name = .ok t) ↔ v.Nameable := by
  cases v with
  | text s =>
    rw [nameable_iff_writable fun bs h => by cases h]
    exact ⟨fun _ => (exists_literal_iff _).mp ⟨_, rfl⟩, fun _ => ⟨s, rfl⟩⟩
  | bytes bs =>
    simp only [name_bytes_eq_ok_iff]
    constructor
    · intro h
      refine ⟨(exists_literal_iff _).mp ⟨_, rfl⟩, ?_⟩
      rintro _ ⟨⟩
      exact h
    · exact fun h => h.2 bs rfl
  | nil | bool | int | float | array | tuple | map =>
    rw [nameable_iff_writable fun bs h => by cases h]
    -- the name of anything else is its literal
    exact exists_literal_iff _

end FullText.Value

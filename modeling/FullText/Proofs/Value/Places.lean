import FullText.Proofs.Value.Legible
import Mathlib.Data.List.Lex

/-!
# Decoding place by place

* `atPlace? v path`         what is at a place of `v`: the path to it has an index for every array;
* `Becomes w x`             `x` is what decoding makes of `w`, as far as it can be seen from outside;
* `FirstFault v g`          `g` is the fault of the first byte string in `v` that is not that of a text;
* `Writes.rel_atPlace?`     what is decoded has the same places, and at each of them what becomes of it;
* `decode_eq_error_iff`     decoding fails with the first fault, and with no other;
* `decode_by_place`         all of this, and what is decoded is decoded to itself.

Paths are compared from their first index on, so of two byte strings the one on the lesser path is the
one further to the left, however deep it is.
-/

namespace FullText.Value

/-- the value at the end of a path, which goes through arrays alone -/
def atPlace? (v : Value) : List Nat → Option Value
  | [] => some v
  | i :: path => (v.items?.bind (·[i]?)).bind (atPlace? · path)

theorem atPlace?_cons {w : Value} {ws : List Value} (h : w.items? = some ws) (i : Nat)
    (path : List Nat) : w.atPlace? (i :: path) = ws[i]?.bind (·.atPlace? path) := by
  rw [atPlace?, h]
  rfl

theorem atPlace?_cons_eq_some_iff {w x : Value} {i : Nat} {path : List Nat} :
    w.atPlace? (i :: path) = some x
      ↔ ∃ ws v, w.items? = some ws ∧ ws[i]? = some v ∧ v.atPlace? path = some x := by
  simp only [atPlace?, Option.bind_eq_some_iff]
  constructor
  · rintro ⟨v, ⟨ws, hw, hv⟩, hx⟩
    exact ⟨ws, v, hw, hv, hx⟩
  · rintro ⟨ws, v, hw, hv, hx⟩
    exact ⟨v, ⟨ws, hw, hv⟩, hx⟩

/-- What is reached through arrays is at some place. -/
theorem reaches_iff {v : Value} {bs : List UInt8} :
    v.Reaches bs ↔ ∃ path, v.atPlace? path = some (.bytes bs) := by
  constructor
  · intro h
    induction h with
    | here bs => exact ⟨[], rfl⟩
    | element items mem _ ih =>
      obtain ⟨path, hp⟩ := ih
      obtain ⟨i, hi⟩ := List.mem_iff_getElem?.mp mem
      exact ⟨i :: path, atPlace?_cons_eq_some_iff.mpr ⟨_, _, items, hi, hp⟩⟩
  · rintro ⟨path, hp⟩
    induction path generalizing v with
    | nil =>
      cases hp
      exact .here bs
    | cons i path ih =>
      obtain ⟨ws, w, hw, hi, hx⟩ := atPlace?_cons_eq_some_iff.mp hp
      exact .element hw (List.mem_of_getElem? hi) (ih hx)

/-! ## what is decoded -/

/-- what decoding makes of a value, seen from outside: bytes are a text, an array is as long as it was
    and of the first kind, and anything else is what it was -/
inductive Becomes : Value → Value → Prop where
  | bytes (s : String) : Becomes (.bytes (Text.Utf8.encode s)) (.text s)
  | array {w : Value} {ws us : List Value} (items : w.items? = some ws)
    (length : us.length = ws.length) : Becomes w (.array us)
  | leaf {w : Value} (bytes : ∀ bs, w ≠ .bytes bs) (items : w.items? = none) : Becomes w w

theorem WritesAll.length_eq {us ws : List Value} (h : WritesAll us ws) : us.length = ws.length := by
  induction ws generalizing us with
  | nil =>
    cases h
    rfl
  | cons w ws ih =>
    cases h with
    | cons _ h => exact congrArg (· + 1) (ih h)

theorem WritesAll.rel_getElem? {us ws : List Value} (h : WritesAll us ws) (i : Nat) :
    Option.Rel (fun w u => Writes u w) ws[i]? us[i]? := by
  induction ws generalizing us i with
  | nil =>
    cases h
    exact .none
  | cons w ws ih =>
    cases h with
    | cons hw h =>
      cases i with
      | zero => exact .some hw
      | succ i => exact ih h i

theorem Writes.becomes {u w : Value} (h : Writes u w) : Becomes w u := by
  cases h with
  | bytes s => exact .bytes s
  | array h | tuple h => exact .array rfl h.length_eq
  | nil | bool | int | float | text | map =>
    refine .leaf (fun bs hb => ?_) rfl
    cases hb

theorem rel_bind {α β : Type} {r : α → β → Prop} {x : Option α} {y : Option β} {f : α → Option Value}
    {g : β → Option Value} (h : Option.Rel r x y)
    (hfg : ∀ a b, r a b → Option.Rel Becomes (f a) (g b)) :
    Option.Rel Becomes (x.bind f) (y.bind g) := by
  cases h with
  | none => exact .none
  | some h => exact hfg _ _ h

/-- A value and what it is decoded to have the same places. -/
theorem Writes.rel_atPlace? {u w : Value} (h : Writes u w) (path : List Nat) :
    Option.Rel Becomes (w.atPlace? path) (u.atPlace? path) := by
  induction path generalizing u w with
  | nil => exact .some h.becomes
  | cons i path ih =>
    cases h with
    | array h | tuple h =>
      rw [atPlace?_cons rfl, atPlace?_cons rfl]
      exact rel_bind (h.rel_getElem? i) fun w u h => ih h
    | nil | bool | int | float | text | bytes | map => exact .none

mutual

/-- What was written is itself a way to write it. -/
theorem Writes.self {u w : Value} (h : Writes u w) : Writes u u := by
  cases h with
  | bytes s => exact .text s
  | array h | tuple h => exact .array (WritesAll.self h)
  | nil | bool | int | float | text | map => constructor

theorem WritesAll.self {us ws : List Value} (h : WritesAll us ws) : WritesAll us us := by
  cases h with
  | nil => exact .nil
  | cons h hs => exact .cons (Writes.self h) (WritesAll.self hs)

end

/-! ## the first fault -/

/-- the fault of the first byte string in a value that is not that of a text -/
def FirstFault (v : Value) (g : Text.Utf8.Fault) : Prop :=
  ∃ path bs, v.atPlace? path = some (.bytes bs) ∧ Text.Utf8.decode bs = .error g
    ∧ ∀ path' < path, ∀ bs', v.atPlace? path' = some (.bytes bs') → Text.Utf8.Valid bs'

theorem not_valid_of_error {bs : List UInt8} {g : Text.Utf8.Fault}
    (h : Text.Utf8.decode bs = .error g) : ¬ Text.Utf8.Valid bs := by
  rintro ⟨s, hs⟩
  rw [Text.Utf8.decode_eq_ok_iff.mpr hs] at h
  cases h

/-- Of two paths one is the lesser, so there is one first fault at most. -/
theorem FirstFault.unique {v : Value} {g g' : Text.Utf8.Fault} (h : FirstFault v g)
    (h' : FirstFault v g') : g = g' := by
  obtain ⟨path, bs, hp, hbad, hfirst⟩ := h
  obtain ⟨path', bs', hp', hbad', hfirst'⟩ := h'
  obtain hlt | heq | hlt := lt_trichotomy path path'
  · exact absurd (hfirst' path hlt bs hp) (not_valid_of_error hbad)
  · subst heq
    rw [hp] at hp'
    cases hp'
    rw [hbad] at hbad'
    exact Except.error.inj hbad'
  · exact absurd (hfirst path' hlt bs' hp') (not_valid_of_error hbad')

/-- The first fault of an array is that of an element, if all elements before it are legible. -/
theorem FirstFault.element {w v : Value} {ws : List Value} {i : Nat} {g : Text.Utf8.Fault}
    (hw : w.items? = some ws) (hi : ws[i]? = some v) (h : FirstFault v g)
    (hbefore : ∀ j < i, ∀ x, ws[j]? = some x → x.Legible) : FirstFault w g := by
  obtain ⟨path, bs, hp, hbad, hfirst⟩ := h
  refine ⟨i :: path, bs, atPlace?_cons_eq_some_iff.mpr ⟨ws, v, hw, hi, hp⟩, hbad, ?_⟩
  intro path' hlt bs' hp'
  cases path' with
  | nil =>
    -- the array itself is no byte string
    cases hp'
    cases hw
  | cons j path' =>
    obtain ⟨ws', x, hw', hj, hx⟩ := atPlace?_cons_eq_some_iff.mp hp'
    rw [hw] at hw'
    cases hw'
    obtain hji | ⟨rfl, hpath⟩ := List.cons_lt_cons_iff.mp hlt
    · exact hbefore j hji x hj bs' (reaches_iff.mpr ⟨path', hx⟩)
    · rw [hi] at hj
      cases hj
      exact hfirst path' hpath bs' hx

mutual

theorem firstFault_of_decode : {v : Value} → {f : Fault} → v.decode = .error f →
    ∃ g, f = .notUtf8 g ∧ FirstFault v g
  | .nil, _, h | .bool _, _, h | .int _, _, h | .float _, _, h | .text _, _, h | .map _, _, h => by
    cases h
  | .bytes bs, f, h => by
    have hb : bytesToText bs = .error f := Outcome.map_eq_error.mp h
    rw [bytesToText] at hb
    cases hd : Text.Utf8.decode bs with
    | ok s =>
      rw [hd] at hb
      cases hb
    | error g =>
      rw [hd] at hb
      cases hb
      exact ⟨g, rfl, [], bs, rfl, hd, fun _ hlt => absurd hlt (List.not_lt_nil _)⟩
  | .array ws, f, h => by
    obtain ⟨g, hf, i, w, hi, hw, hbefore⟩ := firstFault_of_decodeAll (Outcome.map_eq_error.mp h)
    exact ⟨g, hf, hw.element (w := .array ws) rfl hi hbefore⟩
  | .tuple ws, f, h => by
    obtain ⟨g, hf, i, w, hi, hw, hbefore⟩ := firstFault_of_decodeAll (Outcome.map_eq_error.mp h)
    exact ⟨g, hf, hw.element (w := .tuple ws) rfl hi hbefore⟩

theorem firstFault_of_decodeAll : {ws : List Value} → {f : Fault} → decodeAll ws = .error f →
    ∃ g, f = .notUtf8 g ∧ ∃ (i : Nat) (w : Value), ws[i]? = some w ∧ FirstFault w g
      ∧ ∀ j < i, ∀ x, ws[j]? = some x → x.Legible
  | [], _, h => by cases h
  | w :: ws, f, h => by
    obtain h | ⟨u, hu, h⟩ := Outcome.bind_eq_error.mp h
    · obtain ⟨g, hf, hw⟩ := firstFault_of_decode h
      exact ⟨g, hf, 0, w, rfl, hw, fun j hj => absurd hj (Nat.not_lt_zero j)⟩
    · obtain ⟨g, hf, i, x, hi, hx, hbefore⟩ := firstFault_of_decodeAll (Outcome.map_eq_error.mp h)
      refine ⟨g, hf, i + 1, x, hi, hx, fun j hj y hy => ?_⟩
      cases j with
      | zero =>
        cases hy
        exact (exists_decode_iff w).mp ⟨u, hu⟩
      | succ j => exact hbefore j (Nat.lt_of_succ_lt_succ hj) y hy

end

theorem decode_eq_error_iff {v : Value} {f : Fault} :
    v.decode = .error f ↔ ∃ g, f = .notUtf8 g ∧ FirstFault v g := by
  refine ⟨firstFault_of_decode, ?_⟩
  rintro ⟨g, rfl, h⟩
  cases hd : v.decode with
  | error f =>
    obtain ⟨g', rfl, h'⟩ := firstFault_of_decode hd
    rw [h'.unique h]
  | ok u =>
    -- what can be decoded has no fault at all
    obtain ⟨path, bs, hp, hbad, -⟩ := h
    have hlegible := (exists_decode_iff v).mp ⟨u, hd⟩
    exact absurd (hlegible bs (reaches_iff.mpr ⟨path, hp⟩)) (not_valid_of_error hbad)

/-! ## both together -/

/-- what decoding makes of a value, by the places in it -/
structure DecodesByPlace (v : Value) : Prop where
  /-- it fails if and only if the bytes at some place are not those of a text -/
  fails : (∃ f, v.decode = .error f)
    ↔ ∃ path bs, v.atPlace? path = some (.bytes bs) ∧ ¬ Text.Utf8.Valid bs
  /-- and then with the fault of the first of them -/
  first : ∀ f, v.decode = .error f ↔ ∃ g, f = .notUtf8 g ∧ FirstFault v g
  /-- what it gives has the same places, and texts where there were bytes -/
  gives : ∀ u, v.decode = .ok u → ∀ path, Option.Rel Becomes (v.atPlace? path) (u.atPlace? path)
  /-- and there is nothing left to decode in it -/
  again : ∀ u, v.decode = .ok u → u.decode = .ok u

theorem exists_error_iff {v : Value} :
    (∃ f, v.decode = .error f)
      ↔ ∃ path bs, v.atPlace? path = some (.bytes bs) ∧ ¬ Text.Utf8.Valid bs := by
  constructor
  · rintro ⟨f, h⟩
    obtain ⟨g, -, path, bs, hp, hbad, -⟩ := decode_eq_error_iff.mp h
    exact ⟨path, bs, hp, not_valid_of_error hbad⟩
  · rintro ⟨path, bs, hp, hbad⟩
    cases hd : v.decode with
    | error f => exact ⟨f, rfl⟩
    | ok u =>
      have hlegible := (exists_decode_iff v).mp ⟨u, hd⟩
      exact absurd (hlegible bs (reaches_iff.mpr ⟨path, hp⟩)) hbad

/-- A value of any depth: its first fault if there is one, and else the same tree with texts for
    bytes. -/
theorem decode_by_place (v : Value) : DecodesByPlace v where
  fails := exists_error_iff
  first _ := decode_eq_error_iff
  gives _ h path := (decode_eq_ok_iff.mp h).rel_atPlace? path
  again _ h := decode_eq_ok_iff.mpr (decode_eq_ok_iff.mp h).self

/-- A fault that lies deeper comes first if it is further to the left. -/
example : (array [.tuple [.bytes [0x41], .array [.bytes [0xFF]]], .bytes [0xC3]]).decode
    = .error (.notUtf8 ⟨0xFF, 0, 1, .invalidStart⟩) := rfl

end FullText.Value

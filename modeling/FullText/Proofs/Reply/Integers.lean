import FullText.Proofs.Aggregation.Modes
import FullText.Proofs.Search.Acceptance

/-!
# Totals and the ids of cursors

* `Value.Spells v n`       `v` is the integer `n`, or a text that spells it;
* `Value.Cut v n`          `v` is a float, and `n` is what is left of it without its fraction;
* `Value.counted_iff`      where an integer is needed, these are the values that are read;
* `Value.ReadAs v n`       what is read is spelled, unless the value is a float: then it is cut;
* `Reply.ReadsCursor`      so it is for the total and the id of a batch with a cursor;
* `Reply.integers_exact`   and for every total and every id that any decoder finds.

A float is cut to an integer without a word.  So a cursor may seem exhausted that is not: all that the
id says then is that it is less than one.
-/

namespace FullText

namespace Value

/-! ## integers -/

/-- a value is an integer, or the text of one, be it as bytes -/
inductive Spells : Value → Int → Prop where
  | int (n : Int) : Spells (.int n) n
  | text {s : String} {n : Int} (spelled : Numeral.readInt s = .ok n) : Spells (.text s) n
  | bytes {s : String} {n : Int} (spelled : Numeral.readInt s = .ok n) :
    Spells (.bytes (Text.Utf8.encode s)) n

/-- a value is a float, and the integer is the float without its fraction -/
inductive Cut : Value → Int → Prop where
  | mk {negative : Bool} {u : Nat} {h : Representable u} {k : Nat} (lower : k * ulpsPerOne ≤ u)
    (upper : u < (k + 1) * ulpsPerOne) :
    Cut (.float (.finite negative u h)) (if negative then -(k : Int) else k)

/-- truth values spell no integer, though they count as one -/
theorem Spells.ne_bool {v : Value} {n : Int} (h : v.Spells n) (b : Bool) : v ≠ .bool b := by
  rintro rfl
  cases h

theorem Cut.exists_finite {v : Value} {n : Int} (h : v.Cut n) :
    ∃ negative u hu, v = .float (.finite negative u hu) := by
  cases h with
  | mk => exact ⟨_, _, _, rfl⟩

theorem cut_iff {negative : Bool} {u : Nat} {h : Representable u} {n : Int} :
    (float (.finite negative u h)).Cut n ↔ n = Binary64.truncUlps negative u := by
  have hpos : 0 < ulpsPerOne := by decide +kernel
  -- both bounds together say that the magnitude is the quotient
  have hdiv (k : Nat) :
      u / ulpsPerOne = k ↔ k * ulpsPerOne ≤ u ∧ u < (k + 1) * ulpsPerOne := by
    rw [Nat.div_eq_iff hpos, Nat.add_one_mul]
    omega
  constructor
  · rintro ⟨lower, upper⟩
    rw [← (hdiv _).mpr ⟨lower, upper⟩]
    rfl
  · rintro rfl
    obtain ⟨lower, upper⟩ := (hdiv _).mp rfl
    exact .mk lower upper

/-- nothing is left of what is less than one -/
theorem cut_zero {negative : Bool} {u : Nat} {h : Representable u} (hu : u < ulpsPerOne) :
    (float (.finite negative u h)).Cut 0 := by
  rw [cut_iff, Binary64.truncUlps, Nat.div_eq_of_lt hu]
  cases negative <;> rfl

theorem numeral_eq_ok_iff {α : Type} {r : Except Numeral.Fault α} {a : α} :
    numeral r = .ok a ↔ r = .ok a := by
  cases r with
  | error f => exact ⟨nofun, nofun⟩
  | ok b => exact ⟨fun h => congrArg _ (Except.ok.inj h), fun h => congrArg _ (Except.ok.inj h)⟩

/-- Where an integer is needed, integers and their texts are read, and floats are cut. -/
theorem counted_iff {v : Value} {n : Int} :
    ((∀ b, v ≠ .bool b) ∧ v.toInt = .ok n) ↔ v.Spells n ∨ v.Cut n := by
  constructor
  · rintro ⟨hb, h⟩
    cases v with
    | nil | array | tuple | map => cases h
    | bool b => exact absurd rfl (hb b)
    | int m =>
      cases h
      exact .inl (.int _)
    | float x =>
      cases x with
      | nan | infinite => cases h
      | finite negative u hu => exact .inr (cut_iff.mpr (Except.ok.inj h).symm)
    | text s => exact .inl (.text (numeral_eq_ok_iff.mp h))
    | bytes bs =>
      rw [toInt] at h
      obtain ⟨s, hs, hn⟩ := Outcome.bind_eq_ok.mp h
      obtain rfl := bytesToText_eq_ok_iff.mp hs
      exact .inl (.bytes (numeral_eq_ok_iff.mp hn))
  · rintro (h | h)
    · refine ⟨h.ne_bool, ?_⟩
      cases h with
      | int => rfl
      | text spelled => exact numeral_eq_ok_iff.mpr spelled
      | @bytes s _ spelled =>
        rw [toInt, bytesToText_encode]
        exact numeral_eq_ok_iff.mpr spelled
    · obtain ⟨negative, u, hu, rfl⟩ := h.exists_finite
      refine ⟨fun b hb => ?_, congrArg _ (cut_iff.mp h).symm⟩
      cases hb

/-- what an integer that is read has to do with the value that it is read from -/
structure ReadAs (v : Value) (n : Int) : Prop where
  /-- it is the one that the value spells, unless the value is a float -/
  exact : v.Spells n ↔ ∀ x, v ≠ .float x
  /-- of a float it is all but the fraction -/
  cut : ∀ x, v = .float x → v.Cut n

theorem readAs {v : Value} {n : Int} (hb : ∀ b, v ≠ .bool b) (hn : v.toInt = .ok n) :
    v.ReadAs n where
  exact := by
    constructor
    · rintro h x rfl
      cases h
    · intro hx
      refine (counted_iff.mp ⟨hb, hn⟩).resolve_right fun h => ?_
      cases h with
      | mk => exact hx _ rfl
  cut := by
    rintro x rfl
    refine (counted_iff.mp ⟨hb, hn⟩).resolve_left fun h => ?_
    cases h

theorem readAs_zero_iff {v : Value} {n : Int} (hb : ∀ b, v ≠ .bool b) (hn : v.toInt = .ok n) :
    n = 0 ↔ v.Spells 0 ∨ v.Cut 0 := by
  rw [← counted_iff, hn, Except.ok.injEq]
  exact ⟨fun h => ⟨hb, h⟩, fun h => h.2⟩

end Value

namespace Reply

open Value

/-! ## replies -/

/-- the total and the id of a batch are read from their places in a reply with a cursor, and the batch
    is the last one just if nothing but a zero, or less than one, stands for the id -/
def ReadsCursor (reply : Value) (b : Batch) : Prop :=
  ∃ rows id head body c, reply.items? = some [rows, id] ∧ rows.items? = some (head :: body)
    ∧ head.ReadAs b.total ∧ b.cursor = some c ∧ id.ReadAs c
    ∧ (b.hasMore = false ↔ id.Spells 0 ∨ id.Cut 0)

theorem hasMore_eq_false_iff {b : Batch} {c : Int} (h : b.cursor = some c) :
    b.hasMore = false ↔ c = 0 := by
  rw [Batch.hasMore, h]
  exact bne_eq_false_iff_eq

theorem readsCursor {reply : Value} {b : Batch} (h : Batch.decodeCursor reply = .ok b) :
    ReadsCursor reply b := by
  obtain ⟨rows, id, c, hr, hid, hc, hb, head, body, hrows, hhead, ht, -⟩ :=
    Batch.decodeCursor_eq_ok_iff.mp h
  refine ⟨rows, id, head, body, c, hr, hrows, readAs hhead ht, hb, readAs hid hc, ?_⟩
  rw [hasMore_eq_false_iff hb, readAs_zero_iff hid hc]

/-- what the integers of a reply have to do with the values in their places -/
structure Integers (reply : Value) : Prop where
  search : ∀ s r, SearchResult.decode s reply = .ok r →
    ∃ head body, reply.items? = some (head :: body) ∧ head.ReadAs r.total
  plain : ∀ s b, s.withCursor = false → Batch.decode s reply = .ok b →
    ∃ head body, reply.items? = some (head :: body) ∧ head.ReadAs b.total ∧ b.cursor = none
  withCursor : ∀ s b, s.withCursor = true → Batch.decode s reply = .ok b → ReadsCursor reply b
  cursor : ∀ b, Batch.decodeCursor reply = .ok b → ReadsCursor reply b

/-- Whatever a decoder makes of a reply: a total and the id of a cursor are exactly the integers that
    their places spell, if and only if there are no floats. -/
theorem integers_exact (reply : Value) : Integers reply where
  search s r h := by
    obtain ⟨head, body, hr, ht, -⟩ := SearchResult.decode_eq_ok_iff.mp h
    obtain ⟨hb, hn⟩ := expectInt_eq_ok_iff.mp ht
    exact ⟨head, body, hr, readAs hb hn⟩
  plain s b hs h := by
    obtain ⟨⟨head, body, hr, hb, hn, -⟩, hc⟩ := (Batch.decode_plain hs).mp h
    exact ⟨head, body, hr, readAs hb hn, hc⟩
  withCursor s b hs h := by
    rw [Batch.decode, if_pos hs] at h
    exact readsCursor h
  cursor b h := readsCursor h

/-- half of the ulps in one -/
def halfUlps : Nat := Nat.pow 2 1073

/-- one half -/
def half : Value := .float (.finite false halfUlps (by decide +kernel))

/-- no rows, and a cursor whose id is one half -/
def halfReply : Value := .array [.array [.int 0], half]

/-- An id of one half spells no integer, and is taken for that of an exhausted cursor. -/
theorem hasMore_of_half :
    (∃ b, Batch.decodeCursor halfReply = .ok b ∧ b.cursor = some 0 ∧ b.hasMore = false)
      ∧ ∀ n, ¬ half.Spells n := by
  have hlt : halfUlps < ulpsPerOne := by decide +kernel
  have hzero : half.toInt = .ok 0 := (counted_iff.mpr (.inr (cut_zero hlt))).2
  refine ⟨⟨⟨0, [], some 0⟩, ?_, rfl, rfl⟩, nofun⟩
  exact Batch.decodeCursor_eq_ok_iff.mpr ⟨.array [.int 0], half, 0, rfl, nofun, hzero, rfl,
    .int 0, [], rfl, nofun, rfl, .nil⟩

end Reply

end FullText

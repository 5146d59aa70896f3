import FullText.Proofs.Reply.Fields
import FullText.Proofs.Value.Numeric
import FullText.Reply.Search

/-!
# One document of a search reply

* `Slots`                        the parts of a document in a reply;
* `ReplyShape.block`             the elements that they take: those that were asked for, in order;
* `ReplyShape.exists_block_iff`  the blocks are the lists of the right length;
* `Slots.Fit`                    the parts can be read;
* `Slots.Say`                    the document that the parts say;
* `Document.ofBlock_eq_ok_iff`   this is what the decoder makes of a block;
* `Document.exists_ofBlock_iff`  and it makes a document of no others than those that can be read.

The decoder finds the parts by two computations of its own, the stride and the places of the slots.
`ReplyShape.block` has neither: it lists the parts, and that they are found again is a theorem.
-/

namespace FullText

open Value

/-- the parts of a document in a reply, which has those that were asked for -/
structure Slots where
  id : Value
  score : Value
  payload : Value
  fields : Value

/-! ## blocks -/

/-- the elements of a document: its id, and then score, payload and fields as they were asked for -/
def ReplyShape.block (s : ReplyShape) (x : Slots) : List Value :=
  x.id :: ((if s.withScores then [x.score] else []) ++ (if s.withPayloads then [x.payload] else [])
    ++ (if s.noContent then [] else [x.fields]))

theorem ReplyShape.length_block (s : ReplyShape) (x : Slots) : (s.block x).length = s.stride := by
  unfold block stride
  cases s.withScores <;> cases s.withPayloads <;> cases s.noContent <;> rfl

/-- the first element, if there is to be one -/
theorem exists_slot {b : Bool} {n : Nat} {vs : List Value} (h : vs.length = b.toNat + n) :
    ∃ v rest, vs = (if b then [v] else []) ++ rest ∧ rest.length = n := by
  cases b with
  | false => exact ⟨.nil, vs, rfl, by rw [h, Bool.toNat_false, Nat.zero_add]⟩
  | true =>
    rw [Bool.toNat_true] at h
    obtain ⟨v, rest, rfl⟩ := List.exists_cons_of_length_pos (by omega : 0 < vs.length)
    rw [List.length_cons] at h
    exact ⟨v, rest, rfl, by omega⟩

/-- The blocks are the lists of the right length. -/
theorem ReplyShape.exists_block_iff {s : ReplyShape} {vs : List Value} :
    (∃ x, vs = s.block x) ↔ vs.length = s.stride := by
  constructor
  · rintro ⟨x, rfl⟩
    exact s.length_block x
  · intro h
    unfold stride at h
    rw [Nat.add_assoc, Nat.add_assoc] at h
    obtain ⟨id, vs, rfl, h₁⟩ := exists_slot (b := true) h
    obtain ⟨score, vs, rfl, h₂⟩ := exists_slot h₁
    obtain ⟨payload, vs, rfl, h₃⟩ := exists_slot h₂
    obtain ⟨fields, vs, rfl, h₄⟩ := exists_slot (n := 0) h₃
    rw [List.length_eq_zero_iff.mp h₄]
    refine ⟨⟨id, score, payload, fields⟩, ?_⟩
    unfold block
    cases s.withScores <;> cases s.withPayloads <;> cases s.noContent <;> rfl

/-! ## the parts -/

namespace Slots

/-- a payload is nil, a text, or the bytes of one -/
def PayloadFits (v : Value) : Prop :=
  v = .nil ∨ (∃ s, v = .text s) ∨ ∃ bs, v = .bytes bs ∧ Text.Utf8.Valid bs

/-- the parts that were asked for can be read -/
structure Fit (s : ReplyShape) (x : Slots) : Prop where
  id : x.id.Nameable
  score : s.withScores = true → x.score.Numeric
  payload : s.withPayloads = true → PayloadFits x.payload
  fields : s.noContent = false → Reply.Readable x.fields

/-- the document that the parts say, as far as they were asked for -/
structure Say (s : ReplyShape) (x : Slots) (d : Document) : Prop where
  id : x.id.name = .ok d.id
  score : if s.withScores then ∃ y, x.score.toFloat = .ok y ∧ d.score = some y else d.score = none
  payload : if s.withPayloads then Writes (d.payload.elim .nil .text) x.payload
    else d.payload = none
  fields : if !s.noContent then Reply.Binds x.fields d.fields else d.fields = {}

/-! ## reading them one by one -/

/-- the score, if it was asked for -/
def readScore (asked : Bool) (v : Value) : Except Fault (Option Binary64) :=
  if asked then some <$> v.expectFloat .documentScore else .ok none

/-- the payload, if it was asked for, as it is before anything is expected of it -/
def readPayload (asked : Bool) (v : Value) : Except Fault Value := if asked then v.asText else .ok .nil

/-- the fields, if they were asked for -/
def readFields (asked : Bool) (v : Value) : Except Fault (Bindings Value) :=
  if asked then Reply.pairs v else .ok {}

theorem readScore_eq_ok_iff {asked : Bool} {v : Value} {y : Option Binary64} :
    readScore asked v = .ok y ↔ if asked then ∃ z, v.toFloat = .ok z ∧ y = some z else y = none := by
  cases asked with
  | false => exact ⟨fun h => (Except.ok.inj h).symm, fun h => congrArg Except.ok h.symm⟩
  | true =>
    show some <$> v.expectFloat .documentScore = Except.ok y ↔ ∃ z, v.toFloat = .ok z ∧ y = some z
    simp only [Outcome.map_eq_ok, expectFloat_eq_ok_iff, eq_comm (a := y)]

theorem payloadText_eq_ok_iff {v : Value} {p : Option String} :
    Document.payloadText v = .ok p ↔ v = p.elim .nil .text := by
  constructor
  · intro h
    cases v with
    | nil | text s =>
      cases h
      rfl
    | bool | int | float | bytes | array | tuple | map => cases h
  · rintro rfl
    cases p with
    | none => rfl
    | some s => rfl

theorem asText_eq_ok_iff {v : Value} {p : Option String} :
    v.asText = .ok (p.elim .nil .text) ↔ Writes (p.elim .nil .text) v := by
  constructor
  · intro h
    cases v with
    | bytes bs =>
      obtain ⟨s, rfl, hs⟩ := asText_bytes_eq_ok_iff.mp h
      rw [hs]
      exact .bytes s
    | nil | bool | int | float | text | array | tuple | map =>
      rw [Except.ok.inj h]
      cases p with
      | none => exact .nil
      | some s => exact .text s
  · intro h
    cases p with
    | none =>
      cases h
      rfl
    | some s => exact h.asText_eq

theorem readPayload_eq_ok_iff {asked : Bool} {v : Value} {p : Option String} :
    (∃ u, readPayload asked v = .ok u ∧ Document.payloadText u = .ok p)
      ↔ if asked then Writes (p.elim .nil .text) v else p = none := by
  simp only [payloadText_eq_ok_iff, exists_eq_right]
  cases asked with
  | true => exact asText_eq_ok_iff
  | false =>
    cases p with
    | none => exact ⟨fun _ => rfl, fun _ => rfl⟩
    | some s => exact ⟨fun h => (by cases h), fun h => (by cases h)⟩

theorem readFields_eq_ok_iff {asked : Bool} {v : Value} {b : Bindings Value} :
    readFields asked v = .ok b ↔ if asked then Reply.Binds v b else b = {} := by
  cases asked with
  | false => exact ⟨fun h => (Except.ok.inj h).symm, fun h => congrArg Except.ok h.symm⟩
  | true => exact Reply.pairs_eq_ok_iff

end Slots

/-! ## one document -/

/-- The slots that the decoder looks at are those of the block. -/
theorem Document.ofBlock_block (s : ReplyShape) (x : Slots) :
    ofBlock s (s.block x) = (do
      let id ← x.id.name
      let score ← Slots.readScore s.withScores x.score
      let payload ← Slots.readPayload s.withPayloads x.payload
      let fields ← Slots.readFields (!s.noContent) x.fields
      let payload ← payloadText payload
      return ⟨id, score, payload, fields⟩) := by
  unfold ofBlock ReplyShape.block Slots.readScore Slots.readPayload Slots.readFields
  -- every combination of options has slots of its own
  cases s.withScores <;> cases s.withPayloads <;> cases s.noContent <;> rfl

/-- A block gives the document that its parts say, and nothing else. -/
theorem Document.ofBlock_eq_ok_iff {s : ReplyShape} {x : Slots} {d : Document} :
    ofBlock s (s.block x) = .ok d ↔ x.Say s d := by
  rw [ofBlock_block]
  constructor
  · intro h
    obtain ⟨id, hid, h⟩ := Outcome.bind_eq_ok.mp h
    obtain ⟨score, hscore, h⟩ := Outcome.bind_eq_ok.mp h
    obtain ⟨u, hu, h⟩ := Outcome.bind_eq_ok.mp h
    obtain ⟨fields, hfields, h⟩ := Outcome.bind_eq_ok.mp h
    obtain ⟨payload, hpayload, h⟩ := Outcome.bind_eq_ok.mp h
    cases h
    exact ⟨hid, Slots.readScore_eq_ok_iff.mp hscore, Slots.readPayload_eq_ok_iff.mp ⟨u, hu, hpayload⟩,
      Slots.readFields_eq_ok_iff.mp hfields⟩
  · rintro ⟨hid, hscore, hpayload, hfields⟩
    obtain ⟨u, hu, hpayload⟩ := Slots.readPayload_eq_ok_iff.mpr hpayload
    rw [hid, Outcome.bind_eq_ok]
    refine ⟨_, rfl, Outcome.bind_eq_ok.mpr ⟨_, Slots.readScore_eq_ok_iff.mpr hscore, ?_⟩⟩
    refine Outcome.bind_eq_ok.mpr ⟨u, hu, ?_⟩
    refine Outcome.bind_eq_ok.mpr ⟨_, Slots.readFields_eq_ok_iff.mpr hfields, ?_⟩
    exact Outcome.bind_eq_ok.mpr ⟨_, hpayload, rfl⟩

theorem Slots.exists_payload_iff {v : Value} :
    (∃ p : Option String, Writes (p.elim .nil .text) v) ↔ PayloadFits v := by
  constructor
  · rintro ⟨_ | s, h⟩
    · cases h
      exact .inl rfl
    · cases h with
      | text => exact .inr (.inl ⟨s, rfl⟩)
      | bytes => exact .inr (.inr ⟨_, rfl, s, rfl⟩)
  · rintro (rfl | ⟨s, rfl⟩ | ⟨bs, rfl, s, rfl⟩)
    · exact ⟨none, .nil⟩
    · exact ⟨some s, .text s⟩
    · exact ⟨some s, .bytes s⟩

theorem Slots.exists_say_iff {s : ReplyShape} {x : Slots} : (∃ d, x.Say s d) ↔ x.Fit s := by
  constructor
  · rintro ⟨d, hid, hscore, hpayload, hfields⟩
    refine ⟨(exists_name_iff _).mp ⟨_, hid⟩, fun h => ?_, fun h => ?_, fun h => ?_⟩
    · rw [if_pos h] at hscore
      obtain ⟨y, hy, -⟩ := hscore
      exact ⟨y, hy⟩
    · rw [if_pos h] at hpayload
      exact exists_payload_iff.mp ⟨_, hpayload⟩
    · rw [if_pos (by rw [h]; rfl)] at hfields
      exact Reply.exists_pairs_iff.mp ⟨_, Reply.pairs_eq_ok_iff.mpr hfields⟩
  · intro h
    obtain ⟨id, hid⟩ := (exists_name_iff _).mpr h.id
    have hscore : ∃ y, if s.withScores then ∃ z, x.score.toFloat = .ok z ∧ y = some z
        else y = none := by
      split
      next hs =>
        obtain ⟨z, hz⟩ := h.score hs
        exact ⟨some z, z, hz, rfl⟩
      next => exact ⟨none, rfl⟩
    have hpayload : ∃ p : Option String, if s.withPayloads then
        Writes (p.elim .nil .text) x.payload else p = none := by
      split
      next hs => exact exists_payload_iff.mpr (h.payload hs)
      next => exact ⟨none, rfl⟩
    have hfields : ∃ b : Bindings Value, if !s.noContent then Reply.Binds x.fields b
        else b = {} := by
      split
      next hs =>
        obtain ⟨b, hb⟩ := Reply.exists_pairs_iff.mpr (h.fields (by simpa using hs))
        exact ⟨b, Reply.pairs_eq_ok_iff.mp hb⟩
      next => exact ⟨{}, rfl⟩
    obtain ⟨score, hscore⟩ := hscore
    obtain ⟨payload, hpayload⟩ := hpayload
    obtain ⟨fields, hfields⟩ := hfields
    exact ⟨⟨id, score, payload, fields⟩, hid, hscore, hpayload, hfields⟩

/-- A list of the right length gives a document if it is a block whose parts can be read. -/
theorem Document.exists_ofBlock_iff {s : ReplyShape} {vs : List Value} (h : vs.length = s.stride) :
    (∃ d, ofBlock s vs = .ok d) ↔ ∃ x : Slots, vs = s.block x ∧ x.Fit s := by
  constructor
  · rintro ⟨d, hd⟩
    obtain ⟨x, rfl⟩ := ReplyShape.exists_block_iff.mpr h
    exact ⟨x, rfl, Slots.exists_say_iff.mp ⟨d, ofBlock_eq_ok_iff.mp hd⟩⟩
  · rintro ⟨x, rfl, hx⟩
    obtain ⟨d, hd⟩ := Slots.exists_say_iff.mpr hx
    exact ⟨d, ofBlock_eq_ok_iff.mpr hd⟩

end FullText

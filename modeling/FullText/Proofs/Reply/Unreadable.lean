import FullText.Proofs.Aggregation.Modes
import FullText.Proofs.Search.Acceptance
import FullText.Proofs.Value.Unread

/-!
# Totals, ids and scores that are no numbers

* `FailsAt o stops`         the outcome `o` fails with the fault of a value at which it stops, and for a
                            number it fails in no other way;
* `SearchResult.Stops`      a search reply is read up to a value that is needed as a number and is none;
* `Batch.Stops`             so is the reply of an aggregation, with a cursor or without one;
* `Reply.unread_numbers`    these are the values at which the decoders fail so.

A number that is too large is no fault of the reply to the decoders, though the reply is what it is in.
-/

namespace FullText

open Value

/-! ## fields -/

namespace Reply

variable {f : Fault}

theorem not_ofNumber_of_named {e : Value × Value} (h : named e = .error f) : ¬ f.OfNumber := by
  rw [named] at h
  obtain h | ⟨n, -, h⟩ := Outcome.bind_eq_error.mp h
  · exact not_ofNumber_of_name h
  · exact not_ofNumber_of_decode e.2 (Outcome.map_eq_error.mp h)

theorem not_ofNumber_of_pairs {v : Value} (h : pairs v = .error f) : ¬ f.OfNumber := by
  rw [pairs] at h
  split at h
  next =>
    obtain ⟨_, _, -, h, -⟩ := Outcome.mapM_eq_error.mp (Outcome.map_eq_error.mp h)
    exact not_ofNumber_of_named h
  next => exact not_ofNumber_of_refuse rfl h

end Reply

/-! ## search replies -/

namespace Document

variable {s : ReplyShape} {x : Slots} {f : Fault}

theorem ofBlock_of_score (hid : x.id.Nameable) (hs : s.withScores = true)
    (hf : x.score.expectFloat .documentScore = .error f) : ofBlock s (s.block x) = .error f := by
  obtain ⟨id, hid⟩ := (exists_name_iff _).mpr hid
  rw [ofBlock_block, Outcome.bind_eq_error]
  refine .inr ⟨id, hid, Outcome.bind_eq_error.mpr (.inl ?_)⟩
  rw [Slots.readScore, if_pos hs]
  exact Outcome.map_eq_error.mpr hf

theorem not_ofNumber_of_payloadText {v : Value} (h : payloadText v = .error f) : ¬ f.OfNumber := by
  intro hf
  cases v with
  | nil | text => cases h
  | bool | int | float | bytes | array | tuple | map =>
    cases h
    cases hf

/-- Of the parts of a document only the score is a number. -/
theorem score_of_ofNumber (hf : f.OfNumber) (h : ofBlock s (s.block x) = .error f) :
    x.id.Nameable ∧ s.withScores = true ∧ ¬ x.score.Numeric := by
  rw [ofBlock_block] at h
  obtain h | ⟨id, hid, h⟩ := Outcome.bind_eq_error.mp h
  · exact absurd hf (not_ofNumber_of_name h)
  obtain h | ⟨score, -, h⟩ := Outcome.bind_eq_error.mp h
  · rw [Slots.readScore] at h
    split at h
    next hs =>
      refine ⟨(exists_name_iff _).mp ⟨id, hid⟩, hs, ?_⟩
      rintro ⟨y, hy⟩
      have hok : x.score.expectFloat .documentScore = .ok y := expectFloat_eq_ok_iff.mpr hy
      rw [Outcome.map_eq_error.mp h] at hok
      cases hok
    next => cases h
  obtain h | ⟨payload, -, h⟩ := Outcome.bind_eq_error.mp h
  · rw [Slots.readPayload] at h
    split at h
    next => exact absurd hf (not_ofNumber_of_asText h)
    next => cases h
  obtain h | ⟨fields, -, h⟩ := Outcome.bind_eq_error.mp h
  · rw [Slots.readFields] at h
    split at h
    next => exact absurd hf (Reply.not_ofNumber_of_pairs h)
    next => cases h
  obtain h | ⟨_, -, h⟩ := Outcome.bind_eq_error.mp h
  · exact absurd hf (not_ofNumber_of_payloadText h)
  · cases h

end Document

/-- how an outcome fails that cannot be had if there are certain values -/
structure FailsAt {α : Type} (outcome : Except Fault α) (stops : Expected → Value → Prop) : Prop where
  /-- it fails with the fault of such a value -/
  unread : ∀ e v, stops e v → ∃ f, outcome = .error f ∧ v.Unread e f
  /-- there is one whenever it fails for a number -/
  stopped : ∀ f, f.OfNumber → outcome = .error f → ∃ e v, stops e v ∧ v.Unread e f
  /-- it is out of range if there is one that is too large, and only then -/
  outOfRange : outcome = .error .outOfRange ↔ ∃ e v, stops e v ∧ v.TooLarge e

theorem FailsAt.of_unread {α : Type} {outcome : Except Fault α} {stops : Expected → Value → Prop}
    (hunread : ∀ e v, stops e v → ∃ f, outcome = .error f ∧ v.Unread e f)
    (hstops : ∀ f, f.OfNumber → outcome = .error f → ∃ e v, stops e v) : FailsAt outcome stops := by
  have hstopped : ∀ f, f.OfNumber → outcome = .error f → ∃ e v, stops e v ∧ v.Unread e f := by
    intro f hf h
    obtain ⟨e, v, hv⟩ := hstops f hf h
    obtain ⟨g, hg, hfault⟩ := hunread e v hv
    rw [h] at hg
    cases hg
    exact ⟨e, v, hv, hfault⟩
  refine ⟨hunread, hstopped, ?_, ?_⟩
  · intro h
    obtain ⟨e, v, hv, hfault⟩ := hstopped _ .outOfRange h
    exact ⟨e, v, hv, hfault.outOfRange.mp rfl⟩
  · rintro ⟨e, v, hv, hlarge⟩
    obtain ⟨f, hf, hfault⟩ := hunread e v hv
    rw [hf, hfault.outOfRange.mpr hlarge]

namespace SearchResult

/-- A search reply is read as far as a value that is needed as a number and is none: the total, or the
    score of a document after others that fit. -/
inductive Stops (s : ReplyShape) (reply : Value) : Expected → Value → Prop where
  | total {head : Value} {body : List Value} (items : reply.items? = some (head :: body))
    (bad : ¬ head.Whole) : Stops s reply .resultTotal head
  | score {head : Value} {body : List Value} {i : Nat} {x : Slots}
    (items : reply.items? = some (head :: body)) (total : head.Whole) (even : s.stride ∣ body.length)
    (lt : i < body.length / s.stride) (here : Reply.slice s.stride i (head :: body) = s.block x)
    (earlier : ∀ j < i, ∃ y : Slots,
      Reply.slice s.stride j (head :: body) = s.block y ∧ y.Fit s)
    (id : x.id.Nameable) (asked : s.withScores = true) (bad : ¬ x.score.Numeric) :
    Stops s reply .documentScore x.score

variable {s : ReplyShape} {reply : Value}

theorem exists_ofBlock_slice_iff {head : Value} {body : List Value} {i : Nat}
    (hi : i < body.length / s.stride) (hd : s.stride ∣ body.length) :
    (∃ d, Document.ofBlock s (Reply.slice s.stride i (head :: body)) = .ok d)
      ↔ ∃ x : Slots, Reply.slice s.stride i (head :: body) = s.block x ∧ x.Fit s :=
  Document.exists_ofBlock_iff (Reply.length_slice hi hd)

theorem decode_of_blocks {head : Value} {body : List Value} {f : Fault}
    (h : reply.items? = some (head :: body)) (hw : head.Whole) (hd : s.stride ∣ body.length) :
    decode s reply = .error f
      ↔ (Reply.blocks s.stride (body.length / s.stride) body).mapM (Document.ofBlock s)
          = .error f := by
  obtain ⟨total, ht⟩ := exists_expectInt_iff.mpr hw
  rw [decode_of_dvd h hd, ht]
  exact Outcome.map_eq_error

theorem unread_of_stops {e : Expected} {v : Value} (h : Stops s reply e v) :
    ∃ f, decode s reply = .error f ∧ v.Unread e f := by
  cases h with
  | total items bad =>
    obtain ⟨f, hf, hfault⟩ := unread_int (e := .resultTotal) (by decide) bad
    exact ⟨f, decode_of_total items hf, hfault⟩
  | @score head body i x items total even lt here earlier id asked bad =>
    obtain ⟨f, hf, hfault⟩ := unread_float bad
    have hget : (Reply.blocks s.stride (body.length / s.stride) body)[i]? = some (s.block x) :=
      here ▸ Reply.getElem?_blocks_slice lt
    have hblock := Document.ofBlock_of_score id asked hf
    refine ⟨f, (decode_of_blocks items total even).mpr ?_, hfault⟩
    refine Outcome.mapM_eq_error.mpr ⟨i, _, hget, hblock, fun j hj b hb => ?_⟩
    obtain rfl : b = Reply.slice s.stride j (head :: body) := Reply.eq_slice_of_blocks hb
    exact (exists_ofBlock_slice_iff (Nat.lt_trans hj lt) even).mpr (earlier j hj)

theorem exists_stops_of_ofNumber {f : Fault} (hf : f.OfNumber) (h : decode s reply = .error f) :
    ∃ e v, Stops s reply e v := by
  obtain ⟨head, body, hr⟩ : ∃ head body, reply.items? = some (head :: body) := by
    by_contra hr
    rw [decode_of_empty fun head body h => hr ⟨head, body, h⟩] at h
    exact not_ofNumber_of_refuse rfl h hf
  by_cases hw : head.Whole
  · have hd : s.stride ∣ body.length := by
      by_contra hd
      obtain ⟨total, ht⟩ := exists_expectInt_iff.mpr hw
      rw [decode_of_not_dvd hr ht hd] at h
      cases h
      cases hf
    obtain ⟨i, b, hb, he, hall⟩ := Outcome.mapM_eq_error.mp ((decode_of_blocks hr hw hd).mp h)
    have hi := Reply.lt_of_blocks hb
    obtain rfl : b = Reply.slice s.stride i (head :: body) := Reply.eq_slice_of_blocks hb
    obtain ⟨x, hx⟩ := ReplyShape.exists_block_iff.mpr (Reply.length_slice hi hd)
    obtain ⟨hid, hs, hbad⟩ := Document.score_of_ofNumber hf (hx ▸ he)
    refine ⟨_, _, .score hr hw hd hi hx (fun j hj => ?_) hid hs hbad⟩
    have hj' := Nat.lt_trans hj hi
    exact (exists_ofBlock_slice_iff hj' hd).mp (hall j hj _ (Reply.getElem?_blocks_slice hj'))
  · exact ⟨_, _, .total hr hw⟩

theorem failsAt (s : ReplyShape) (reply : Value) : FailsAt (decode s reply) (Stops s reply) :=
  .of_unread (fun _ _ h => unread_of_stops h) fun _ hf h => exists_stops_of_ofNumber hf h

end SearchResult

/-! ## replies of aggregations and cursors -/

namespace Batch

/-- the rows are all of a reply without a cursor, and in front of the id with one, which is read -/
def RowsAt (withCursor : Bool) (reply rows : Value) : Prop :=
  if withCursor then ∃ id, reply.items? = some [rows, id] ∧ id.Whole else rows = reply

/-- The reply of an aggregation is read as far as a value that is needed as a number and is none: the
    id of the cursor, or the total in front of the rows. -/
inductive Stops (withCursor : Bool) (reply : Value) : Expected → Value → Prop where
  | id {rows id : Value} (asked : withCursor = true) (items : reply.items? = some [rows, id])
    (bad : ¬ id.Whole) : Stops withCursor reply .cursorId id
  | total {rows head : Value} {body : List Value} (place : RowsAt withCursor reply rows)
    (items : rows.items? = some (head :: body)) (bad : ¬ head.Whole) :
    Stops withCursor reply .aggregationTotal head

variable {reply rows : Value} {cursor : Option Int}

theorem decodeRows_of_total {head : Value} {body : List Value} {f : Fault}
    (h : rows.items? = some (head :: body)) (ht : head.expectInt .aggregationTotal = .error f) :
    decodeRows cursor rows = .error f := by
  rw [decodeRows, h]
  exact Outcome.bind_eq_error.mpr (.inl ht)

theorem exists_total_of_ofNumber {f : Fault} (hf : f.OfNumber)
    (h : decodeRows cursor rows = .error f) :
    ∃ head body, rows.items? = some (head :: body) ∧ ¬ head.Whole := by
  rw [decodeRows] at h
  split at h
  next head body hr =>
    refine ⟨head, body, hr, fun hw => ?_⟩
    obtain ⟨total, ht⟩ := exists_expectInt_iff.mpr hw
    rw [ht] at h
    obtain ⟨_, _, -, h, -⟩ := Outcome.mapM_eq_error.mp (Outcome.map_eq_error.mp h)
    exact Reply.not_ofNumber_of_pairs h hf
  next => exact absurd hf (not_ofNumber_of_refuse rfl h)

theorem failsAt_cursor (reply : Value) : FailsAt (decodeCursor reply) (Stops true reply) := by
  refine .of_unread (fun e v h => ?_) fun f hf h => ?_
  · cases h with
    | id _ items bad =>
      obtain ⟨f, hf, hfault⟩ := unread_int (e := .cursorId) (by decide) bad
      refine ⟨f, ?_, hfault⟩
      rw [decodeCursor, items]
      exact Outcome.bind_eq_error.mpr (.inl hf)
    | total place items bad =>
      obtain ⟨id, hr, hid⟩ := place
      obtain ⟨c, hc⟩ := exists_expectInt_iff.mpr hid
      obtain ⟨f, hf, hfault⟩ := unread_int (e := .aggregationTotal) (by decide) bad
      refine ⟨f, ?_, hfault⟩
      rw [decodeCursor, hr]
      exact Outcome.bind_eq_error.mpr (.inr ⟨c, hc, decodeRows_of_total items hf⟩)
  · rw [decodeCursor] at h
    split at h
    next rows id hr =>
      by_cases hid : id.Whole
      · obtain ⟨c, hc⟩ := exists_expectInt_iff.mpr hid
        rw [hc] at h
        obtain ⟨head, body, hrows, hbad⟩ := exists_total_of_ofNumber hf h
        exact ⟨_, _, .total ⟨id, hr, hid⟩ hrows hbad⟩
      · exact ⟨_, _, .id rfl hr hid⟩
    next => exact absurd hf (not_ofNumber_of_refuse rfl h)

theorem failsAt_plain (reply : Value) :
    FailsAt (decodeRows none reply) (Stops false reply) := by
  refine .of_unread (fun e v h => ?_) fun f hf h => ?_
  · cases h with
    | id asked => cases asked
    | total place items bad =>
      obtain rfl := place
      obtain ⟨f, hf, hfault⟩ := unread_int (e := .aggregationTotal) (by decide) bad
      exact ⟨f, decodeRows_of_total items hf, hfault⟩
  · obtain ⟨head, body, hr, hbad⟩ := exists_total_of_ofNumber hf h
    exact ⟨_, _, .total rfl hr hbad⟩

theorem failsAt (s : ReplyShape) (reply : Value) :
    FailsAt (decode s reply) (Stops s.withCursor reply) := by
  rw [decode]
  cases s.withCursor with
  | true => exact failsAt_cursor reply
  | false => exact failsAt_plain reply

end Batch

/-! ## all replies -/

namespace Reply

/-- how the decoders fail at a value that is needed as a number and is none -/
structure UnreadNumbers (reply : Value) : Prop where
  search : ∀ s, FailsAt (SearchResult.decode s reply) (SearchResult.Stops s reply)
  aggregate : ∀ s, FailsAt (Batch.decode s reply) (Batch.Stops s.withCursor reply)
  cursor : FailsAt (Batch.decodeCursor reply) (Batch.Stops true reply)

/-- Whatever the reply: where a total, the id of a cursor or a score cannot be read, the fault is one of
    the reply, and shows the value, if and only if the value is not too large and can be shown.  No
    decoder fails for a number that is anywhere else. -/
theorem unread_numbers (reply : Value) : UnreadNumbers reply where
  search s := SearchResult.failsAt s reply
  aggregate s := Batch.failsAt s reply
  cursor := Batch.failsAt_cursor reply

/-- a total that is infinite, and no documents -/
def infiniteReply : Value := .array [.float (.infinite false)]

/-- An infinite total is out of range, which is no fault of the reply. -/
theorem unread_infinite_total :
    SearchResult.Stops {} infiniteReply .resultTotal (.float (.infinite false))
      ∧ SearchResult.decode {} infiniteReply = .error .outOfRange
      ∧ ¬ Fault.OfReply .outOfRange := by
  refine ⟨.total rfl ?_, rfl, nofun⟩
  rintro ⟨-, n, hn⟩
  cases hn

end Reply

end FullText

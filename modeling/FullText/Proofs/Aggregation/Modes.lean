import FullText.Aggregation.Call
import FullText.Client
import FullText.Proofs.Cursor.Engine
import FullText.Proofs.Dialogue
import FullText.Proofs.Value.Numeric

/-!
# Replies with a cursor and replies without one are never mistaken for each other

* `Batch.RowsOf v b`              the value `v` is a total and then the rows of the batch `b`;
* `Batch.decode_plain`            without a cursor these are the replies that are accepted;
* `Batch.decode_withCursor`       with one, it is such a value and then the id of the cursor;
* `Batch.Apart`                   no reply is accepted both ways, and either way refuses the other's;
* `AnswersAggregations`           the other side reads an aggregation by its grammar alone;
* `Client.aggregate_as_asked`     the tokens ask for a cursor if and only if the decoder expects one,
                                  so the rows of an engine come back as they were found.

A reply does not say which of the two it is, and both may have two elements.  What tells them apart is
the first one: it is a total without a cursor and an array with one, and no array is a number.
-/

namespace FullText

open Value

/-! ## arrays are no numbers, and neither are rows -/

namespace Value

theorem expectInt_of_items {v : Value} {vs : List Value} (e : Expected) (h : v.items? = some vs) :
    v.expectInt e = v.refuse e := by
  cases v with
  | array | tuple => rfl
  | nil | bool | int | float | text | bytes | map => cases h

/-- What lists pairs is nil, an array or a mapping. -/
theorem expectInt_of_pairs {v : Value} {row : Bindings Value} (e : Expected)
    (h : Reply.pairs v = .ok row) : v.expectInt e = v.refuse e := by
  cases v with
  | nil | array | tuple | map => rfl
  | bool | int | float | text | bytes => exact absurd h refuse_ne_ok

theorem Writable.of_mem {w v : Value} {vs : List Value} (h : w.Writable) (hw : w.items? = some vs)
    (hv : v ∈ vs) : v.Writable :=
  (writable_iff_of_items hw).mp h v hv

end Value

/-! ## what is accepted -/

namespace Batch

/-- a total and then the rows of a batch, in order -/
def RowsOf (v : Value) (b : Batch) : Prop :=
  ∃ head body, v.items? = some (head :: body) ∧ (∀ x, head ≠ .bool x) ∧ head.toInt = .ok b.total
    ∧ List.Forall₂ (fun w row => Reply.pairs w = .ok row) body b.rows

theorem RowsOf.items {v : Value} {b : Batch} (h : RowsOf v b) : ∃ vs, v.items? = some vs := by
  obtain ⟨head, body, hv, -⟩ := h
  exact ⟨head :: body, hv⟩

theorem decodeRows_eq_ok_iff {cursor : Option Int} {v : Value} {b : Batch} :
    decodeRows cursor v = .ok b ↔ RowsOf v b ∧ b.cursor = cursor := by
  constructor
  · intro h
    rw [decodeRows] at h
    split at h
    next head body hv =>
      obtain ⟨total, ht, h⟩ := Outcome.bind_eq_ok.mp h
      obtain ⟨rows, hm, h⟩ := Outcome.bind_eq_ok.mp h
      cases h
      obtain ⟨hb, hn⟩ := expectInt_eq_ok_iff.mp ht
      exact ⟨⟨head, body, hv, hb, hn, Outcome.mapM_eq_ok.mp hm⟩, rfl⟩
    next => exact absurd h refuse_ne_ok
  · rintro ⟨⟨head, body, hv, hb, hn, hm⟩, rfl⟩
    rw [decodeRows, hv]
    refine Outcome.bind_eq_ok.mpr ⟨_, expectInt_eq_ok_iff.mpr ⟨hb, hn⟩, ?_⟩
    exact Outcome.bind_eq_ok.mpr ⟨_, Outcome.mapM_eq_ok.mpr hm, rfl⟩

theorem decodeCursor_eq_ok_iff {reply : Value} {b : Batch} :
    decodeCursor reply = .ok b ↔ ∃ rows id c, reply.items? = some [rows, id]
      ∧ (∀ x, id ≠ .bool x) ∧ id.toInt = .ok c ∧ b.cursor = some c ∧ RowsOf rows b := by
  constructor
  · intro h
    rw [decodeCursor] at h
    split at h
    next rows id hr =>
      obtain ⟨c, hc, h⟩ := Outcome.bind_eq_ok.mp h
      obtain ⟨hrows, hb⟩ := decodeRows_eq_ok_iff.mp h
      obtain ⟨hbool, hn⟩ := expectInt_eq_ok_iff.mp hc
      exact ⟨rows, id, c, hr, hbool, hn, hb, hrows⟩
    next => exact absurd h refuse_ne_ok
  · rintro ⟨rows, id, c, hr, hbool, hn, hb, hrows⟩
    rw [decodeCursor, hr]
    exact Outcome.bind_eq_ok.mpr
      ⟨c, expectInt_eq_ok_iff.mpr ⟨hbool, hn⟩, decodeRows_eq_ok_iff.mpr ⟨hrows, hb⟩⟩

variable {s : ReplyShape} {reply : Value} {b : Batch}

theorem decode_plain (hs : s.withCursor = false) :
    decode s reply = .ok b ↔ RowsOf reply b ∧ b.cursor = none := by
  rw [decode, hs]
  exact decodeRows_eq_ok_iff

theorem decode_withCursor (hs : s.withCursor = true) :
    decode s reply = .ok b ↔ ∃ rows id c, reply.items? = some [rows, id]
      ∧ (∀ x, id ≠ .bool x) ∧ id.toInt = .ok c ∧ b.cursor = some c ∧ RowsOf rows b := by
  rw [decode, if_pos hs]
  exact decodeCursor_eq_ok_iff

/-! ## what is refused -/

/-- With a cursor, a total and rows are refused: the length is wrong, or a row is no cursor. -/
theorem decodeCursor_of_rowsOf (h : RowsOf reply b) (hw : reply.Writable) :
    ∃ e t, decodeCursor reply = .error (.unexpected e t) := by
  obtain ⟨head, body, hr, -, -, hm⟩ := h
  by_cases hlen : ∃ row, body = [row]
  · obtain ⟨w, rfl⟩ := hlen
    obtain ⟨row, _, hrow, -⟩ := List.forall₂_cons_left_iff.mp hm
    have hwritable : w.Writable := hw.of_mem hr (by simp)
    obtain ⟨t, -, ht⟩ := refuse_of_writable .cursorId hwritable
    refine ⟨.cursorId, t, ?_⟩
    rw [decodeCursor, hr]
    show w.expectInt .cursorId >>= _ = _
    rw [expectInt_of_pairs _ hrow, ht]
    rfl
  · obtain ⟨t, -, ht⟩ := refuse_of_writable .cursorReply hw
    refine ⟨.cursorReply, t, ?_⟩
    rw [decodeCursor]
    split
    next rows id hr' =>
      rw [hr] at hr'
      cases hr'
      exact absurd ⟨_, rfl⟩ hlen
    next => exact ht

/-- Without a cursor, rows and a cursor are refused: an array is no total. -/
theorem decodeRows_of_pair {rows id : Value} {vs : List Value} (hr : reply.items? = some [rows, id])
    (hv : rows.items? = some vs) (hw : reply.Writable) :
    ∃ e t, decodeRows none reply = .error (.unexpected e t) := by
  have hwritable : rows.Writable := hw.of_mem hr (by simp)
  obtain ⟨t, -, ht⟩ := refuse_of_writable .aggregationTotal hwritable
  refine ⟨.aggregationTotal, t, ?_⟩
  rw [decodeRows, hr]
  show rows.expectInt .aggregationTotal >>= _ = _
  rw [expectInt_of_items _ hv, ht]
  rfl

/-- what becomes of a reply with a cursor and without one -/
structure Apart (reply : Value) : Prop where
  /-- without a cursor: a total and rows -/
  plain : ∀ s b, s.withCursor = false →
    (decode s reply = .ok b ↔ RowsOf reply b ∧ b.cursor = none)
  /-- with one: a total and rows in an array of their own, and then the id -/
  withCursor : ∀ s b, s.withCursor = true →
    (decode s reply = .ok b ↔ ∃ rows id c, reply.items? = some [rows, id]
      ∧ (∀ x, id ≠ .bool x) ∧ id.toInt = .ok c ∧ b.cursor = some c ∧ RowsOf rows b)
  /-- never both -/
  never_both : ∀ s s' b b', decode s reply = .ok b → decode s' reply = .ok b' →
    s.withCursor = s'.withCursor
  /-- what is accepted one way is refused the other way -/
  refused : ∀ s s' b, decode s reply = .ok b → s'.withCursor ≠ s.withCursor → reply.Writable →
    ∃ e t, decode s' reply = .error (.unexpected e t)

theorem not_rowsOf_of_pair {rows id : Value} {vs : List Value}
    (hr : reply.items? = some [rows, id]) (hv : rows.items? = some vs) : ¬ RowsOf reply b := by
  rintro ⟨head, body, hr', -, hn, -⟩
  rw [hr] at hr'
  cases hr'
  cases rows with
  | array | tuple => cases hn
  | nil | bool | int | float | text | bytes | map => cases hv

theorem apart (reply : Value) : Apart reply where
  plain s b hs := decode_plain hs
  withCursor s b hs := decode_withCursor hs
  never_both := by
    -- whichever of the two expects a cursor, the other has found a number in the place of the rows
    have h : ∀ s s' b b', decode s reply = .ok b → decode s' reply = .ok b' →
        s.withCursor = true → s'.withCursor = false → False := by
      intro s s' b b' hb hb' hs hs'
      obtain ⟨rows, id, c, hr, -, -, -, hrows⟩ := (decode_withCursor hs).mp hb
      obtain ⟨vs, hv⟩ := hrows.items
      exact not_rowsOf_of_pair hr hv ((decode_plain hs').mp hb').1
    intro s s' b b' hb hb'
    cases hs : s.withCursor with
    | true =>
      cases hs' : s'.withCursor with
      | true => rfl
      | false => exact (h s s' b b' hb hb' hs hs').elim
    | false =>
      cases hs' : s'.withCursor with
      | true => exact (h s' s b' b hb' hb hs' hs).elim
      | false => rfl
  refused := by
    intro s s' b hb hne hw
    cases hs : s.withCursor with
    | true =>
      have hs' : s'.withCursor = false := by
        rw [hs] at hne
        exact Bool.eq_false_iff.mpr hne
      obtain ⟨rows, id, c, hr, -, -, -, hrows⟩ := (decode_withCursor hs).mp hb
      obtain ⟨vs, hv⟩ := hrows.items
      rw [decode, hs']
      exact decodeRows_of_pair hr hv hw
    | false =>
      have hs' : s'.withCursor = true := by
        rw [hs] at hne
        exact eq_true_of_ne_false hne
      rw [decode, if_pos hs']
      exact decodeCursor_of_rowsOf ((decode_plain hs).mp hb).1 hw

end Batch

/-! ## engines that answer aggregations -/

namespace Page

/-- a reply that holds the page alone -/
def WritesPlain (p : Page) (reply : Value) : Prop :=
  ∃ ws, reply.items? = some (.int p.total :: ws)
    ∧ List.Forall₂ (fun row w => Value.WritesPairs (some row) w) p.rows ws

theorem decode_writesPlain {p : Page} {reply : Value} (h : p.WritesPlain reply) :
    Batch.decodeRows none reply = .ok ⟨p.total, p.rows.map Bindings.ofList, none⟩ := by
  obtain ⟨ws, hr, hw⟩ := h
  have ht : Value.expectInt .aggregationTotal (.int p.total) = .ok p.total := rfl
  simp only [Batch.decodeRows, hr, bind, Except.bind, ht, mapM_pairs hw]
  rfl

end Page

/-- The other side of a transport answers aggregations: it reads the command by its grammar, and
    gives the page that it finds, with the id of a cursor if the command asks for one. -/
def AnswersAggregations {σ : Type} (t : Transport σ) (found : List Token → σ → Page × Int) : Prop :=
  ∀ command x r, AggregateReading.ofCommand? command = some r →
    ∃ reply, (t command x).1 = .ok reply
      ∧ if r.cursor.isSome then (found command x).1.Writes (found command x).2 reply
        else (found command x).1.WritesPlain reply

theorem AggregateReading.ofCommand?_aggregate (index : String) (a : Aggregation)
    (default : Option Int) :
    ofCommand? (Command.aggregate index a default) = some (a.reading default) := by
  rw [Command.aggregate, ofCommand?, if_pos rfl, a.read?_compile]

/-- The tokens ask for a cursor if and only if the decoder expects one. -/
theorem Aggregation.isSome_cursor_reading (a : Aggregation) (default : Option Int) :
    (a.reading default).cursor.isSome = a.shape.withCursor :=
  Option.isSome_map

/-- No reply is mistaken for one of the other kind; and whatever calls have built an aggregation and
    whatever an engine finds for it: the tokens ask for a cursor if and only if one is expected, and
    the total and the rows come back in order, with the id of a cursor if one was asked for. -/
theorem Client.aggregate_as_asked :
    (∀ reply, Batch.Apart reply)
      ∧ ∀ (index text : String) (cs : List Aggregation.Call) (default : Option Int),
        ∃ a command r, a = Aggregation.calls { text := text } cs
          ∧ command = Command.aggregate index a default
          ∧ AggregateReading.ofCommand? command = some r
          ∧ r.cursor.isSome = a.shape.withCursor
          ∧ aggregate index a default = .asking command (Batch.decode a.shape)
          ∧ ∀ (σ : Type) (t : Transport σ) (found : List Token → σ → Page × Int) (x : σ),
              AnswersAggregations t found →
              (aggregate index a default).run t x
                = ⟨.ok ⟨(found command x).1.total, (found command x).1.rows.map Bindings.ofList,
                    if r.cursor.isSome then some (found command x).2 else none⟩,
                  [command], (t command x).2⟩ := by
  refine ⟨Batch.apart, fun index text cs default => ?_⟩
  let a := Aggregation.calls { text := text } cs
  have hread := AggregateReading.ofCommand?_aggregate index a default
  have hcursor := a.isSome_cursor_reading default
  refine ⟨a, _, _, rfl, rfl, hread, hcursor, rfl, fun σ t found x ht => ?_⟩
  obtain ⟨reply, hreply, hw⟩ := ht _ x _ hread
  rw [aggregate, Exchange.run_asking, hreply]
  show Run.mk (Batch.decode a.shape reply) _ _ = _
  rw [Batch.decode, ← hcursor]
  split at hw
  next hs => rw [if_pos hs, if_pos hs, Page.decode_writes hw, Page.batch]
  next hs => rw [if_neg hs, if_neg hs, Page.decode_writesPlain hw]

/-! ## an engine with two rows -/

/-- two rows, one of which is empty, out of five -/
def Page.twoRows : Page := ⟨5, [[("a", .text "1"), ("b", .int 2), ("a", .text "3")], []]⟩

/-- the total and the two rows, some of the texts as bytes -/
def Page.twoRowsReply : Value :=
  .tuple [.int 5, .array [.bytes (Text.Utf8.encode "a"), .text "1", .text "b", .int 2, .text "a",
    .bytes (Text.Utf8.encode "3")], .tuple []]

/-- an engine that has the two rows for every aggregation, and the cursor 7 for those with one -/
def twoRowsEngine : Transport Unit := fun command x =>
  match AggregateReading.ofCommand? command with
  | some r =>
    (.ok (if r.cursor.isSome then .array [Page.twoRowsReply, .int 7] else Page.twoRowsReply), x)
  | none => (.error "syntax error", x)

theorem Page.rows_twoRowsReply : Page.twoRows.WritesPlain Page.twoRowsReply := by
  refine ⟨_, rfl, .cons (.array rfl ?_) (.cons (.array rfl .nil) .nil)⟩
  exact .cons (.bytes "a") (.cons (.text "1") (.cons (.text "b") (.cons (.int 2) (.cons (.text "a")
    (.cons (.bytes "3") .nil)))))

theorem answersAggregations_twoRowsEngine :
    AnswersAggregations twoRowsEngine fun _ _ => (Page.twoRows, 7) := by
  intro command x r h
  obtain ⟨ws, hr, hw⟩ := Page.rows_twoRowsReply
  refine ⟨_, by rw [twoRowsEngine, h], ?_⟩
  split
  next => exact ⟨Page.twoRowsReply, ws, rfl, hr, hw⟩
  next => exact ⟨ws, hr, hw⟩

theorem Client.aggregate_twoRows :
    (aggregate "idx" (Aggregation.calls { text := "*" } [.withCursor ⟨some 2, none⟩]) none).run
        twoRowsEngine ()
      = ⟨.ok ⟨5, [⟨[("a", .text "3"), ("b", .int 2)]⟩, ⟨[]⟩], some 7⟩,
          [[.text "FT.AGGREGATE", .text "idx", .text "*", .text "WITHCURSOR", .text "COUNT",
            .int 2]], ()⟩ := by
  obtain ⟨a, command, r, rfl, rfl, hr, hc, -, hrun⟩ :=
    aggregate_as_asked.2 "idx" "*" [.withCursor ⟨some 2, none⟩] none
  have hs : r.cursor.isSome = true := hc
  rw [hrun Unit _ _ () answersAggregations_twoRowsEngine, if_pos hs]
  rfl

end FullText

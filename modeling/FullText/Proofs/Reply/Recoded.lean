import FullText.Proofs.Reply.Agreement
import FullText.Proofs.Reply.Undecoded
import FullText.Proofs.Value.Recoded

/-!
# Replies in which some bytes have been decoded

* `Reply.PlainNames v`, `SearchResult.Plain`, `Batch.Plain`, `Reply.PlainLines`  no array is in the place
                              of a text: of a name, of the id of a document, or of a line;
* `Reply.pairs_recoded`, `SearchResult.decode_recoded`, …  what each decoder makes of both replies;
* `Reply.ReadAlike v w`       the decoders make the same of `v` as of `w`, or refuse both alike.

An array in the place of a text is shown as its literal, which tells bytes and texts apart.
-/

namespace FullText

open Outcome Value

namespace Reply

/-! ## names and values -/

/-- no name is an array -/
def PlainNames (v : Value) : Prop := ∀ es, Lists v es → ∀ e ∈ es, e.1.items? = none

/-- the names of two pairs are recoded, and so are their values -/
def RecodedPair (e d : Value × Value) : Prop := e.1.Recoded d.1 ∧ e.2.Recoded d.2

variable {v w : Value}

theorem forall₂_recodedPair {es : List (Value × Value)} {ws : List Value}
    (h : RecodedAll (es.flatMap fun e => [e.1, e.2]) ws) :
    ∃ ds, ws = (ds.flatMap fun d => [d.1, d.2]) ∧ List.Forall₂ RecodedPair es ds := by
  induction es generalizing ws with
  | nil =>
    cases h
    exact ⟨[], rfl, .nil⟩
  | cons e es ih =>
    rw [List.flatMap_cons] at h
    cases h with
    | @cons _ name _ _ hname h =>
      cases h with
      | @cons _ value _ ws hvalue h =>
        obtain ⟨ds, rfl, hds⟩ := ih h
        exact ⟨(name, value) :: ds, rfl, .cons ⟨hname, hvalue⟩ hds⟩

/-- A recoded value lists recoded pairs. -/
theorem Lists.recoded {es : List (Value × Value)} (hv : Lists v es) (h : v.Recoded w) :
    ∃ ds, Lists w ds ∧ List.Forall₂ RecodedPair es ds := by
  cases hv with
  | nil =>
    cases h
    exact ⟨[], .nil, .nil⟩
  | map =>
    cases h
    exact ⟨es, .map es, List.forall₂_same.mpr fun e _ => ⟨.same e.1, .same e.2⟩⟩
  | array items =>
    obtain ⟨ws, hw, hall⟩ := h.items_eq_some items
    obtain ⟨ds, rfl, hds⟩ := forall₂_recodedPair hall
    exact ⟨ds, .array hw, hds⟩

theorem named_recoded {e d : Value × Value} (h : RecodedPair e d) :
    Agree Fault.SameKind (e.1.items? = none) (named e) (named d) := by
  refine h.1.name.bind fun n m hnm => ?_
  rw [h.2.decode_eq]
  refine Alike.map (.refl .same (fun _ => rfl) d.2.decode) fun v w hvw hplain => ?_
  rw [hnm hplain, hvw]

/-- What lists no pairs does not list any once it is recoded. -/
theorem entries?_eq_none_of_recoded (h : v.Recoded w) (hv : entries? v = none) :
    entries? w = none := by
  cases h with
  | same => exact hv
  | text s => rfl
  | @array vs ws items | @tuple vs ws items =>
    have hnone : pairUp? vs = none := hv
    show pairUp? ws = none
    rw [← Option.not_isSome_iff_eq_none] at hnone ⊢
    rwa [pairUp?_isSome, ← items.forall₂.length_eq, ← pairUp?_isSome]

theorem pairs_recoded (h : v.Recoded w) :
    Agree Fault.SameKind (PlainNames v) (pairs v) (pairs w) := by
  cases hv : entries? v with
  | none =>
    rw [pairs, pairs, hv, entries?_eq_none_of_recoded h hv]
    exact h.refuse .pairs _
  | some es =>
    have hlists : Lists v es := entries?_eq_some_iff.mp hv
    obtain ⟨ds, hw, hpairs⟩ := hlists.recoded h
    have hmem : List.Forall₂ (fun e d => e ∈ es ∧ RecodedPair e d) es ds :=
      (List.forall₂_and_left es ds).mpr ⟨fun _ he => he, hpairs⟩
    rw [pairs_of_lists hlists, pairs_of_lists hw]
    have hnamed : Agree Fault.SameKind (PlainNames v) (es.mapM named) (ds.mapM named) :=
      .mapM <| hmem.imp fun e d hed =>
        (named_recoded hed.2).of_imp fun hplain => hplain es hlists e hed.1
    exact hnamed.map fun ps qs heq hplain => congrArg Bindings.ofList (heq hplain)

end Reply

/-! ## search replies -/

namespace Slots

variable {s : ReplyShape} {p : Prop} {x y : Slots}

/-- the parts that were asked for are recoded -/
structure Recoded (s : ReplyShape) (x y : Slots) : Prop where
  id : x.id.Recoded y.id
  score : s.withScores = true → x.score.Recoded y.score
  payload : s.withPayloads = true → x.payload.Recoded y.payload
  fields : s.noContent = false → x.fields.Recoded y.fields

/-- an element of both lists, if there is to be one -/
theorem forall₂_slot {r : Value → Value → Prop} {asked : Bool} {v w : Value} {vs ws : List Value}
    (h : List.Forall₂ r ((if asked then [v] else []) ++ vs) ((if asked then [w] else []) ++ ws)) :
    (asked = true → r v w) ∧ List.Forall₂ r vs ws := by
  cases asked with
  | false => exact ⟨nofun, h⟩
  | true =>
    obtain ⟨hv, hvs⟩ := List.forall₂_cons.mp h
    exact ⟨fun _ => hv, hvs⟩

theorem recoded_of_block (h : List.Forall₂ Value.Recoded (s.block x) (s.block y)) :
    x.Recoded s y := by
  unfold ReplyShape.block at h
  rw [List.append_assoc, List.append_assoc] at h
  obtain ⟨hid, h⟩ := List.forall₂_cons.mp h
  obtain ⟨hscore, h⟩ := forall₂_slot h
  obtain ⟨hpayload, h⟩ := forall₂_slot h
  refine ⟨hid, hscore, hpayload, fun hc => ?_⟩
  rw [hc] at h
  exact (List.forall₂_cons.mp h).1

theorem readPayload_recoded {v w : Value} (asked : Bool) (h : asked = true → v.Recoded w) :
    Alike Fault.SameKind (fun u u' => Document.payloadText u = Document.payloadText u')
      (readPayload asked v) (readPayload asked w) := by
  cases asked with
  | false => exact .ok rfl
  | true =>
    show Alike _ _ v.asText w.asText
    cases h rfl with
    | same => exact .of_eq Fault.SameKind.same (fun _ => rfl) rfl
    | text s =>
      exact .of_eq Fault.SameKind.same (fun _ => rfl) (Value.Recoded.asText_eq (.text s) rfl)
    | array | tuple => exact .ok rfl

theorem Recoded.readAlike (h : x.Recoded s y) (hid : p → x.id.items? = none)
    (hfields : p → s.noContent = false → Reply.PlainNames x.fields) :
    x.ReadAlike Fault.SameKind p s y where
  id := h.id.name.mono fun _ _ heq hp => heq (hid hp)
  score := by
    unfold readScore
    split
    next hs => exact Alike.map ((h.score hs).expectFloat _) fun _ _ heq => congrArg some heq
    next => exact .ok rfl
  payload := readPayload_recoded _ h.payload
  fields := by
    unfold readFields
    split
    next hc =>
      have hc : s.noContent = false := by simpa using hc
      exact (Reply.pairs_recoded (h.fields hc)).of_imp fun hp => hfields hp hc
    next => exact .ok fun _ => rfl

end Slots

namespace SearchResult

variable {s : ReplyShape} {v w : Value}

/-- `id` is in the place of the id of a document -/
def IdIn (s : ReplyShape) (reply id : Value) : Prop :=
  ∃ head body i, ∃ x : Slots, reply.items? = some (head :: body) ∧ i < body.length / s.stride
    ∧ Reply.slice s.stride i (head :: body) = s.block x ∧ id = x.id

/-- no id of a document is an array, and no name of a field -/
structure Plain (s : ReplyShape) (reply : Value) : Prop where
  ids : ∀ id, IdIn s reply id → id.items? = none
  fields : ∀ w, FieldsIn s reply w → Reply.PlainNames w

theorem decode_recoded (h : v.Recoded w) :
    Agree Fault.SameKind (Plain s v) (decode s v) (decode s w) := by
  obtain ⟨head, head', body, body', hv, hw, hhead, hbody⟩ | ⟨hv, hw⟩ := h.items_cons
  · refine decode_agree .same hv hw hbody.length_eq (hhead.expectInt _) fun hd i hi => ?_
    have hslice : List.Forall₂ Value.Recoded (Reply.slice s.stride i (head :: body))
        (Reply.slice s.stride i (head' :: body')) :=
      List.forall₂_take _ (List.forall₂_drop _ (.cons hhead hbody))
    have hstride : (Reply.slice s.stride i (head :: body)).length = s.stride :=
      Reply.length_slice hi hd
    obtain ⟨x, hx⟩ := ReplyShape.exists_block_iff.mpr hstride
    obtain ⟨y, hy⟩ := ReplyShape.exists_block_iff.mpr (hslice.length_eq ▸ hstride)
    refine ⟨x, y, hx, hy, ?_⟩
    rw [hx, hy] at hslice
    refine (Slots.recoded_of_block hslice).readAlike (fun hp => ?_) fun hp hc => ?_
    · exact hp.ids x.id ⟨head, body, i, x, hv, hi, hx, rfl⟩
    · exact hp.fields x.fields ⟨hc, head, body, i, x, hv, hi, hx, rfl⟩
  · rw [decode_of_empty hv, decode_of_empty hw]
    exact h.refuse _ _

end SearchResult

/-! ## replies of aggregations and cursors -/

namespace Batch

variable {s : ReplyShape} {v w : Value}

/-- no name in a row is an array -/
def Plain (withCursor : Bool) (reply : Value) : Prop :=
  ∀ w, RowIn { withCursor := withCursor } reply w → Reply.PlainNames w

theorem decodeRows_of_empty {cursor : Option Int} (h : ∀ head body, v.items? ≠ some (head :: body)) :
    decodeRows cursor v = v.refuse .aggregationReply := by
  rw [decodeRows]
  split
  next head body hv => exact absurd hv (h head body)
  next => rfl

theorem decodeCursor_of_no_pair (h : ∀ rows id, v.items? ≠ some [rows, id]) :
    decodeCursor v = v.refuse .cursorReply := by
  rw [decodeCursor]
  split
  next rows id hv => exact absurd hv (h rows id)
  next => rfl

theorem decodeRows_recoded {p : Prop} (cursor : Option Int) (h : v.Recoded w)
    (hp : p → ∀ head body, v.items? = some (head :: body) → ∀ row ∈ body, Reply.PlainNames row) :
    Alike Fault.SameKind (SameCursor p) (decodeRows cursor v) (decodeRows cursor w) := by
  obtain ⟨head, head', body, body', hv, hw, hhead, hbody⟩ | ⟨hv, hw⟩ := h.items_cons
  · have hmem : List.Forall₂ (fun row row' => row ∈ body ∧ row.Recoded row') body body' :=
      (List.forall₂_and_left body body').mpr ⟨fun _ hrow => hrow, hbody⟩
    refine decodeRows_agree cursor hv hw (hhead.expectInt _) (hmem.imp fun row row' hrow => ?_)
    exact (Reply.pairs_recoded hrow.2).of_imp fun hplain => hp hplain head body hv row hrow.1
  · rw [decodeRows_of_empty hv, decodeRows_of_empty hw]
    exact h.refuse _ _

theorem decodeCursor_recoded (h : v.Recoded w) :
    Alike Fault.SameKind (SameCursor (Plain true v)) (decodeCursor v) (decodeCursor w) := by
  obtain ⟨rows, id, rows', id', hv, hw, hrows, hid⟩ | ⟨hv, hw⟩ := h.items_pair
  · refine decodeCursor_agree hv hw (hid.expectInt _) fun c => ?_
    refine decodeRows_recoded (some c) hrows fun hp head body hitems row hrow => ?_
    exact hp row ⟨rows, head, body, ⟨id, hv⟩, hitems, hrow⟩
  · rw [decodeCursor_of_no_pair hv, decodeCursor_of_no_pair hw]
    exact h.refuse _ _

theorem decode_recoded (s : ReplyShape) (h : v.Recoded w) :
    Alike Fault.SameKind (SameCursor (Plain s.withCursor v)) (decode s v) (decode s w) := by
  rw [decode, decode]
  cases s.withCursor with
  | true => exact decodeCursor_recoded h
  | false =>
    refine decodeRows_recoded none h fun hp head body hitems row hrow => ?_
    exact hp row ⟨v, head, body, rfl, hitems, hrow⟩

end Batch

/-! ## all replies -/

namespace Reply

variable {v w : Value}

theorem isOk_recoded (h : v.Recoded w) : isOk v = isOk w := by
  cases h with
  | same | array | tuple => rfl
  | text s =>
    have htext : (Value.bytes (Text.Utf8.encode s)).asText = (Value.text s).asText :=
      Value.Recoded.asText_eq (.text s) rfl
    simp only [isOk, htext]

/-- no line is an array -/
def PlainLines (v : Value) : Prop := ∀ vs, v.items? = some vs → ∀ line ∈ vs, line.items? = none

theorem explainLines_recoded (h : v.Recoded w) :
    Agree Fault.SameKind (PlainLines v) (explainLines v) (explainLines w) := by
  obtain ⟨hv, hw⟩ | ⟨vs, ws, hv, hw, hall⟩ := h.items
  · rw [explainLines, explainLines, hv, hw]
    exact h.refuse _ _
  · have hmem : List.Forall₂ (fun line line' => line ∈ vs ∧ line.Recoded line') vs ws :=
      (List.forall₂_and_left vs ws).mpr ⟨fun _ hline => hline, hall.forall₂⟩
    rw [explainLines, explainLines, hv, hw]
    refine .mapM (hmem.imp fun line line' hline => ?_)
    exact hline.2.name.mono fun _ _ heq hplain => heq (hplain vs hv line hline.1)

/-- The decoders make the same of both replies, or refuse both for the same reason, as long as there is
    no array in the place of a text. -/
structure ReadAlike (v w : Value) : Prop where
  search : ∀ s, SearchResult.Plain s v →
    Alike Fault.SameKind Eq (SearchResult.decode s v) (SearchResult.decode s w)
  aggregate : ∀ s, Batch.Plain s.withCursor v →
    Alike Fault.SameKind Eq (Batch.decode s v) (Batch.decode s w)
  cursor : Batch.Plain true v →
    Alike Fault.SameKind Eq (Batch.decodeCursor v) (Batch.decodeCursor w)
  info : PlainNames v → Alike Fault.SameKind Eq (IndexInfo.decode v) (IndexInfo.decode w)
  isOk : isOk v = isOk w
  explain : v.items? = none → Alike Fault.SameKind Eq (explain v) (explain w)
  explainLines : PlainLines v → Alike Fault.SameKind Eq (explainLines v) (explainLines w)

theorem info_recoded (h : v.Recoded w) :
    Agree Fault.SameKind (PlainNames v) (IndexInfo.decode v) (IndexInfo.decode w) :=
  Alike.map (pairs_recoded h) fun _ _ heq hplain => congrArg IndexInfo.mk (heq hplain)

theorem readAlike (h : v.Recoded w) : ReadAlike v w where
  search _ hp := (SearchResult.decode_recoded h).mono fun _ _ heq => heq hp
  aggregate s hp := (Batch.decode_recoded s h).mono fun _ _ heq => heq.2 hp
  cursor hp := (Batch.decodeCursor_recoded h).mono fun _ _ heq => heq.2 hp
  info hp := (info_recoded h).mono fun _ _ heq => heq hp
  isOk := isOk_recoded h
  explain hp := h.name.mono fun _ _ heq => heq hp
  explainLines hp := (explainLines_recoded h).mono fun _ _ heq => heq hp

end Reply

end FullText

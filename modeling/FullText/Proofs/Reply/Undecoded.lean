import FullText.Proofs.Aggregation.Modes
import FullText.Proofs.LastBound
import FullText.Proofs.Search.Acceptance
import FullText.Proofs.Value.Sheltered
import FullText.Reply.Info

/-!
# Bytes that are left in a decoded reply

* `Bindings.Carries`, `SearchResult.Carries`, …  bytes are somewhere in a result;
* `Reply.Keeps v u`               `v` lists the value `u` under a name, and no later one under that name;
* `Reply.Leaves v bs`             such a value shelters the bytes `bs`;
* `Reply.carries_pairs_iff`       these are the bytes that are left in the bindings of `v`;
* `SearchResult.FieldsIn`, `Batch.RowIn`  the parts of a reply that are read as bindings;
* `Reply.bytes_left`              the bytes in any result are those that its parts leave.

The id of a document, its payload and all names are texts by their types, so it is in values alone that
bytes can be left; and there it is the mappings inside of them, which no decoder looks into.
-/

namespace FullText

open Value

variable {bs : List UInt8}

/-! ## results -/

def Bindings.Carries (b : Bindings Value) (bs : List UInt8) : Prop :=
  ∃ p ∈ b.pairs, p.2.Carries bs

def SearchResult.Carries (r : SearchResult) (bs : List UInt8) : Prop :=
  ∃ d ∈ r.documents, d.fields.Carries bs

def Batch.Carries (b : Batch) (bs : List UInt8) : Prop := ∃ row ∈ b.rows, row.Carries bs

def IndexInfo.Carries (i : IndexInfo) (bs : List UInt8) : Prop := i.values.Carries bs

namespace Reply

/-! ## names and values -/

/-- a value lists another one under a name, and no later one under that name -/
def Keeps (v u : Value) : Prop := ∃ es n, Lists v es ∧ IsLast (fun e => e.1.name) (n, u) es

/-- the bytes `bs` are in a mapping inside of a value that is kept -/
def Leaves (v : Value) (bs : List UInt8) : Prop := ∃ u, Keeps v u ∧ u.Shelters bs

/-- What is kept of the pairs as they are read is kept of them as they are in the reply. -/
theorem Named.carries_iff {es : List (Value × Value)} {ps : List (String × Value)}
    (h : Named es ps) :
    (∃ p, IsLast Prod.fst p ps ∧ p.2.Carries bs)
      ↔ ∃ e, IsLast (fun e => e.1.name) e es ∧ e.2.Shelters bs := by
  constructor
  · rintro ⟨p, hp, hb⟩
    obtain ⟨e, hr, he⟩ := h.exists_isLast hp
    exact ⟨e, he, hr.2.carries_iff.mp hb⟩
  · rintro ⟨e, he, hb⟩
    obtain ⟨p, hr, hp⟩ := h.isLast he
    exact ⟨p, hp, hr.2.carries_iff.mpr hb⟩

theorem Binds.carries_iff {v : Value} {b : Bindings Value} (h : Binds v b) :
    b.Carries bs ↔ Leaves v bs := by
  obtain ⟨es, ps, hes, hps, rfl⟩ := h
  simp only [Bindings.Carries, Bindings.mem_ofList_iff]
  rw [Named.carries_iff hps]
  constructor
  · rintro ⟨e, he, hb⟩
    exact ⟨e.2, ⟨es, e.1, hes, he⟩, hb⟩
  · rintro ⟨u, ⟨es', n, hes', he⟩, hb⟩
    rw [hes'.unique hes] at he
    exact ⟨(n, u), he, hb⟩

theorem carries_pairs_iff {v : Value} {b : Bindings Value} (h : pairs v = .ok b) :
    b.Carries bs ↔ Leaves v bs :=
  (pairs_eq_ok_iff.mp h).carries_iff

theorem carries_rows_iff {ws : List Value} {rows : List (Bindings Value)}
    (h : List.Forall₂ (fun w row => pairs w = .ok row) ws rows) :
    (∃ row ∈ rows, row.Carries bs) ↔ ∃ w ∈ ws, Leaves w bs := by
  induction h with
  | nil => exact iff_of_false nofun nofun
  | cons hw _ ih =>
    rw [List.exists_mem_cons_iff, List.exists_mem_cons_iff, ih, carries_pairs_iff hw]

end Reply

/-! ## search replies -/

namespace SearchResult

variable {s : ReplyShape} {reply : Value}

/-- `w` is in the place of the fields of a document -/
def FieldsIn (s : ReplyShape) (reply w : Value) : Prop :=
  s.noContent = false ∧ ∃ head body i, ∃ x : Slots, reply.items? = some (head :: body)
    ∧ i < body.length / s.stride ∧ Reply.slice s.stride i (head :: body) = s.block x ∧ w = x.fields

theorem fields_of_block {x y : Slots} (hc : s.noContent = false) (h : s.block x = s.block y) :
    x.fields = y.fields := by
  have hlast : ∀ z : Slots, (s.block z).getLast? = some z.fields := by
    intro z
    unfold ReplyShape.block
    rw [hc]
    cases s.withScores <;> cases s.withPayloads <;> rfl
  exact Option.some.inj ((hlast x).symm.trans (h ▸ hlast y))

theorem carries_iff {r : SearchResult} (h : decode s reply = .ok r) :
    r.Carries bs ↔ ∃ w, FieldsIn s reply w ∧ Reply.Leaves w bs := by
  obtain ⟨head, body, hr, -, -, hlen, hdocs⟩ := (decode_exact s reply).gives r h
  constructor
  · rintro ⟨d, hd, hb⟩
    obtain ⟨i, hi⟩ := List.mem_iff_getElem?.mp hd
    obtain ⟨x, hx, hsay⟩ := hdocs i d hi
    have hfields := hsay.fields
    split at hfields
    next hc =>
      have hlt : i < r.documents.length := (List.getElem?_eq_some_iff.mp hi).1
      exact ⟨x.fields, ⟨by simpa using hc, head, body, i, x, hr, hlen ▸ hlt, hx, rfl⟩,
        hfields.carries_iff.mp hb⟩
    next =>
      rw [hfields] at hb
      obtain ⟨p, hp, -⟩ := hb
      cases hp
  · rintro ⟨w, ⟨hc, head', body', i, x, hr', hi, hx, rfl⟩, hb⟩
    rw [hr] at hr'
    cases hr'
    have hd : r.documents[i]? = some r.documents[i] := List.getElem?_eq_getElem (hlen ▸ hi)
    obtain ⟨y, hy, hsay⟩ := hdocs i _ hd
    have hfields := hsay.fields
    rw [if_pos (by rw [hc]; rfl), ← fields_of_block hc (hx.symm.trans hy)] at hfields
    exact ⟨_, List.mem_of_getElem? hd, hfields.carries_iff.mpr hb⟩

end SearchResult

/-! ## replies of aggregations and cursors -/

namespace Batch

variable {s : ReplyShape} {reply : Value}

/-- `w` is in the place of a row, behind the total and, with a cursor, in front of its id -/
def RowIn (s : ReplyShape) (reply w : Value) : Prop :=
  ∃ rows head body, (if s.withCursor then ∃ id, reply.items? = some [rows, id] else rows = reply)
    ∧ rows.items? = some (head :: body) ∧ w ∈ body

theorem carries_of_rowsOf {v : Value} {b : Batch} (h : RowsOf v b) :
    b.Carries bs ↔ ∃ head body w, v.items? = some (head :: body) ∧ w ∈ body
      ∧ Reply.Leaves w bs := by
  obtain ⟨head, body, hv, -, -, hm⟩ := h
  rw [Carries, Reply.carries_rows_iff hm]
  constructor
  · rintro ⟨w, hw, hb⟩
    exact ⟨head, body, w, hv, hw, hb⟩
  · rintro ⟨head', body', w, hv', hw, hb⟩
    rw [hv] at hv'
    cases hv'
    exact ⟨w, hw, hb⟩

theorem carries_iff {b : Batch} (h : decode s reply = .ok b) :
    b.Carries bs ↔ ∃ w, RowIn s reply w ∧ Reply.Leaves w bs := by
  unfold RowIn
  cases hs : s.withCursor with
  | false =>
    rw [carries_of_rowsOf ((decode_plain hs).mp h).1]
    constructor
    · rintro ⟨head, body, w, hv, hw, hb⟩
      exact ⟨w, ⟨reply, head, body, rfl, hv, hw⟩, hb⟩
    · rintro ⟨w, ⟨rows, head, body, rfl, hv, hw⟩, hb⟩
      exact ⟨head, body, w, hv, hw, hb⟩
  | true =>
    obtain ⟨rows, id, c, hr, -, -, -, hrows⟩ := (decode_withCursor hs).mp h
    rw [carries_of_rowsOf hrows]
    constructor
    · rintro ⟨head, body, w, hv, hw, hb⟩
      exact ⟨w, ⟨rows, head, body, ⟨id, hr⟩, hv, hw⟩, hb⟩
    · rintro ⟨w, ⟨rows', head, body, ⟨id', hr'⟩, hv, hw⟩, hb⟩
      rw [hr] at hr'
      cases hr'
      exact ⟨head, body, w, hv, hw, hb⟩

end Batch

/-! ## all replies -/

namespace Reply

/-- which bytes are in what the decoders make of a reply -/
structure BytesLeft (reply : Value) (bs : List UInt8) : Prop where
  search : ∀ s r, SearchResult.decode s reply = .ok r →
    (r.Carries bs ↔ ∃ w, SearchResult.FieldsIn s reply w ∧ Leaves w bs)
  aggregate : ∀ s b, Batch.decode s reply = .ok b →
    (b.Carries bs ↔ ∃ w, Batch.RowIn s reply w ∧ Leaves w bs)
  cursor : ∀ b, Batch.decodeCursor reply = .ok b →
    (b.Carries bs ↔ ∃ w, Batch.RowIn { withCursor := true } reply w ∧ Leaves w bs)
  info : ∀ i, IndexInfo.decode reply = .ok i → (i.Carries bs ↔ Leaves reply bs)
  pairs : ∀ b, Reply.pairs reply = .ok b → (b.Carries bs ↔ Leaves reply bs)

/-- Whatever a decoder makes of a reply: the bytes in it are those in the mappings inside of the values
    that are kept.  So no bytes are left if and only if no such mapping holds any. -/
theorem bytes_left (reply : Value) (bs : List UInt8) : BytesLeft reply bs where
  search _ _ h := SearchResult.carries_iff h
  aggregate _ _ h := Batch.carries_iff h
  cursor b h := Batch.carries_iff (s := { withCursor := true }) h
  info i h := by
    obtain ⟨b, hb, rfl⟩ := Outcome.map_eq_ok.mp h
    exact carries_pairs_iff hb
  pairs _ h := carries_pairs_iff h

/-- an index whose attributes a client has read as a mapping, but not as text -/
def attributesReply : Value := .array [.text "attributes", .map [(.text "title", .bytes [0x54])]]

/-- The bytes of a mapping are left as they are. -/
theorem bytes_left_in_attributes :
    ∃ i, IndexInfo.decode attributesReply = .ok i ∧ i.Carries [0x54] := by
  refine ⟨⟨⟨[("attributes", .map [(.text "title", .bytes [0x54])])]⟩⟩, rfl, ?_⟩
  exact ⟨_, List.mem_singleton_self _, .value (List.mem_singleton_self _) (.here _)⟩

end Reply

end FullText

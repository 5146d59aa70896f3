import FullText.Proofs.Search.Block

/-!
# Which replies a search accepts, and what they give

* `Reply.slice`                the elements of the document at some place of a reply;
* `Reply.IsSearch`             the grammar of search replies;
* `SearchResult.Exact`         what the decoder does with a reply, whatever it is;
* `SearchResult.decode_exact`  it does so for every shape and every reply.
-/

namespace FullText

open Value

/-! ## slices -/

namespace Reply

/-- the elements of the document at place `i` of a reply: from `1 + i * w` on, `w` of them -/
def slice (w i : Nat) (vs : List Value) : List Value := (vs.drop (1 + i * w)).take w

theorem getElem?_blocks {α : Type} {w n i : Nat} {vs : List α} (h : i < n) :
    (blocks w n vs)[i]? = some ((vs.drop (i * w)).take w) := by
  induction n generalizing i vs with
  | zero => exact absurd h (Nat.not_lt_zero i)
  | succ n ih =>
    cases i with
    | zero => rw [blocks, List.getElem?_cons_zero, Nat.zero_mul, List.drop_zero]
    | succ i =>
      rw [blocks, List.getElem?_cons_succ, ih (Nat.lt_of_succ_lt_succ h), List.drop_drop,
        Nat.succ_mul, Nat.add_comm w]

theorem getElem?_blocks_slice {w n i : Nat} {head : Value} {body : List Value} (h : i < n) :
    (blocks w n body)[i]? = some (slice w i (head :: body)) := by
  rw [getElem?_blocks h, slice, Nat.add_comm 1, List.drop_succ_cons]

theorem lt_of_blocks {α : Type} {w n i : Nat} {b vs : List α} (h : (blocks w n vs)[i]? = some b) :
    i < n := by
  rw [← length_blocks w n vs]
  exact (List.getElem?_eq_some_iff.mp h).1

theorem eq_slice_of_blocks {w n i : Nat} {head : Value} {b body : List Value}
    (h : (blocks w n body)[i]? = some b) : b = slice w i (head :: body) :=
  Option.some.inj (h.symm.trans (getElem?_blocks_slice (lt_of_blocks h)))

theorem length_slice {w i : Nat} {head : Value} {body : List Value} (h : i < body.length / w)
    (hd : w ∣ body.length) : (slice w i (head :: body)).length = w := by
  obtain ⟨n, hn⟩ := hd
  have hw : 0 < w := by
    by_contra hw
    rw [Nat.eq_zero_of_not_pos hw, Nat.div_zero] at h
    exact absurd h (Nat.not_lt_zero i)
  rw [hn, Nat.mul_div_cancel_left n hw] at h
  rw [slice, Nat.add_comm 1, List.drop_succ_cons, List.length_take, List.length_drop, hn,
    Nat.mul_comm w, ← Nat.sub_mul]
  exact Nat.min_eq_left (Nat.le_mul_of_pos_left w (by omega))

/-! ## the grammar -/

/-- the search replies of a shape: a total, and then blocks of elements that can be read -/
def IsSearch (s : ReplyShape) (reply : Value) : Prop :=
  ∃ head body, reply.items? = some (head :: body) ∧ head.Whole ∧ s.stride ∣ body.length
    ∧ ∀ i < body.length / s.stride, ∃ x : Slots,
        slice s.stride i (head :: body) = s.block x ∧ x.Fit s

end Reply

namespace SearchResult

/-- what the decoder does with a reply, whatever it is -/
structure Exact (s : ReplyShape) (reply : Value) : Prop where
  /-- it accepts the replies of the grammar -/
  accepts : (∃ r, decode s reply = .ok r) ↔ Reply.IsSearch s reply
  /-- what is accepted gives the total and, for each block, the document that its parts say -/
  gives : ∀ r, decode s reply = .ok r → ∃ head body, reply.items? = some (head :: body)
    ∧ head.toInt = .ok r.total ∧ r.hasContent = (!s.noContent)
    ∧ r.documents.length = body.length / s.stride
    ∧ ∀ i d, r.documents[i]? = some d → ∃ x : Slots,
        Reply.slice s.stride i (head :: body) = s.block x ∧ x.Say s d
  /-- the elements of a document determine it, in whichever reply and wherever they are -/
  determined : ∀ r reply' r' vs vs' i j d d', decode s reply = .ok r → decode s reply' = .ok r' →
    reply.items? = some vs → reply'.items? = some vs' →
    r.documents[i]? = some d → r'.documents[j]? = some d' →
    Reply.slice s.stride i vs = Reply.slice s.stride j vs' → d = d'
  /-- a reply that is no array, or an empty one, is refused -/
  refuses_empty : (∀ head body, reply.items? ≠ some (head :: body)) → reply.Writable →
    ∃ t, reply.literal = .ok t ∧ decode s reply = .error (.unexpected .searchReply t)
  /-- a total that is no integer is refused, unless it is infinite -/
  refuses_total : ∀ head body, reply.items? = some (head :: body) → ¬ head.Whole → head.Writable →
    (∀ negative, head ≠ .float (.infinite negative)) →
    ∃ t, head.literal = .ok t ∧ decode s reply = .error (.unexpected .resultTotal t)
  /-- an infinite total is out of range -/
  infinite_total : ∀ negative body, reply.items? = some (.float (.infinite negative) :: body) →
    decode s reply = .error .outOfRange
  /-- after the total, elements that do not come out even are refused -/
  refuses_uneven : ∀ head body, reply.items? = some (head :: body) → head.Whole →
    ¬ s.stride ∣ body.length → decode s reply = .error (.uneven body.length s.stride)

/-! ## one reply -/

variable {s : ReplyShape} {reply : Value}

theorem decode_of_items {head : Value} {body : List Value}
    (h : reply.items? = some (head :: body)) :
    decode s reply = (do
      let total ← head.expectInt .resultTotal
      if body.length % s.stride ≠ 0 then throw (.uneven body.length s.stride)
      let documents ←
        (Reply.blocks s.stride (body.length / s.stride) body).mapM (Document.ofBlock s)
      return ⟨total, documents, !s.noContent⟩) := by
  rw [decode, h]

theorem decode_of_dvd {head : Value} {body : List Value}
    (h : reply.items? = some (head :: body)) (hd : s.stride ∣ body.length) :
    decode s reply = (do
      let total ← head.expectInt .resultTotal
      let documents ←
        (Reply.blocks s.stride (body.length / s.stride) body).mapM (Document.ofBlock s)
      return ⟨total, documents, !s.noContent⟩) := by
  rw [decode_of_items h]
  simp only [Nat.mod_eq_zero_of_dvd hd, ne_eq, not_true_eq_false, if_false]

theorem decode_of_not_dvd {head : Value} {body : List Value} {total : Int}
    (h : reply.items? = some (head :: body)) (ht : head.expectInt .resultTotal = .ok total)
    (hd : ¬ s.stride ∣ body.length) :
    decode s reply = .error (.uneven body.length s.stride) := by
  have hmod : body.length % s.stride ≠ 0 := fun hz => hd (Nat.dvd_of_mod_eq_zero hz)
  rw [decode_of_items h, ht]
  show (if body.length % s.stride ≠ 0 then throw _ else _) = _
  rw [if_pos hmod]
  rfl

theorem decode_of_total {head : Value} {body : List Value} {f : Fault}
    (h : reply.items? = some (head :: body)) (ht : head.expectInt .resultTotal = .error f) :
    decode s reply = .error f := by
  rw [decode_of_items h, ht]
  rfl

theorem decode_of_empty (h : ∀ head body, reply.items? ≠ some (head :: body)) :
    decode s reply = reply.refuse .searchReply := by
  rw [decode]
  split
  next head body h' => exact absurd h' (h head body)
  next => rfl

theorem decode_eq_ok_iff {r : SearchResult} :
    decode s reply = .ok r ↔ ∃ head body, reply.items? = some (head :: body)
      ∧ head.expectInt .resultTotal = .ok r.total ∧ s.stride ∣ body.length
      ∧ List.Forall₂ (fun block d => Document.ofBlock s block = .ok d)
          (Reply.blocks s.stride (body.length / s.stride) body) r.documents
      ∧ r.hasContent = !s.noContent := by
  constructor
  · intro h
    obtain ⟨head, body, hr⟩ : ∃ head body, reply.items? = some (head :: body) := by
      by_contra hr
      rw [decode_of_empty fun head body h => hr ⟨head, body, h⟩] at h
      exact absurd h refuse_ne_ok
    obtain ⟨total, ht, -⟩ := Outcome.bind_eq_ok.mp (decode_of_items hr ▸ h)
    have hd : s.stride ∣ body.length := by
      by_contra hd
      rw [decode_of_not_dvd hr ht hd] at h
      cases h
    rw [decode_of_dvd hr hd] at h
    obtain ⟨total, ht, h⟩ := Outcome.bind_eq_ok.mp h
    obtain ⟨documents, hm, h⟩ := Outcome.bind_eq_ok.mp h
    cases h
    exact ⟨head, body, hr, ht, hd, Outcome.mapM_eq_ok.mp hm, rfl⟩
  · rintro ⟨head, body, hr, ht, hd, hm, hc⟩
    rw [decode_of_dvd hr hd]
    refine Outcome.bind_eq_ok.mpr ⟨_, ht, Outcome.bind_eq_ok.mpr ⟨_, Outcome.mapM_eq_ok.mpr hm, ?_⟩⟩
    rw [← hc]
    rfl

/-- The document at some place is read from the slice at that place. -/
theorem ofBlock_slice {r : SearchResult} {vs : List Value} {i : Nat} {d : Document}
    (h : decode s reply = .ok r) (hr : reply.items? = some vs) (hd : r.documents[i]? = some d) :
    Document.ofBlock s (Reply.slice s.stride i vs) = .ok d := by
  obtain ⟨head, body, hr', -, -, hm, -⟩ := decode_eq_ok_iff.mp h
  rw [hr] at hr'
  cases hr'
  obtain ⟨block, hb, hblock⟩ := Outcome.exists_getElem?_of_forall₂ hm hd
  rwa [Reply.eq_slice_of_blocks hb] at hblock

theorem accepts_iff : (∃ r, decode s reply = .ok r) ↔ Reply.IsSearch s reply := by
  constructor
  · rintro ⟨r, h⟩
    obtain ⟨head, body, hr, ht, hd, hm, -⟩ := decode_eq_ok_iff.mp h
    refine ⟨head, body, hr, exists_expectInt_iff.mp ⟨_, ht⟩, hd, fun i hi => ?_⟩
    have hmem : Reply.slice s.stride i (head :: body)
        ∈ Reply.blocks s.stride (body.length / s.stride) body :=
      List.mem_of_getElem? (Reply.getElem?_blocks_slice hi)
    have hblock := Outcome.exists_mapM_ok.mp ⟨_, Outcome.mapM_eq_ok.mpr hm⟩ _ hmem
    exact (Document.exists_ofBlock_iff (Reply.length_slice hi hd)).mp hblock
  · rintro ⟨head, body, hr, hw, hd, hblocks⟩
    obtain ⟨total, ht⟩ := exists_expectInt_iff.mpr hw
    have hm : ∀ b ∈ Reply.blocks s.stride (body.length / s.stride) body,
        ∃ d, Document.ofBlock s b = .ok d := by
      intro b hb
      obtain ⟨i, hb⟩ := List.mem_iff_getElem?.mp hb
      have hi := Reply.lt_of_blocks hb
      obtain rfl : b = Reply.slice s.stride i (head :: body) := Reply.eq_slice_of_blocks hb
      exact (Document.exists_ofBlock_iff (Reply.length_slice hi hd)).mpr (hblocks i hi)
    obtain ⟨documents, hm⟩ := Outcome.exists_mapM_ok.mpr hm
    exact ⟨⟨total, documents, !s.noContent⟩,
      decode_eq_ok_iff.mpr ⟨head, body, hr, ht, hd, Outcome.mapM_eq_ok.mp hm, rfl⟩⟩

/-- For every shape and every reply: what is accepted is what the grammar says, it gives what its
    parts say, and everything else is refused with the fault that says what is wrong. -/
theorem decode_exact (s : ReplyShape) (reply : Value) : Exact s reply where
  accepts := accepts_iff
  gives := by
    intro r h
    obtain ⟨head, body, hr, ht, hd, hm, hc⟩ := decode_eq_ok_iff.mp h
    have hlen : r.documents.length = body.length / s.stride := by
      rw [← hm.length_eq, Reply.length_blocks]
    refine ⟨head, body, hr, (expectInt_eq_ok_iff.mp ht).2, hc, hlen, fun i d hi => ?_⟩
    have hlt : i < body.length / s.stride := hlen ▸ (List.getElem?_eq_some_iff.mp hi).1
    have hsay := ofBlock_slice h hr hi
    obtain ⟨x, hx, -⟩ := (Document.exists_ofBlock_iff (Reply.length_slice hlt hd)).mp ⟨d, hsay⟩
    rw [hx] at hsay
    exact ⟨x, hx, Document.ofBlock_eq_ok_iff.mp hsay⟩
  determined := by
    intro r reply' r' vs vs' i j d d' h h' hr hr' hd hd' hs
    have hv := ofBlock_slice h hr hd
    rw [hs, ofBlock_slice h' hr' hd'] at hv
    exact (Except.ok.inj hv).symm
  refuses_empty := by
    intro hr hw
    obtain ⟨t, ht, he⟩ := refuse_of_writable .searchReply hw
    exact ⟨t, ht, (decode_of_empty hr).trans he⟩
  refuses_total := by
    intro head body hr hw hwritable hi
    obtain ⟨t, ht, he⟩ := refuse_of_writable .resultTotal hwritable
    exact ⟨t, ht, decode_of_total hr ((expectInt_of_not_whole hw hi).trans he)⟩
  infinite_total := fun negative body hr => decode_of_total hr (expectInt_infinite negative _)
  refuses_uneven := by
    intro head body hr hw hd
    obtain ⟨n, hn⟩ := exists_expectInt_iff.mpr hw
    exact decode_of_not_dvd hr hn hd

end SearchResult

end FullText

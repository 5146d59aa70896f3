import FullText.Proofs.Search.Acceptance
import FullText.Reply.Batch

/-!
# Replies whose parts are read alike

* `Agree r p x y`             two computations both give something, which is the same as far as `p`
                              holds, or both fail, with faults that are related by `r`;
* `Slots.ReadAlike r p s x y` so do the parts of two documents, one by one;
* `Document.ofBlock_agree`, `SearchResult.decode_agree`  then so do the documents, and the results;
* `Batch.decodeRows_agree`, `Batch.decodeCursor_agree`   and so do batches, whose cursors are the same
                              in any case.

With `Eq` for `r` and `True` for `p` the outcomes are equal.
-/

namespace FullText

open Outcome

/-- two computations both give something, the same as far as `p` holds, or both fail -/
abbrev Agree {α : Type} (r : Fault → Fault → Prop) (p : Prop) (x y : Except Fault α) : Prop :=
  Alike r (fun a b => p → a = b) x y

variable {r : Fault → Fault → Prop} {p : Prop} {s : ReplyShape}

/-- Computations that agree in any case, and fail with the same fault, are the same. -/
theorem Agree.eq {α : Type} {x y : Except Fault α} (h : Agree Eq True x y) : x = y :=
  (h.mono fun _ _ hab => hab trivial).eq

/-- Computations that agree if `p` holds do so if `p'` does, from which `p` follows. -/
theorem Agree.of_imp {α : Type} {p' : Prop} {x y : Except Fault α} (h : Agree r p x y)
    (hp : p' → p) : Agree r p' x y :=
  h.mono fun _ _ hab h' => hab (hp h')

/-- Lists whose elements agree place by place agree. -/
theorem Agree.mapM {α β γ : Type} {f : α → Except Fault γ} {g : β → Except Fault γ} {xs : List α}
    {ys : List β} (h : List.Forall₂ (fun x y => Agree r p (f x) (g y)) xs ys) :
    Agree r p (xs.mapM f) (ys.mapM g) := by
  refine (Alike.mapM h).mono fun as bs hall hp => ?_
  exact List.forall₂_eq_eq_eq ▸ hall.imp fun _ _ hab => hab hp

/-! ## documents -/

/-- the parts of two documents are read alike, as far as they were asked for -/
structure Slots.ReadAlike (r : Fault → Fault → Prop) (p : Prop) (s : ReplyShape) (x y : Slots) :
    Prop where
  id : Agree r p x.id.name y.id.name
  score : Alike r Eq (readScore s.withScores x.score) (readScore s.withScores y.score)
  /-- only what is made of the payload has to be the same -/
  payload : Alike r (fun u v => Document.payloadText u = Document.payloadText v)
    (readPayload s.withPayloads x.payload) (readPayload s.withPayloads y.payload)
  fields : Agree r p (readFields (!s.noContent) x.fields) (readFields (!s.noContent) y.fields)

theorem Document.ofBlock_agree {x y : Slots} (hr : ∀ f, r f f) (h : x.ReadAlike r p s y) :
    Agree r p (ofBlock s (s.block x)) (ofBlock s (s.block y)) := by
  rw [ofBlock_block, ofBlock_block]
  refine h.id.bind fun id id' hid => h.score.bind fun score score' hscore => ?_
  refine h.payload.bind fun u u' hu => h.fields.bind fun fields fields' hfields => ?_
  have hpayload : Alike r Eq (payloadText u) (payloadText u') := .of_eq hr (fun _ => rfl) hu
  refine hpayload.bind fun payload payload' hp => .ok fun hplain => ?_
  rw [hid hplain, hscore, hp, hfields hplain]

/-! ## search replies -/

theorem Reply.get_blocks {w n i : Nat} {body : List Value} (head : Value)
    (h : i < (blocks w n body).length) : (blocks w n body).get ⟨i, h⟩ = slice w i (head :: body) := by
  have hget : (blocks w n body)[i]? = some (slice w i (head :: body)) :=
    getElem?_blocks_slice (length_blocks w n body ▸ h)
  rw [List.getElem?_eq_getElem h] at hget
  exact Option.some.inj hget

/-- two replies that have the same number of elements, and whose totals and documents are read alike -/
theorem SearchResult.decode_agree {reply reply' head head' : Value} {body body' : List Value}
    (hr : ∀ f, r f f) (hv : reply.items? = some (head :: body))
    (hw : reply'.items? = some (head' :: body')) (hlen : body.length = body'.length)
    (htotal : Alike r Eq (head.expectInt .resultTotal) (head'.expectInt .resultTotal))
    (hdocs : s.stride ∣ body.length → ∀ i < body.length / s.stride, ∃ x y : Slots,
      Reply.slice s.stride i (head :: body) = s.block x
        ∧ Reply.slice s.stride i (head' :: body') = s.block y ∧ x.ReadAlike r p s y) :
    Agree r p (decode s reply) (decode s reply') := by
  by_cases hd : s.stride ∣ body.length
  · rw [decode_of_dvd hv hd, decode_of_dvd hw (hlen ▸ hd), ← hlen]
    have hblocks : List.Forall₂ (fun b b' => Agree r p (Document.ofBlock s b) (Document.ofBlock s b'))
        (Reply.blocks s.stride (body.length / s.stride) body)
        (Reply.blocks s.stride (body.length / s.stride) body') := by
      rw [List.forall₂_iff_get]
      refine ⟨by rw [Reply.length_blocks, Reply.length_blocks], fun i h h' => ?_⟩
      have hi : i < body.length / s.stride := by rwa [Reply.length_blocks] at h
      obtain ⟨x, y, hx, hy, hxy⟩ := hdocs hd i hi
      rw [Reply.get_blocks head h, Reply.get_blocks head' h', hx, hy]
      exact Document.ofBlock_agree hr hxy
    refine htotal.bind fun total total' ht => ?_
    refine (Agree.mapM hblocks).bind fun ds ds' hds => .ok fun hp => ?_
    rw [ht, hds hp]
  · generalize ht : head.expectInt .resultTotal = total at htotal
    generalize ht' : head'.expectInt .resultTotal = total' at htotal
    cases htotal with
    | ok =>
      rw [decode_of_not_dvd hv ht hd, decode_of_not_dvd hw ht' (hlen ▸ hd), hlen]
      exact .error (hr _)
    | error h =>
      rw [decode_of_total hv ht, decode_of_total hw ht']
      exact .error h

/-! ## replies of aggregations and cursors -/

namespace Batch

/-- two batches have the same cursor, and are the same as far as `p` holds -/
def SameCursor (p : Prop) (b b' : Batch) : Prop := b.cursor = b'.cursor ∧ (p → b = b')

theorem decodeRows_agree {reply reply' head head' : Value} {body body' : List Value}
    (cursor : Option Int) (hv : reply.items? = some (head :: body))
    (hw : reply'.items? = some (head' :: body'))
    (htotal : Alike r Eq (head.expectInt .aggregationTotal) (head'.expectInt .aggregationTotal))
    (hrows : List.Forall₂ (fun v w => Agree r p (Reply.pairs v) (Reply.pairs w)) body body') :
    Alike r (SameCursor p) (decodeRows cursor reply) (decodeRows cursor reply') := by
  rw [decodeRows, decodeRows, hv, hw]
  refine htotal.bind fun total total' ht => ?_
  refine (Agree.mapM hrows).bind fun rows rows' h => .ok ⟨rfl, fun hp => ?_⟩
  rw [ht, h hp]

theorem decodeCursor_agree {reply reply' rows rows' id id' : Value}
    (hv : reply.items? = some [rows, id]) (hw : reply'.items? = some [rows', id'])
    (hid : Alike r Eq (id.expectInt .cursorId) (id'.expectInt .cursorId))
    (hrows : ∀ c, Alike r (SameCursor p) (decodeRows (some c) rows) (decodeRows (some c) rows')) :
    Alike r (SameCursor p) (decodeCursor reply) (decodeCursor reply') := by
  rw [decodeCursor, decodeCursor, hv, hw]
  refine hid.bind fun c c' hc => ?_
  rw [← hc]
  exact hrows c

end Batch

end FullText

import FullText.Grammar.Search
import FullText.Proofs.Outcome
import FullText.Proofs.Value.Written
import FullText.Reply.Search

/-!
# Engines that answer searches

* `Hit`              a document that an engine has found, and what it means by it;
* `Hit.LaidOut`      the elements of a hit in a reply, as far as the command has asked for them;
* `Answers`          a reply that lays out a total and some hits;
* `Hit.document`     the document that the caller should get;
* `decode_answers`   a reply is decoded to the documents of its hits.

An engine knows the options of a command only by reading its tokens, and the decoder knows them only
from the request.  `decode_answers` asks that both have the same options.
-/

namespace FullText

open Value

/-- a document that an engine has found; its score is a text that spells a number -/
structure Hit where
  id : String
  scoreText : String
  score : Binary64
  payload : Option String
  fields : Option (List (String × Value))
  score_reads : Numeral.readFloat? scoreText = some score

/-- the options that lay out a reply, as a command has them -/
def SearchReading.shape (r : SearchReading) : ReplyShape :=
  ⟨r.noContent, r.withScores, r.withPayloads, false⟩

namespace Hit

/-- The elements of a hit: its id, its score if scores were asked for, its payload if payloads were
    asked for, and its fields unless no content was asked for. -/
inductive LaidOut (r : SearchReading) (h : Hit) : List Value → Prop where
  | intro {id score payload fields : Value} (writes_id : Writes (.text h.id) id)
    (writes_score : Writes (.text h.scoreText) score)
    (writes_payload : Writes (h.payload.elim .nil .text) payload)
    (writes_fields : WritesPairs h.fields fields) :
    LaidOut r h (id :: ((if r.withScores then [score] else [])
      ++ (if r.withPayloads then [payload] else []) ++ (if r.noContent then [] else [fields])))

/-- the document of a hit, with the parts that were asked for; a name that has several values in the
    fields has the last of them -/
def document (r : SearchReading) (h : Hit) : Document where
  id := h.id
  score := if r.withScores then some h.score else none
  payload := if r.withPayloads then h.payload else none
  fields := if r.noContent then {} else Bindings.ofList (h.fields.getD [])

end Hit

/-- a reply that lays out a total and some hits for a command that reads as `r` -/
def Answers (r : SearchReading) (total : Int) (hits : List Hit) (reply : Value) : Prop :=
  ∃ blocks, List.Forall₂ (Hit.LaidOut r) hits blocks
    ∧ reply.items? = some (.int total :: blocks.flatten)

/-! ## one document -/

theorem Document.payloadText_writes {p : Option String} {w : Value}
    (h : Writes (p.elim .nil .text) w) :
    ∃ v, w.asText = .ok v ∧ payloadText v = .ok p := by
  cases p with
  | none =>
    cases h
    exact ⟨.nil, rfl, rfl⟩
  | some s => exact ⟨.text s, Writes.asText_eq h, rfl⟩

theorem Hit.LaidOut.length_eq {r : SearchReading} {h : Hit} {block : List Value}
    (hb : h.LaidOut r block) : block.length = r.shape.stride := by
  cases hb
  unfold SearchReading.shape ReplyShape.stride
  cases r.withScores <;> cases r.withPayloads <;> cases r.noContent <;> rfl

/-- The slots that the decoder looks at are those that the engine has filled. -/
theorem Hit.LaidOut.ofBlock_eq {r : SearchReading} {h : Hit} {block : List Value}
    (hb : h.LaidOut r block) : Document.ofBlock r.shape block = .ok (h.document r) := by
  cases hb with
  | @intro id score payload fields hi hs hp hf =>
    have hid : id.name = .ok h.id := hi.name_eq
    have hscore : score.expectFloat .documentScore = .ok h.score :=
      hs.expectFloat_eq .documentScore h.score_reads
    obtain ⟨v, hv, hpay⟩ := Document.payloadText_writes hp
    have hnone : Document.payloadText .nil = .ok none := rfl
    have hfields : Reply.pairs fields = .ok (Bindings.ofList (h.fields.getD [])) := hf.pairs_eq
    unfold Document.ofBlock Hit.document SearchReading.shape
    -- every combination of options has slots of its own
    cases r.withScores <;> cases r.withPayloads <;> cases r.noContent <;>
      simp [hid, hscore, hv, hpay, hnone, hfields, bind, Except.bind, pure, Except.pure,
        Functor.map, Except.map]

/-! ## all documents -/

theorem Reply.blocks_flatten {α : Type} {w : Nat} {bs : List (List α)}
    (h : ∀ b ∈ bs, b.length = w) : blocks w bs.length bs.flatten = bs := by
  induction bs with
  | nil => rfl
  | cons b bs ih =>
    have hb : b.length = w := h b List.mem_cons_self
    rw [List.length_cons, blocks, List.flatten_cons, List.take_left' hb, List.drop_left' hb,
      ih fun c hc => h c (List.mem_cons_of_mem _ hc)]

theorem Reply.length_flatten {α : Type} {w : Nat} {bs : List (List α)}
    (h : ∀ b ∈ bs, b.length = w) : bs.flatten.length = bs.length * w := by
  rw [List.length_flatten, List.map_congr_left h, List.map_const', List.sum_replicate_nat]

theorem Hit.LaidOut.length_of_mem {r : SearchReading} {hits : List Hit}
    {blocks : List (List Value)} (h : List.Forall₂ (Hit.LaidOut r) hits blocks) :
    ∀ b ∈ blocks, b.length = r.shape.stride := by
  induction h with
  | nil => exact fun b hb => absurd hb List.not_mem_nil
  | cons hb _ ih =>
    intro b hm
    rcases List.mem_cons.mp hm with rfl | hm
    · exact hb.length_eq
    · exact ih b hm

theorem Document.mapM_ofBlock {r : SearchReading} {hits : List Hit} {blocks : List (List Value)}
    (h : List.Forall₂ (Hit.LaidOut r) hits blocks) :
    blocks.mapM (Document.ofBlock r.shape) = .ok (hits.map (Hit.document r)) :=
  Outcome.mapM_eq_map h fun _ _ hb => hb.ofBlock_eq

/-- A reply that lays out some hits is decoded to their documents, in order. -/
theorem decode_answers {r : SearchReading} {total : Int} {hits : List Hit} {reply : Value}
    (h : Answers r total hits reply) :
    SearchResult.decode r.shape reply = .ok ⟨total, hits.map (Hit.document r), !r.noContent⟩ := by
  obtain ⟨blocks, hb, hr⟩ := h
  have hw := Hit.LaidOut.length_of_mem hb
  have hl := Reply.length_flatten hw
  have hmod : blocks.flatten.length % r.shape.stride = 0 := by rw [hl, Nat.mul_mod_left]
  have hdiv : blocks.flatten.length / r.shape.stride = blocks.length := by
    rw [hl, Nat.mul_div_cancel _ r.shape.stride_pos]
  have ht : Value.expectInt .resultTotal (.int total) = .ok total := rfl
  simp only [SearchResult.decode, hr, ht, hmod, hdiv, Reply.blocks_flatten hw,
    Document.mapM_ofBlock hb]
  rfl

end FullText

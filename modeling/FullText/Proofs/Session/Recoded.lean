import FullText.Proofs.Reply.Recoded
import FullText.Proofs.Session.Commands

/-!
# Sessions with a client that has decoded some bytes

* `Exchange.Steady q x`      what an exchange makes of a reply is related by `q` to what it makes of the
                             reply with some bytes decoded;
* `Session.PlainFor s st v`  no array is in the place of a text that the step `st` reads in the reply `v`;
* `Transport.Recodes t t' r` of two transports the second gives the replies of the first, with some bytes
                             decoded;
* `Session.step_recoded`     the session after a step is the same in any case, and so is the answer to it
                             if the reply is plain for it;
* `Session.recoded_alike`    then a session sends the same commands through both, whatever is done in it,
                             and gets the same answers.
-/

namespace FullText

open Outcome

variable {σ σ' : Type}

namespace Exchange

variable {α β : Type} {q : Value → α → α → Prop}

/-- what is made of a reply is related by `q` to what is made of it with some bytes decoded -/
inductive Steady (q : Value → α → α → Prop) : Exchange α → Prop where
  | answered (outcome : Except Fault α) : Steady q (ExceptT.mk (pure outcome))
  | asking (command : List Token) {decode : Value → Except Fault α}
    (h : ∀ v w, v.Recoded w → Alike Fault.SameKind (q v) (decode v) (decode w)) :
    Steady q (asking command decode)

theorem Steady.map {q' : Value → β → β → Prop} {e : Exchange α} (f : α → β) (h : e.Steady q)
    (hq : ∀ v a b, q v a b → q' v (f a) (f b)) : Exchange.Steady q' (f <$> e) := by
  cases h with
  | answered outcome => cases outcome <;> exact .answered _
  | asking command h =>
    rw [map_asking]
    exact .asking command fun v w hvw => (h v w hvw).map (hq v)

theorem Steady.imp {q' : Value → α → α → Prop} {e : Exchange α} (h : e.Steady q)
    (hq : ∀ v a b, q v a b → q' v a b) : e.Steady q' := by
  cases h with
  | answered outcome => exact .answered outcome
  | asking command h => exact .asking command fun v w hvw => (h v w hvw).mono (hq v)

/-- Through two transports an exchange gives the same, unless there is a reply: then it gives what is
    related by `q`. -/
theorem Steady.run {e : Exchange α} {t : Transport σ} {t' : Transport σ'} {x : σ} {x' : σ'}
    (h : e.Steady q)
    (hreply : ∀ c, e.command? = some c → Alike Eq Value.Recoded (t c x).1 (t' c x').1) :
    Alike Fault.SameKind
      (fun a b => a = b ∨ ∃ v, (e.command?.map fun c => (t c x).1) = some (.ok v) ∧ q v a b)
      (e.run t x).outcome (e.run t' x').outcome := by
  cases h with
  | answered outcome => exact .refl .same (fun _ => .inl rfl) outcome
  | asking command h =>
    have hcommand := hreply command rfl
    rw [command?_asking, run_asking, run_asking, Option.map_some]
    generalize (t command x).1 = reply at hcommand ⊢
    generalize (t' command x').1 = reply' at hcommand ⊢
    cases hcommand with
    | error heq => exact .of_eq .same (fun _ => .inl rfl) (by rw [heq])
    | @ok v w hvw => exact (h v w hvw).mono fun a b hab => .inr ⟨v, rfl, hab⟩

end Exchange

namespace Session

/-! ## one step -/

/-- No array is in the place of a text that a step reads in a reply: as the id of a document, as a name,
    or as a line. -/
def PlainFor (s : Session) : Step → Value → Prop
  | .search _ name, v => ∀ q, s.queryOf name = .ok q → SearchResult.Plain q.shape v
  | .aggregate _ name, v => ∀ a, s.aggregationOf name = .ok a → Batch.Plain a.shape.withCursor v
  | .cursorRead .., v | .next _, v => Batch.Plain true v
  | .info _, v => Reply.PlainNames v
  | .explain .., v => v.items? = none
  | .explainLines .., v => Reply.PlainLines v
  | _, _ => True

theorem steady_search (index : String) (q : Query) (default : Option Int) :
    (Client.search index q default).Steady fun v r r' => SearchResult.Plain q.shape v → r = r' := by
  cases hc : Command.search index q default with
  | ok command =>
    rw [Client.search_of_ok hc]
    exact .asking command fun _ _ h => SearchResult.decode_recoded h
  | error f =>
    rw [Client.search_of_error hc]
    exact .answered (.error f)

theorem steady_aggregate (index : String) (a : Aggregation) (default : Option Int) :
    (Client.aggregate index a default).Steady fun v => Batch.SameCursor
      (Batch.Plain a.shape.withCursor v) :=
  .asking _ fun _ _ h => Batch.decode_recoded a.shape h

theorem steady_cursorRead (index : String) (cursor : Int) (count : Option Int) :
    (Client.cursorRead index cursor count).Steady fun v => Batch.SameCursor (Batch.Plain true v) :=
  .asking _ fun _ _ h => Batch.decodeCursor_recoded h

theorem steady_cursorDelete (index : String) (cursor : Int) :
    (Client.cursorDelete index cursor).Steady fun _ b b' => b = b' :=
  .asking _ fun _ _ h => .of_eq .same (fun _ => rfl) (Reply.isOk_recoded h)

/-- two batches, if there are any, have the same cursor, and are the same but for the names in them -/
def SameNext (v : Value) (b b' : Option Batch) : Prop :=
  b.map Batch.cursor = b'.map Batch.cursor ∧ (Batch.Plain true v → b = b')

theorem SameNext.some {v : Value} {b b' : Batch} (h : b.SameCursor (Batch.Plain true v) b') :
    SameNext v (Option.some b) (Option.some b') :=
  ⟨congrArg Option.some h.1, fun hp => congrArg Option.some (h.2 hp)⟩

theorem steady_next (it : Iteration) (request : Nat → Except Fault Aggregation)
    (default : Option Int) : (it.next request default).Steady SameNext := by
  have h := it.nexts_next request default
  generalize it.next request default = e at h
  cases h with
  | exhausted => exact .answered (.ok none)
  | missing => exact .answered (.error _)
  | first =>
    refine (steady_aggregate _ _ _).map some fun v b b' h => SameNext.some ?_
    rwa [Aggregation.shape_withCursor] at h
  | later => exact (steady_cursorRead _ _ _).map some fun v b b' => SameNext.some

theorem steady_close (it : Iteration) : it.close.Steady fun _ _ _ => True := by
  have h := it.closes_close
  generalize it.close = e at h
  cases h with
  | idle => exact .answered (.ok ())
  | release => exact (steady_cursorDelete _ _).map _ fun _ _ _ _ => trivial

/-- Of a batch, only the cursor decides how an iteration goes on. -/
theorem progress_congr {b b' : Option Batch} (h : b.map Batch.cursor = b'.map Batch.cursor) :
    Progress.after (.ok (.nextBatch b)) = .after (.ok (.nextBatch b')) := by
  cases b with
  | none =>
    cases b' with
    | none => rfl
    | some b' => cases h
  | some b =>
    cases b' with
    | none => cases h
    | some b' =>
      show Progress.suspended (b.cursor.getD 0) = .suspended _
      rw [Option.some.inj h]

/-! ## runs -/

/-- what is the same in two steps: all but the state of the other side, and the answer as far as `p`
    does not hold -/
structure Entry.SameBut (r : σ → σ' → Prop) (p : Prop) (e : Entry σ) (e' : Entry σ') : Prop where
  sent : e.sent = e'.sent
  session : e.session = e'.session
  state : r e.state e'.state
  outcome : Agree Fault.SameKind p e.outcome e'.outcome

end Session

/-- In states that are related by `r`, the second transport gives the reply of the first one, with some
    bytes decoded, or the same failure. -/
def Transport.Recodes (t : Transport σ) (t' : Transport σ') (r : σ → σ' → Prop) : Prop :=
  ∀ c x x', r x x' → Alike Eq Value.Recoded (t c x).1 (t' c x').1 ∧ r (t c x).2 (t' c x').2

/-- Prepared replies are recoded one by one. -/
theorem Transport.prepared_recodes :
    prepared.Recodes prepared (List.Forall₂ (Alike Eq Value.Recoded)) := by
  intro c rs rs' h
  cases h with
  | nil => exact ⟨.error rfl, .nil⟩
  | cons hreply hrest => exact ⟨hreply, hrest⟩

namespace Session

variable {t : Transport σ} {t' : Transport σ'} {r : σ → σ' → Prop} {x : σ} {x' : σ'}

/-- the reply to a step, if there is one, is plain for it -/
def PlainReply (t : Transport σ) (s : Session) (x : σ) (st : Step) : Prop :=
  ∀ v, ((s.command? st).map fun c => (t c x).1) = some (.ok v) → s.PlainFor st v

theorem state_recoded (h : t.Recodes t' r) (hx : r x x') (s : Session) (st : Step) :
    r (s.step t x st).state (s.step t' x' st).state := by
  rw [state_step, state_step]
  cases s.command? st with
  | none => exact hx
  | some c => exact (h c x x' hx).2

/-- A step that does not come to an exchange is the same in any case. -/
theorem step_done_recoded {s s' : Session} {st : Step} {o : Except Fault Answer}
    (h : t.Recodes t' r) (hx : r x x') (hp : (perform st).on s = .done (o, s')) :
    Entry.SameBut r (PlainReply t s x st) (s.step t x st) (s.step t' x' st) where
  sent := by rw [sent_step, sent_step]
  session := by rw [step_of_done hp t x, step_of_done hp t' x']
  state := state_recoded h hx s st
  outcome := by
    rw [step_of_done hp t x, step_of_done hp t' x']
    exact .refl .same (fun _ _ => rfl) o

/-- A step that comes to a steady exchange is the same, but for what is read of a reply that is not
    plain, if that decides neither about the session that is left. -/
theorem step_steady_recoded {s : Session} {st : Step} {α : Type} {e : Exchange α}
    {q : Value → α → α → Prop} {answer : α → Answer} {left : Except Fault α → Session}
    (h : t.Recodes t' r) (hx : r x x')
    (hp : (perform st).on s = (fun o => (o.map answer, left o)) <$> ExceptT.run e) (he : e.Steady q)
    (hanswer : ∀ v a b, q v a b → s.PlainFor st v → answer a = answer b)
    (hfailed : ∀ f f', left (.error f) = left (.error f'))
    (hleft : ∀ v a b, q v a b → left (.ok a) = left (.ok b)) :
    Entry.SameBut r (PlainReply t s x st) (s.step t x st) (s.step t' x' st) := by
  have hrun := he.run fun c _ => (h c x x' hx).1
  rw [← command?_of_map hp] at hrun
  refine ⟨by rw [sent_step, sent_step], ?_, state_recoded h hx s st, ?_⟩
  · rw [step_of_map hp t x, step_of_map hp t' x']
    simp only
    generalize (e.run t x).outcome = o at hrun ⊢
    generalize (e.run t' x').outcome = o' at hrun ⊢
    cases hrun with
    | error => exact hfailed _ _
    | ok hab =>
      obtain rfl | ⟨v, -, hq⟩ := hab
      · rfl
      · exact hleft v _ _ hq
  · rw [step_of_map hp t x, step_of_map hp t' x']
    refine hrun.map fun a b hab hplain => ?_
    obtain rfl | ⟨v, hv, hq⟩ := hab
    · rfl
    · exact hanswer v a b hq (hplain v hv)

/-- A step that asks for something itself does not touch the session. -/
theorem step_asking_recoded {s : Session} {st : Step} {α : Type} {answer : α → Answer}
    {e : Session → Exchange α} (h : t.Recodes t' r) (hx : r x x')
    (hp : perform st = asking answer e)
    (he : (e s).Steady fun v a b => s.PlainFor st v → a = b) :
    Entry.SameBut r (PlainReply t s x st) (s.step t x st) (s.step t' x' st) := by
  have hon := s.on_asking answer e
  rw [← hp] at hon
  exact step_steady_recoded h hx hon he (fun _ _ _ heq hplain => congrArg answer (heq hplain))
    (fun _ _ => rfl) fun _ _ _ _ => rfl

theorem step_recoded (h : t.Recodes t' r) (hx : r x x') (s : Session) (st : Step) :
    Entry.SameBut r (PlainReply t s x st) (s.step t x st) (s.step t' x' st) := by
  have hsilent (hst : st.Silent) :
      Entry.SameBut r (PlainReply t s x st) (s.step t x st) (s.step t' x' st) := by
    obtain ⟨o, ho⟩ := on_silent (s := s) hst
    exact step_done_recoded h hx ho
  cases st with
  | query | aggregation | callQuery | callAggregation | compile | setDefault => exact hsilent trivial
  | search index name =>
    refine step_asking_recoded h hx rfl ?_
    cases hq : s.queryOf name with
    | error f => exact .answered (.error f)
    | ok q => exact (steady_search index q s.default).imp fun v r r' heq hp => heq (hp q hq)
  | aggregate index name =>
    refine step_asking_recoded h hx rfl ?_
    cases ha : s.aggregationOf name with
    | error f => exact .answered (.error f)
    | ok a => exact (steady_aggregate index a s.default).imp fun v b b' heq hp => heq.2 (hp a ha)
  | cursorRead index cursor count =>
    exact step_asking_recoded h hx rfl
      ((steady_cursorRead index cursor count).imp fun v b b' heq => heq.2)
  | cursorDelete index cursor =>
    exact step_asking_recoded h hx rfl
      ((steady_cursorDelete index cursor).imp fun v b b' heq _ => heq)
  | info index =>
    exact step_asking_recoded h hx rfl (.asking _ fun _ _ h => Reply.info_recoded h)
  | explain index text dialect =>
    exact step_asking_recoded h hx rfl (.asking _ fun _ _ h => h.name)
  | explainLines index text dialect =>
    exact step_asking_recoded h hx rfl (.asking _ fun _ _ h => Reply.explainLines_recoded h)
  | iterate iteration index name count =>
    cases hp : s.place name with
    | error f => exact step_done_recoded h hx (on_iterate_missing hp)
    | ok p =>
      -- what is heard when the old iteration is given up does not matter, whatever it is
      refine ⟨by rw [sent_step, sent_step], ?_, state_recoded h hx s _, ?_⟩
      · rw [session_iterate t x hp, session_iterate t' x' hp]
      · rw [step_iterate t x hp, step_iterate t' x' hp]
        exact .ok fun _ => rfl
  | next iteration =>
    cases hit : s.iterationOf iteration with
    | error f => exact step_done_recoded h hx (on_next_missing hit)
    | ok it =>
      refine step_steady_recoded h hx (on_next hit) (steady_next it _ s.default)
        (fun v b b' heq hplain => congrArg _ (heq.2 hplain)) (fun _ _ => rfl) fun v b b' heq => ?_
      exact congrArg (fun p => s.setIteration iteration { it with progress := p })
        (progress_congr heq.1)
  | close iteration =>
    cases hit : s.iterationOf iteration with
    | error f => exact step_done_recoded h hx (on_close_missing hit)
    | ok it =>
      exact step_steady_recoded h hx (on_close hit) (steady_close it) (fun _ _ _ _ _ => rfl)
        (fun _ _ => rfl) fun _ _ _ _ => rfl

/-- all replies in a run are plain for the steps that get them -/
def PlainRun (t : Transport σ) (s : Session) (x : σ) : List Step → Prop
  | [] => True
  | st :: sts => PlainReply t s x st
    ∧ PlainRun t (s.step t x st).session (s.step t x st).state sts

theorem steps_recoded (h : t.Recodes t' r) (hx : r x x') (s : Session) (sts : List Step) :
    List.Forall₂ (Entry.SameBut r (PlainRun t s x sts)) (s.steps t x sts) (s.steps t' x' sts) := by
  induction sts generalizing s x x' with
  | nil => exact .nil
  | cons st sts ih =>
    have hfirst := step_recoded h hx s st
    rw [steps, steps, ← hfirst.session]
    refine .cons ?_ ((ih hfirst.state _).imp fun e e' he => ?_)
    · exact { hfirst with outcome := hfirst.outcome.of_imp fun hplain => hplain.1 }
    · exact { he with outcome := he.outcome.of_imp fun hplain => hplain.2 }

/-- Whether a client has decoded the bytes of a reply does not matter to the decoders, nor to a session:
    it sends the same commands, goes through the same states, and gets the same answers, or faults that
    are the same but for the values in their messages. -/
theorem recoded_alike :
    (∀ v w : Value, v.Recoded w → Reply.ReadAlike v w)
      ∧ ∀ (σ σ' : Type) (t : Transport σ) (t' : Transport σ') (r : σ → σ' → Prop), t.Recodes t' r →
        ∀ s x x' sts, r x x' →
          List.Forall₂ (Entry.SameBut r (PlainRun t s x sts)) (s.steps t x sts) (s.steps t' x' sts) :=
  ⟨fun _ _ => Reply.readAlike, fun _ _ _ _ _ h s _ _ sts hx => steps_recoded h hx s sts⟩

/-- a client that has decoded one value of the first reply, and nothing else -/
def codedReplies : List (Except String Value) :=
  let name := Text.Utf8.encode "name"
  [.ok (.array [.array [.int 1, .array [.bytes name, .text "Ann"]], .int 7]), .error "busy",
    .ok (.bytes (Text.Utf8.encode "OK"))]

/-- a client that has decoded everything -/
def decodedReplies : List (Except String Value) :=
  [.ok (.array [.array [.int 1, .array [.text "name", .text "Ann"]], .int 7]), .error "busy",
    .ok (.text "OK")]

def readThenRelease : List Step :=
  [.cursorRead "idx" 5 none, .info "idx", .cursorDelete "idx" 7]

theorem codedReplies_recoded :
    List.Forall₂ (Alike Eq Value.Recoded) codedReplies decodedReplies := by
  refine .cons (.ok (.array ?_)) (.cons (.error rfl) (.cons (.ok (.text "OK")) .nil))
  refine .cons (.array ?_) (.refl _)
  exact .cons (.same _) (.cons (.array (.cons (.text "name") (.refl _))) .nil)

theorem plain_codedReplies : PlainRun .prepared {} codedReplies readThenRelease := by
  refine ⟨fun v hv => ?_, fun v hv => ?_, fun v _ => trivial, trivial⟩
  · cases Except.ok.inj (Option.some.inj hv)
    rintro row ⟨rows, head, body, ⟨id, hitems⟩, hrows, hrow⟩ es hes e he
    cases hitems
    cases hrows
    cases List.mem_singleton.mp hrow
    cases Reply.entries?_eq_some_iff.mpr hes
    cases List.mem_singleton.mp he
    rfl
  · rw [state_step] at hv
    have hbusy : (.error "busy" : Except String Value) = .ok v := Option.some.inj hv
    cases hbusy

/-- The same is sent, and the answers are the same, although one client hears bytes and the other
    texts. -/
theorem recoded_alike_mixed :
    Reply.ReadAlike (.bytes (Text.Utf8.encode "OK")) (.text "OK")
      ∧ List.Forall₂
        (fun e e' => e.sent = e'.sent ∧ e.session = e'.session
          ∧ Agree Fault.SameKind True e.outcome e'.outcome)
        (steps .prepared {} codedReplies readThenRelease)
        (steps .prepared {} decodedReplies readThenRelease) := by
  refine ⟨recoded_alike.1 _ _ (.text "OK"), ?_⟩
  have hsteps := recoded_alike.2 _ _ _ _ _ Transport.prepared_recodes {} codedReplies decodedReplies
    readThenRelease codedReplies_recoded
  exact hsteps.imp fun e e' h => ⟨h.sent, h.session, h.outcome.of_imp fun _ => plain_codedReplies⟩

end Session

end FullText

import FullText.Proofs.Building.Settings
import FullText.Proofs.Session.Commands

/-!
# Steps that fail

* `Session.requested_of_failure`  a step that sends nothing checks before it assigns: if it fails, the
                                  session is the one before it;
* `Session.giveUp`                the session before a step, in which an iteration that the step is about
                                  has ended;
* `Session.session_of_failure`    a step that fails leaves this session, wherever it fails;
* `Session.outcome_of_failure`    what the other side raises is what comes of a step, but for the start
                                  of an iteration;
* `Session.FailsCleanly`          what a step sends and what it leaves if it fails, whatever is answered;
* `Session.failsCleanly`          every step fails cleanly.

An iteration that is started under the name of an old one gives the old one up, and nobody is told
how that goes: this is the one failure that is no failure of the step.
-/

namespace FullText

variable {σ : Type}

namespace Session

/-- the step that starts an iteration -/
def Step.Iterates : Step → Prop
  | .iterate .. => True
  | _ => False

/-! ## calls that fail -/

theorem draft_of_queryOf {s : Session} {name : String} {p : Nat} {q : Query}
    (hp : s.place name = .ok p) (hq : s.queryOf name = .ok q) : s.drafts[p]? = some (.query q) := by
  unfold queryOf queryAt at hq
  rw [hp] at hq
  simp only [bind, Except.bind] at hq
  cases hd : s.drafts[p]? with
  | none =>
    rw [hd] at hq
    cases hq
  | some d =>
    rw [hd] at hq
    cases d with
    | query q' =>
      cases hq
      rfl
    | aggregation a => cases hq

theorem draft_of_aggregationOf {s : Session} {name : String} {p : Nat} {a : Aggregation}
    (hp : s.place name = .ok p) (ha : s.aggregationOf name = .ok a) :
    s.drafts[p]? = some (.aggregation a) := by
  unfold aggregationOf aggregationAt at ha
  rw [hp] at ha
  simp only [bind, Except.bind] at ha
  cases hd : s.drafts[p]? with
  | none =>
    rw [hd] at ha
    cases ha
  | some d =>
    rw [hd] at ha
    cases d with
    | query q => cases ha
    | aggregation a' =>
      cases ha
      rfl

/-- A builder that checks first leaves its object as it was if the call is an error of the step. -/
theorem after_of_failure {ρ κ : Type} {call : κ → Method ρ Unit} {fault? : κ → Option Fault}
    (hc : Building.ChecksFirst call fault?) {r : ρ} {c : κ} {f : Fault}
    (h : ((call c).on r).1.map (fun _ => Answer.nothing) = .error f) :
    Building.after call r c = r := by
  refine hc.after_of_fault (f := f) ?_
  rw [Building.faultOf]
  cases ho : ((call c).on r).1 with
  | ok _ =>
    rw [ho] at h
    cases h
  | error f' =>
    rw [ho] at h
    cases h
    rfl

/-- Of the steps that send nothing, those that fail have not assigned anything by then. -/
theorem requested_of_failure {s s' : Session} {st : Step} {f : Fault} (hst : st.Silent)
    (h : (perform st).on s = .done (.error f, s')) : s.requested st = s := by
  cases st with
  | query name text calls =>
    rw [requested]
    cases hq : Query.build text calls with
    | error f' => rfl
    | ok q =>
      rw [perform, hq] at h
      cases h
  | aggregation name text calls =>
    rw [requested]
    cases ha : Aggregation.build text calls with
    | error f' => rfl
    | ok a =>
      rw [perform, ha] at h
      cases h
  | callQuery name c =>
    rw [perform, on_call] at h
    rw [requested]
    cases hp : s.place name with
    | error f' => rfl
    | ok p =>
      cases hq : s.queryOf name with
      | error f' => rfl
      | ok q =>
        rw [hp, hq] at h
        have hleft := after_of_failure Query.checksFirst_call
          (congrArg Prod.fst (Dialogue.done.inj h))
        simp only [hleft]
        exact replace_self (draft_of_queryOf hp hq)
  | callAggregation name c =>
    rw [perform, on_call] at h
    rw [requested]
    cases hp : s.place name with
    | error f' => rfl
    | ok p =>
      cases ha : s.aggregationOf name with
      | error f' => rfl
      | ok a =>
        rw [hp, ha] at h
        have hleft := after_of_failure Aggregation.checksFirst_call
          (congrArg Prod.fst (Dialogue.done.inj h))
        simp only [hleft]
        exact replace_self (draft_of_aggregationOf hp ha)
  | compile name => rfl
  | setDefault dialect =>
    cases dialect with
    | none => cases h
    | some d =>
      rw [on_setDefault] at h
      by_cases hd : d = 0
      · exact if_pos hd
      · rw [if_neg hd] at h
        cases h
  | _ => exact hst.elim

/-! ## the session that is left -/

/-- the iteration that a step ends if it fails -/
def Step.ended? : Step → Option String
  | .next g | .close g => some g
  | _ => none

/-- the session in which an iteration that a step is about has ended -/
def giveUp (s : Session) (st : Step) : Session :=
  match st.ended? with
  | some g =>
    match s.iterations.get? g with
    | some it => s.setIteration g it.finish
    | none => s
  | none => s

theorem giveUp_of_not_ended {st : Step} (s : Session) (h : st.ended? = none) : s.giveUp st = s := by
  rw [giveUp, h]

theorem giveUp_of_iterationOf {s : Session} {st : Step} {g : String} {it : Iteration}
    (h : st.ended? = some g) (hit : s.iterationOf g = .ok it) :
    s.giveUp st = s.setIteration g it.finish := by
  rw [giveUp, h]
  simp only [get?_of_iterationOf hit]

theorem giveUp_of_missing {s : Session} {st : Step} {g : String} {f : Fault}
    (h : st.ended? = some g) (hf : s.iterationOf g = .error f) : s.giveUp st = s := by
  unfold iterationOf at hf
  rw [giveUp, h]
  cases hg : s.iterations.get? g with
  | none => simp only [hg]
  | some it =>
    rw [hg] at hf
    cases hf

theorem session_of_request_failure {s : Session} {t : Transport σ} {x : σ} {st : Step} {f : Fault}
    (hi : st.iteration? = none) (h : (s.step t x st).outcome = .error f) :
    (s.step t x st).session = s := by
  rw [session_of_request t x hi]
  have hr := requests_perform (s := s) hi
  generalize hp : (perform st).on s = d at hr
  cases hr with
  | asking answer he hs => exact hs
  | silent hst o =>
    rw [step_of_done hp t x] at h
    cases h
    exact requested_of_failure hst hp

/-- A step that fails leaves the session before it, given up, wherever it fails. -/
theorem session_of_failure {s : Session} {t : Transport σ} {x : σ} {st : Step} {f : Fault}
    (h : (s.step t x st).outcome = .error f) : (s.step t x st).session = s.giveUp st := by
  cases hi : st.iteration? with
  | none =>
    have hended : st.ended? = none := by
      cases st with
      | next | close => cases hi
      | _ => rfl
    rw [session_of_request_failure hi h, giveUp_of_not_ended s hended]
  | some g =>
    rcases Step.of_iteration? hi with ⟨index, name, count, rfl⟩ | rfl | rfl
    · cases hp : s.place name with
      | error f' => exact session_iterate_missing t x hp
      | ok p =>
        rw [step_iterate t x hp] at h
        cases h
    · cases hit : s.iterationOf g with
      | error f' =>
        rw [step_of_done (on_next_missing hit) t x, giveUp_of_missing rfl hit]
      | ok it =>
        -- the fault is that of the exchange, so nothing has been assigned behind it
        rw [step_next t x hit] at h ⊢
        simp only at h
        simp only [h]
        exact (giveUp_of_iterationOf rfl hit).symm
    · cases hit : s.iterationOf g with
      | error f' =>
        rw [step_of_done (on_close_missing hit) t x, giveUp_of_missing rfl hit]
      | ok it => rw [step_close t x hit, giveUp_of_iterationOf rfl hit]

/-! ## failures of the other side -/

/-- A step that comes to a strict exchange passes on what the other side raises. -/
theorem outcome_of_strict {s : Session} {t : Transport σ} {x : σ} {st : Step} {α : Type}
    {e : Exchange α} {left : Except Fault α → Except Fault Answer × Session} {c : List Token}
    {text : String} (h : (perform st).on s = left <$> ExceptT.run e) (he : e.Strict)
    (hleft : ∀ f, (left (.error f)).1 = .error f) (hc : s.command? st = some c)
    (ht : (t c x).1 = .error text) : (s.step t x st).outcome = .error (.connection text) := by
  rw [command?_of_map h] at hc
  rw [step_of_map h t x]
  simp only [he t x c text hc ht, hleft]

/-- A failure of the other side is what comes of the step. -/
theorem outcome_of_failure {s : Session} {t : Transport σ} {x : σ} {st : Step} {c : List Token}
    {text : String} (h : ¬ st.Iterates) (hc : s.command? st = some c)
    (ht : (t c x).1 = .error text) : (s.step t x st).outcome = .error (.connection text) := by
  cases hi : st.iteration? with
  | none =>
    have hr := requests_perform (s := s) hi
    generalize hp : (perform st).on s = d at hr
    cases hr with
    | silent hst o =>
      rw [command?_of_done hp] at hc
      cases hc
    | asking answer he hs => exact outcome_of_strict hp he.strict (fun _ => rfl) hc ht
  | some g =>
    rcases Step.of_iteration? hi with ⟨index, name, count, rfl⟩ | rfl | rfl
    · exact absurd trivial h
    · cases hit : s.iterationOf g with
      | error f =>
        rw [command?_of_done (on_next_missing hit)] at hc
        cases hc
      | ok it => exact outcome_of_strict (on_next hit) (it.simple_next _ _).strict (fun _ => rfl) hc ht
    · cases hit : s.iterationOf g with
      | error f =>
        rw [command?_of_done (on_close_missing hit)] at hc
        cases hc
      | ok it => exact outcome_of_strict (on_close hit) it.simple_close.strict (fun _ => rfl) hc ht

/-! ## steps that fail -/

/-- The second session is the first one, but for an iteration that the step was about, which has
    ended. -/
structure GivesUp (s : Session) (st : Step) (s' : Session) : Prop where
  /-- the default dialect, all requests and their names -/
  requests : s'.requests = s.requests
  others : ∀ g, st.ended? ≠ some g → s'.iterationOf g = s.iterationOf g
  finished : ∀ g, st.ended? = some g → s'.iterationOf g = (s.iterationOf g).map Iteration.finish
  same : st.ended? = none → s' = s

theorem givesUp_giveUp (s : Session) (st : Step) : GivesUp s st (s.giveUp st) := by
  cases he : st.ended? with
  | none =>
    rw [giveUp_of_not_ended s he]
    refine ⟨rfl, fun _ _ => rfl, fun g hg => ?_, fun _ => rfl⟩
    rw [he] at hg
    cases hg
  | some i =>
    have hnone : st.ended? ≠ none := he ▸ Option.some_ne_none i
    have hself : ∀ g, st.ended? = some g → g = i := fun g hg => Option.some.inj (hg.symm.trans he)
    cases hi : s.iterationOf i with
    | error f =>
      rw [giveUp_of_missing he hi]
      refine ⟨rfl, fun _ _ => rfl, fun g hg => ?_, fun hn => absurd hn hnone⟩
      rw [hself g hg, hi]
      rfl
    | ok it =>
      rw [giveUp_of_iterationOf he hi]
      refine ⟨rfl, fun g hg => ?_, fun g hg => ?_, fun hn => absurd hn hnone⟩
      · have hgi : g ≠ i := fun hgi => hg (hgi.symm ▸ he)
        exact (iterationOf_setIteration s i _ g).trans (if_neg hgi)
      · rw [hself g hg, hi]
        exact iterationOf_setIteration_self s i _

/-- What a step sends, and what it leaves if it fails. -/
structure FailsCleanly (t : Transport σ) (s : Session) (x : σ) (st : Step) : Prop where
  /-- a step that asks for something sends the one command for it -/
  asked : ∀ c, s.request? st = some (.ok c) → (s.step t x st).sent = [c]
  /-- if there is no such command, nothing is sent, and the step says why -/
  refused : ∀ f, s.request? st = some (.error f) →
    (s.step t x st).sent = [] ∧ (s.step t x st).outcome = .error f
  once : (s.step t x st).sent.length ≤ 1
  /-- what the other side raises is what comes of the step -/
  raised : ¬ st.Iterates → ∀ c ∈ (s.step t x st).sent, ∀ text, (t c x).1 = .error text →
    (s.step t x st).outcome = .error (.connection text)
  failed : ∀ f, (s.step t x st).outcome = .error f → GivesUp s st (s.step t x st).session

theorem failsCleanly (t : Transport σ) (s : Session) (x : σ) (st : Step) :
    FailsCleanly t s x st where
  asked := by
    intro c h
    rw [sent_step, command?_of_request h]
    rfl
  refused := by
    intro f h
    rw [step_of_done (on_refused h) t x]
    exact ⟨rfl, rfl⟩
  once := by
    rw [sent_step]
    cases s.command? st with
    | none => exact Nat.zero_le 1
    | some c => exact Nat.le_refl 1
  raised := by
    intro hi c hc text ht
    rw [sent_step, Option.mem_toList] at hc
    exact outcome_of_failure hi hc ht
  failed := by
    intro f h
    rw [session_of_failure h]
    exact givesUp_giveUp s st

end Session

end FullText

import FullText.Proofs.Building.History
import FullText.Proofs.Session.Drafts

/-!
# Requests after a run

* `Session.callOn?`            the call that a step makes on the aggregation at a place;
* `Session.after`              the session after several steps;
* `Session.requests_after`     the requests that it has then are those that it has without the steps
                               that are about iterations, whatever is answered to either;
* `Session.aggregationAt_after`   an aggregation is what the calls on it have made of it.
-/

namespace FullText

variable {σ σ' : Type}

namespace Session

/-! ## one aggregation -/

/-- the call that a step makes on the aggregation at a place -/
def callOn? (s : Session) (p : Nat) : Step → Option Aggregation.Call
  | .callAggregation name call => if s.names.get? name = some p then some call else none
  | _ => none

theorem aggregationAt_eq_some_iff {s : Session} {p : Nat} {a : Aggregation} :
    s.aggregationAt p = some a ↔ s.drafts[p]? = some (.aggregation a) := by
  unfold aggregationAt
  cases s.drafts[p]? with
  | none => exact ⟨nofun, nofun⟩
  | some d =>
    cases d with
    | query q => exact ⟨nofun, nofun⟩
    | aggregation b =>
      show some b = some a ↔ some (Draft.aggregation b) = some (Draft.aggregation a)
      rw [Option.some_inj, Option.some_inj, Draft.aggregation.injEq]

/-- Of all calls, those on aggregations matter. -/
theorem afterCall_callAt? (s : Session) (p : Nat) (a : Aggregation) (st : Step) :
    (s.callAt? p st).elim (.aggregation a) (Draft.afterCall (.aggregation a))
      = .aggregation ((s.callOn? p st).elim a (Building.after Aggregation.call a)) := by
  cases st with
  | callQuery name c =>
    rw [callAt?]
    split <;> rfl
  | callAggregation name c =>
    rw [callAt?, callOn?]
    split <;> rfl
  | _ => rfl

/-- A step makes of a request what a call on it makes, if it is one, and else nothing. -/
theorem aggregationAt_step {s : Session} {p : Nat} {a : Aggregation} (t : Transport σ) (x : σ)
    (st : Step) (h : s.aggregationAt p = some a) :
    (s.step t x st).session.aggregationAt p
      = some ((s.callOn? p st).elim a (Building.after Aggregation.call a)) := by
  rw [aggregationAt_eq_some_iff] at h ⊢
  rw [draftAt_step t x st h, afterCall_callAt?]

/-! ## runs -/

/-- the session and the other side after several steps -/
def after (t : Transport σ) (s : Session) (x : σ) : List Step → Session × σ
  | [] => (s, x)
  | st :: sts =>
    let e := s.step t x st
    e.session.after t e.state sts

theorem after_eq (t : Transport σ) (s : Session) (x : σ) (sts : List Step) :
    s.after t x sts = ((s.steps t x sts).getLast?.map fun e => (e.session, e.state)).getD (s, x) := by
  induction sts generalizing s x with
  | nil => rfl
  | cons st sts ih =>
    rw [after, steps, ih, List.getLast?_cons]
    cases (steps t (s.step t x st).session (s.step t x st).state sts).getLast? <;> rfl

/-- The requests after a run are those after the same run without the steps on iterations. -/
theorem requests_after {s s' : Session} (t : Transport σ) (t' : Transport σ') (x : σ) (x' : σ')
    (sts : List Step) (h : s.requests = s'.requests) :
    (s.after t x sts).1.requests
      = (s'.after t' x' (sts.filter fun st => st.iteration?.isNone)).1.requests := by
  -- both sessions keep the same requests, whatever becomes of their iterations
  induction sts generalizing s s' x x' with
  | nil => exact h
  | cons st sts ih =>
    cases hi : st.iteration? with
    | none =>
      rw [List.filter_cons_of_pos (by rw [hi]; rfl), after, after]
      refine ih _ _ ?_
      rw [session_of_request t x hi, session_of_request t' x' hi, requests_requested,
        requests_requested, h]
    | some i =>
      rw [List.filter_cons_of_neg (by rw [hi]; exact Bool.false_ne_true), after]
      exact ih _ _ ((requests_of_iteration t x hi).trans h)

/-- the calls that the steps of a run make on the request at a place -/
def callsOn (t : Transport σ) (s : Session) (x : σ) (p : Nat) : List Step → List Aggregation.Call
  | [] => []
  | st :: sts =>
    let e := s.step t x st
    (s.callOn? p st).toList ++ e.session.callsOn t e.state p sts

/-- The request at a place after a run is what the calls on it have made of it. -/
theorem aggregationAt_after {s : Session} {p : Nat} {a : Aggregation} (t : Transport σ) (x : σ)
    (sts : List Step) (h : s.aggregationAt p = some a) :
    (s.after t x sts).1.aggregationAt p = some (a.calls (s.callsOn t x p sts)) := by
  induction sts generalizing s x a with
  | nil => exact h
  | cons st sts ih =>
    rw [after, callsOn, ih _ (aggregationAt_step t x st h), Aggregation.calls, Aggregation.calls,
      Building.run_append]
    cases s.callOn? p st <;> rfl

theorem default_after (t : Transport σ) (s : Session) (x : σ) (sts : List Step) :
    (s.after t x sts).1.default = sts.foldl Step.defaultAfter s.default := by
  induction sts generalizing s x with
  | nil => rfl
  | cons st sts ih => rw [after, ih, default_step, List.foldl_cons]

end Session

end FullText

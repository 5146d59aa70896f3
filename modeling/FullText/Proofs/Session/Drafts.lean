import FullText.Proofs.Session.Steps

/-!
# What becomes of the request at a place

* `Draft.Call`                a call on a request of either kind, `Draft.afterCall` what comes of it;
* `Session.called`            the session after a call on the request of a name;
* `Session.callAt?`           the call that a step makes on the request at a place;
* `Step.built?`               the request that a step makes, if it makes one;
* `Session.draftAt_step`      a request is changed by the calls on it, and by nothing else;
* `Session.built_of_step`     a request that was not there before is the one that the step has made.
-/

namespace FullText

variable {σ : Type}

/-- a call on a request of either kind -/
inductive Draft.Call where
  | query (c : Query.Call)
  | aggregation (c : Aggregation.Call)
  deriving DecidableEq, Repr

/-- the request that a call leaves, also if it fails; there is none on the other kind -/
def Draft.afterCall : Draft → Draft.Call → Draft
  | .query q, .query c => .query (Building.after Query.call q c)
  | .aggregation a, .aggregation c => .aggregation (Building.after Aggregation.call a c)
  | d, _ => d

namespace Session

/-! ## the steps that change requests -/

/-- the session after a call on the request of a name -/
def called (s : Session) (name : String) (c : Draft.Call) : Session :=
  match s.names.get? name with
  | some p =>
    match s.drafts[p]? with
    | some d => s.replace p (d.afterCall c)
    | none => s
  | none => s

/-- the call that a step makes on the request at a place -/
def callAt? (s : Session) (p : Nat) : Step → Option Draft.Call
  | .callQuery name c => if s.names.get? name = some p then some (.query c) else none
  | .callAggregation name c => if s.names.get? name = some p then some (.aggregation c) else none
  | _ => none

/-- the request that a step makes, if it makes one -/
def Step.built? : Step → Option Draft
  | .query _ text cs => (Query.build text cs).toOption.map .query
  | .aggregation _ text cs => (Aggregation.build text cs).toOption.map .aggregation
  | _ => none

theorem replace_self {s : Session} {p : Nat} {d : Draft} (h : s.drafts[p]? = some d) :
    s.replace p d = s := by
  obtain ⟨hp, rfl⟩ := List.getElem?_eq_some_iff.mp h
  rw [replace, List.set_getElem_self hp]

theorem requested_callQuery (s : Session) (name : String) (c : Query.Call) :
    s.requested (.callQuery name c) = s.called name (.query c) := by
  rw [requested]
  unfold called queryOf place queryAt
  cases s.names.get? name with
  | none => rfl
  | some p =>
    simp only [bind, Except.bind]
    cases hd : s.drafts[p]? with
    | none => rfl
    | some d =>
      cases d with
      | aggregation a => exact (replace_self hd).symm
      | query q => rfl

theorem requested_callAggregation (s : Session) (name : String) (c : Aggregation.Call) :
    s.requested (.callAggregation name c) = s.called name (.aggregation c) := by
  rw [requested]
  unfold called aggregationOf place aggregationAt
  cases s.names.get? name with
  | none => rfl
  | some p =>
    simp only [bind, Except.bind]
    cases hd : s.drafts[p]? with
    | none => rfl
    | some d =>
      cases d with
      | query q => exact (replace_self hd).symm
      | aggregation a => rfl

/-- A step makes a new request, or calls one that is there, or leaves them all as they are. -/
theorem drafts_requested (s : Session) (st : Step) :
    (s.requested st).drafts = s.drafts ++ st.built?.toList
      ∧ (∀ p, s.callAt? p st = none)
    ∨ ∃ name c, s.requested st = s.called name c ∧ st.built? = none
      ∧ ∀ p, s.callAt? p st = if s.names.get? name = some p then some c else none := by
  cases st with
  | query name text cs =>
    left
    rw [requested, Step.built?]
    cases Query.build text cs with
    | ok q => exact ⟨rfl, fun _ => rfl⟩
    | error f => exact ⟨(List.append_nil _).symm, fun _ => rfl⟩
  | aggregation name text cs =>
    left
    rw [requested, Step.built?]
    cases Aggregation.build text cs with
    | ok q => exact ⟨rfl, fun _ => rfl⟩
    | error f => exact ⟨(List.append_nil _).symm, fun _ => rfl⟩
  | callQuery name c => exact .inr ⟨name, .query c, requested_callQuery s name c, rfl, fun _ => rfl⟩
  | callAggregation name c =>
    exact .inr ⟨name, .aggregation c, requested_callAggregation s name c, rfl, fun _ => rfl⟩
  | setDefault dialect =>
    left
    cases dialect with
    | none => exact ⟨(List.append_nil _).symm, fun _ => rfl⟩
    | some d =>
      rw [requested]
      split <;> exact ⟨(List.append_nil _).symm, fun _ => rfl⟩
  | compile | search | aggregate | cursorRead | cursorDelete | info | explain | explainLines
  | iterate | next | close => exact .inl ⟨(List.append_nil _).symm, fun _ => rfl⟩

theorem draftAt_called {s : Session} {p : Nat} {d : Draft} (name : String) (c : Draft.Call)
    (h : s.drafts[p]? = some d) :
    (s.called name c).drafts[p]?
      = some (if s.names.get? name = some p then d.afterCall c else d) := by
  unfold called
  cases hn : s.names.get? name with
  | none => exact h
  | some r =>
    by_cases hr : r = p
    · subst hr
      obtain ⟨hp, -⟩ := List.getElem?_eq_some_iff.mp h
      simp only [h, if_true]
      exact List.getElem?_set_self hp
    · rw [if_neg fun he => hr (Option.some.inj he), ← h]
      cases hd : s.drafts[r]? with
      | none => simp only [hd]
      | some e =>
        simp only [hd]
        exact List.getElem?_set_ne hr

theorem length_called (s : Session) (name : String) (c : Draft.Call) :
    (s.called name c).drafts.length = s.drafts.length := by
  unfold called
  cases s.names.get? name with
  | none => rfl
  | some p =>
    cases hd : s.drafts[p]? with
    | none => simp only [hd]
    | some d =>
      simp only [hd]
      exact List.length_set

/-! ## one step -/

theorem draftAt_requested {s : Session} {p : Nat} {d : Draft} (st : Step)
    (h : s.drafts[p]? = some d) :
    (s.requested st).drafts[p]? = some ((s.callAt? p st).elim d d.afterCall) := by
  rcases s.drafts_requested st with ⟨hd, hc⟩ | ⟨name, c, hs, -, hc⟩
  · obtain ⟨hp, -⟩ := List.getElem?_eq_some_iff.mp h
    rw [hd, hc, List.getElem?_append_left hp, h]
    rfl
  · rw [hs, hc, draftAt_called name c h]
    split <;> rfl

theorem callAt?_of_iteration {s : Session} {p : Nat} {st : Step} {i : String}
    (h : st.iteration? = some i) : s.callAt? p st = none := by
  rcases Step.of_iteration? h with ⟨index, name, count, rfl⟩ | rfl | rfl <;> rfl

theorem drafts_of_iteration {s : Session} {st : Step} {i : String} (t : Transport σ) (x : σ)
    (h : st.iteration? = some i) : (s.step t x st).session.drafts = s.drafts := by
  have hr : (s.step t x st).session.requests = s.requests := requests_of_iteration t x h
  exact congrArg (fun s => s.drafts) hr

/-- A step makes of a request what a call on it makes, if it is one, and else nothing. -/
theorem draftAt_step {s : Session} {p : Nat} {d : Draft} (t : Transport σ) (x : σ) (st : Step)
    (h : s.drafts[p]? = some d) :
    (s.step t x st).session.drafts[p]? = some ((s.callAt? p st).elim d d.afterCall) := by
  cases hi : st.iteration? with
  | none => rw [session_of_request t x hi, draftAt_requested st h]
  | some i =>
    rw [drafts_of_iteration t x hi, callAt?_of_iteration hi, h]
    rfl

/-- A request that was not there before has just been made. -/
theorem built_of_step {s : Session} {p : Nat} {d : Draft} (t : Transport σ) (x : σ) (st : Step)
    (h : s.drafts[p]? = none) (hd : (s.step t x st).session.drafts[p]? = some d) :
    st.built? = some d := by
  have hp := List.getElem?_eq_none_iff.mp h
  cases hi : st.iteration? with
  | some i =>
    rw [drafts_of_iteration t x hi, h] at hd
    cases hd
  | none =>
    rw [session_of_request t x hi] at hd
    rcases s.drafts_requested st with ⟨hb, -⟩ | ⟨name, c, hs, -, -⟩
    · rw [hb, List.getElem?_append_right hp] at hd
      exact Option.mem_toList.mp (List.mem_of_getElem? hd)
    · have hl : (s.called name c).drafts.length ≤ p := length_called s name c ▸ hp
      rw [hs, List.getElem?_eq_none hl] at hd
      cases hd

end Session

end FullText

import FullText.Proofs.Cursor.Moves
import FullText.Proofs.Outcome

/-!
# What a step makes of a session

* `Session.session_of_request`     what a step that is about no iteration makes of it, whatever is
                                   answered;
* `Session.step_iterate`           a new iteration has its name, whatever became of the old one;
* `Session.session_of_iteration`   the others change nothing but the iteration that they are about;
* `Session.default_step`           the default dialect is changed by the steps that set it;
* `Session.requests`               the session without its iterations, which only such steps see.

A step that asks an engine leaves the session as it is, so an answer never decides what the requests
are.
-/

namespace FullText

variable {σ σ' : Type}

namespace Session

theorem Step.of_iteration? {st : Step} {i : String} (h : st.iteration? = some i) :
    (∃ index name count, st = .iterate i index name count) ∨ st = .next i ∨ st = .close i := by
  cases st with
  | iterate j index name count =>
    cases h
    exact .inl ⟨index, name, count, rfl⟩
  | next j =>
    cases h
    exact .inr (.inl rfl)
  | close j =>
    cases h
    exact .inr (.inr rfl)
  | query | aggregation | callQuery | callAggregation | compile | setDefault | search | aggregate
  | cursorRead | cursorDelete | info | explain | explainLines => cases h

/-! ## one step -/

theorem session_of_request {s : Session} {st : Step} (t : Transport σ) (x : σ)
    (h : st.iteration? = none) : (s.step t x st).session = s.requested st :=
  (requests_perform h).session_run t x

theorem step_iterate {s : Session} {i index name : String} {count : Option Int} {p : Nat}
    (t : Transport σ) (x : σ) (h : s.place name = .ok p) :
    s.step t x (.iterate i index name count)
      = let run := Exchange.run t x
          ((s.iterations.get? i).elim (return ()) fun old => old.close.regardless)
        ⟨.ok .nothing, run.sent, s.setIteration i ⟨index, count, .waiting p⟩, run.state⟩ := by
  rw [step_of_map ((on_iterate_of_place h).trans (on_iterate s i _)) t x]
  simp only [outcome_drop]
  rfl

theorem session_iterate {s : Session} {i index name : String} {count : Option Int} {p : Nat}
    (t : Transport σ) (x : σ) (h : s.place name = .ok p) :
    (s.step t x (.iterate i index name count)).session
      = s.setIteration i ⟨index, count, .waiting p⟩ := by
  rw [step_iterate t x h]

theorem session_iterate_missing {s : Session} {i index name : String} {count : Option Int}
    {f : Fault} (t : Transport σ) (x : σ) (h : s.place name = .error f) :
    (s.step t x (.iterate i index name count)).session = s := by
  rw [step_of_done (on_iterate_missing h) t x]

theorem session_of_iteration {s : Session} {st : Step} {i : String} (t : Transport σ) (x : σ)
    (h : st.iteration? = some i) :
    (s.step t x st).session = s ∨ ∃ it, (s.step t x st).session = s.setIteration i it := by
  rcases Step.of_iteration? h with ⟨index, name, count, rfl⟩ | rfl | rfl
  · cases hp : s.place name with
    | ok p => exact .inr ⟨_, session_iterate t x hp⟩
    | error f => exact .inl (session_iterate_missing t x hp)
  · exact s.session_move t x i .next
  · exact s.session_move t x i .close

/-! ## iterations -/

theorem iterations_requested (s : Session) (st : Step) :
    (s.requested st).iterations = s.iterations := by
  cases st with
  | query | aggregation | callQuery | callAggregation =>
    rw [requested]
    split <;> rfl
  | setDefault dialect =>
    cases dialect with
    | none => rfl
    | some d =>
      rw [requested]
      split <;> rfl
  | compile | search | aggregate | cursorRead | cursorDelete | info | explain | explainLines
  | iterate | next | close => rfl

/-- A step leaves the iterations as they are that it is not about. -/
theorem iterationOf_step_other {s : Session} {st : Step} {g : String} (t : Transport σ) (x : σ)
    (h : st.iteration? ≠ some g) : (s.step t x st).session.iterationOf g = s.iterationOf g := by
  cases hi : st.iteration? with
  | none =>
    rw [session_of_request t x hi, iterationOf, iterations_requested]
    rfl
  | some i =>
    have hne : g ≠ i := fun he => h (he ▸ hi)
    rcases session_of_iteration t x hi with hs | ⟨it, hs⟩
    · rw [hs]
    · rw [hs, iterationOf_setIteration, if_neg hne]

/-! ## names and the default dialect -/

theorem place_eq_ok_iff {s : Session} {name : String} {p : Nat} :
    s.place name = .ok p ↔ s.names.get? name = some p := by
  unfold place
  cases s.names.get? name with
  | none => exact ⟨fun h => (by cases h), fun h => (by cases h)⟩
  | some q =>
    exact ⟨fun h => congrArg some (Except.ok.inj h), fun h => congrArg Except.ok (Option.some.inj h)⟩

/-- the default dialect after a step -/
def Step.defaultAfter (d : Option Int) : Step → Option Int
  | .setDefault none => none
  | .setDefault (some e) => if e = 0 then d else some e
  | _ => d

theorem default_requested (s : Session) (st : Step) :
    (s.requested st).default = st.defaultAfter s.default := by
  cases st with
  | query | aggregation | callQuery | callAggregation =>
    rw [requested]
    split <;> rfl
  | setDefault dialect =>
    cases dialect with
    | none => rfl
    | some d =>
      rw [requested, Step.defaultAfter]
      split <;> rfl
  | compile | search | aggregate | cursorRead | cursorDelete | info | explain | explainLines
  | iterate | next | close => rfl

theorem defaultAfter_of_iteration {st : Step} {i : String} (d : Option Int)
    (h : st.iteration? = some i) : st.defaultAfter d = d := by
  rcases Step.of_iteration? h with ⟨index, name, count, rfl⟩ | rfl | rfl <;> rfl

theorem default_step (s : Session) (t : Transport σ) (x : σ) (st : Step) :
    (s.step t x st).session.default = st.defaultAfter s.default := by
  cases hi : st.iteration? with
  | none => rw [session_of_request t x hi, default_requested]
  | some i =>
    rw [defaultAfter_of_iteration _ hi]
    rcases session_of_iteration t x hi with hs | ⟨it, hs⟩
    · rw [hs]
    · rw [hs]
      rfl

/-! ## all requests -/

/-- the session without its iterations -/
def requests (s : Session) : Session := { s with iterations := {} }

theorem requests_requested (s : Session) (st : Step) :
    (s.requested st).requests = s.requests.requested st := by
  cases st with
  | query name text calls =>
    rw [requested, requested]
    cases Query.build text calls <;> rfl
  | aggregation name text calls =>
    rw [requested, requested]
    cases Aggregation.build text calls <;> rfl
  | callQuery name call =>
    have hq : s.requests.queryOf name = s.queryOf name := rfl
    have hp : s.requests.place name = s.place name := rfl
    rw [requested, requested, hq, hp]
    cases s.place name <;> cases s.queryOf name <;> rfl
  | callAggregation name call =>
    have ha : s.requests.aggregationOf name = s.aggregationOf name := rfl
    have hp : s.requests.place name = s.place name := rfl
    rw [requested, requested, ha, hp]
    cases s.place name <;> cases s.aggregationOf name <;> rfl
  | setDefault dialect =>
    cases dialect with
    | none => rfl
    | some d =>
      rw [requested, requested]
      split <;> rfl
  | compile | search | aggregate | cursorRead | cursorDelete | info | explain | explainLines
  | iterate | next | close => rfl

theorem requests_of_iteration {s : Session} {st : Step} {i : String} (t : Transport σ) (x : σ)
    (h : st.iteration? = some i) : (s.step t x st).session.requests = s.requests := by
  rcases session_of_iteration t x h with hs | ⟨it, hs⟩
  · rw [hs]
  · rw [hs]
    rfl

end Session

end FullText

import FullText.Proofs.Session.Performed

/-!
# Moves: what `next` and `close` make of a session

* `Move`                    the two things that can be done with an iteration;
* `Session.step_next`       a `next` is the exchange of the iteration, which then stands where the
                            outcome has left it;
* `Session.step_close`      a `close` is the exchange of the iteration, which has then ended;
* `Session.step_missing`    nothing comes of either if there is no iteration of that name;
* `Session.session_move`    nothing but the iteration itself is changed by them.
-/

namespace FullText

variable {σ : Type}

/-- what can be done with an iteration -/
inductive Move where
  | next
  | close
  deriving DecidableEq, Repr

/-- the step of a session that makes the move -/
def Move.step (name : String) : Move → Session.Step
  | .next => .next name
  | .close => .close name

namespace Session

/-! ## iterations of a session -/

theorem get?_of_iterationOf {s : Session} {name : String} {it : Iteration}
    (h : s.iterationOf name = .ok it) : s.iterations.get? name = some it := by
  unfold iterationOf at h
  cases hg : s.iterations.get? name with
  | none =>
    rw [hg] at h
    cases h
  | some it' =>
    rw [hg] at h
    cases h
    rfl

theorem iterationOf_setIteration (s : Session) (name : String) (it : Iteration) (other : String) :
    (s.setIteration name it).iterationOf other
      = if other = name then .ok it else s.iterationOf other := by
  unfold iterationOf setIteration
  rw [Bindings.get?_put]
  by_cases h : other = name
  · rw [if_pos h, if_pos h]
  · rw [if_neg h, if_neg h]

theorem iterationOf_setIteration_self (s : Session) (name : String) (it : Iteration) :
    (s.setIteration name it).iterationOf name = .ok it := by
  rw [iterationOf_setIteration, if_pos rfl]

theorem aggregationAt_setIteration (s : Session) (name : String) (it : Iteration) (p : Nat) :
    (s.setIteration name it).aggregationAt p = s.aggregationAt p := rfl

theorem requestAt_of_aggregationAt {s : Session} {p : Nat} {a : Aggregation} (name : String)
    (h : s.aggregationAt p = some a) : s.requestAt name p = .ok a := by
  rw [requestAt, h]

/-! ## moves -/

theorem step_next {s : Session} {name : String} {it : Iteration} (t : Transport σ) (x : σ)
    (h : s.iterationOf name = .ok it) :
    s.step t x (.next name)
      = let run := (it.next (s.requestAt name) s.default).run t x
        let outcome := run.outcome.map .nextBatch
        ⟨outcome, run.sent, s.setIteration name { it with progress := .after outcome },
          run.state⟩ :=
  step_of_map (on_next h) t x

theorem step_close {s : Session} {name : String} {it : Iteration} (t : Transport σ) (x : σ)
    (h : s.iterationOf name = .ok it) :
    s.step t x (.close name)
      = let run := it.close.run t x
        ⟨run.outcome.map fun _ => .nothing, run.sent, s.setIteration name it.finish,
          run.state⟩ :=
  step_of_map (on_close h) t x

theorem step_missing {s : Session} {name : String} {f : Fault} (t : Transport σ) (x : σ) (m : Move)
    (h : s.iterationOf name = .error f) : s.step t x (m.step name) = ⟨.error f, [], s, x⟩ := by
  cases m with
  | next => exact step_of_done (on_next_missing h) t x
  | close => exact step_of_done (on_close_missing h) t x

theorem session_move (s : Session) (t : Transport σ) (x : σ) (name : String) (m : Move) :
    (s.step t x (m.step name)).session = s
      ∨ ∃ it, (s.step t x (m.step name)).session = s.setIteration name it := by
  cases h : s.iterationOf name with
  | error f =>
    left
    rw [step_missing t x m h]
  | ok it =>
    right
    cases m with
    | next => exact ⟨_, congrArg Entry.session (step_next t x h)⟩
    | close => exact ⟨_, congrArg Entry.session (step_close t x h)⟩

/-- A move on one iteration leaves every other one as it is. -/
theorem iterationOf_move (s : Session) (t : Transport σ) (x : σ) {name other : String} (m : Move)
    (h : other ≠ name) :
    (s.step t x (m.step name)).session.iterationOf other = s.iterationOf other := by
  rcases s.session_move t x name m with hs | ⟨it, hs⟩
  · rw [hs]
  · rw [hs, iterationOf_setIteration, if_neg h]

theorem aggregationAt_move (s : Session) (t : Transport σ) (x : σ) (name : String) (m : Move)
    (p : Nat) : (s.step t x (m.step name)).session.aggregationAt p = s.aggregationAt p := by
  rcases s.session_move t x name m with hs | ⟨it, hs⟩
  · rw [hs]
  · rw [hs, aggregationAt_setIteration]

theorem default_move (s : Session) (t : Transport σ) (x : σ) (name : String) (m : Move) :
    (s.step t x (m.step name)).session.default = s.default := by
  rcases s.session_move t x name m with hs | ⟨it, hs⟩
  · rw [hs]
  · rw [hs]
    rfl

end Session

end FullText

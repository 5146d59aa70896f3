import FullText.Proofs.Cursor.Moves

/-!
# Traces: what is seen of the moves of a run

* `Observation`          a move, what was sent and heard in it, and what came of it;
* `Session.play`         a run of moves on any iterations, and all observations of it;
* `Session.step_move`    a move sends what the iteration asks for, gives what is heard, and leaves
                         the iteration at the batch that it has given;
* `Observation.cursor?`  the cursor at which an iteration stands, if more can be read with it.

The iterations of a run may be moved in any order.  Where one of them stands is decided by the last
thing that was seen of it alone.
-/

namespace FullText

variable {σ : Type}

/-- a move of a run: the other side before it, what was sent and heard, and what came of it -/
structure Observation (σ : Type) where
  iteration : String
  move : Move
  before : σ
  sent : List (List Token)
  heard : Option (Except String Value)
  outcome : Except Fault Session.Answer

/-- what comes of a move, when this is heard in it, or nothing -/
def Move.outcome : Move → Option (Except String Value) → Except Fault Session.Answer
  | .next, none => .ok (.nextBatch none)
  | .next, some reply =>
    ((reply.mapError .connection).bind Batch.decodeCursor).map fun b => .nextBatch (some b)
  | .close, none => .ok .nothing
  | .close, some reply => ((reply.mapError .connection).bind Reply.isOk).map fun _ => .nothing

theorem Iteration.finish_eq (it : Iteration) {α : Type} (outcome : Except Fault α) :
    it.finish = { it with progress := .after (outcome.map fun _ => Session.Answer.nothing) } := by
  cases outcome <;> rfl

/-- the command for a cursor that can still be read: the next batch of it, or its release -/
def Move.command (index : String) (count : Option Int) (cursor : Int) : Move → List Token
  | .next => Command.cursorRead index cursor count
  | .close => Command.cursorDelete index cursor

namespace Observation

def batch? (o : Observation σ) : Option Batch := Session.batchOf o.outcome

/-- the cursor of the batch that was given, if there is one and it can still be read -/
def cursor? (o : Observation σ) : Option Int :=
  o.batch?.bind fun b => if b.cursor.getD 0 = 0 then none else some (b.cursor.getD 0)

theorem cursor?_ne_zero {o : Observation σ} {c : Int} (h : o.cursor? = some c) : c ≠ 0 := by
  obtain ⟨b, _, hb⟩ := Option.bind_eq_some_iff.mp h
  by_cases hz : b.cursor.getD 0 = 0
  · rw [if_pos hz] at hb
    cases hb
  · rw [if_neg hz] at hb
    cases hb
    exact hz

theorem cursor?_of_batch?_none {o : Observation σ} (h : o.batch? = none) : o.cursor? = none := by
  rw [cursor?, h]
  rfl

theorem cursor_of_cursor? {o : Observation σ} {b : Batch} {c : Int} (hb : o.batch? = some b)
    (h : o.cursor? = some c) : b.cursor.getD 0 = c := by
  rw [cursor?, hb, Option.bind_some] at h
  by_cases hz : b.cursor.getD 0 = 0
  · rw [if_pos hz] at h
    cases h
  · rw [if_neg hz] at h
    exact Option.some.inj h

end Observation

namespace Session

/-! ## one move -/

/-- the command that an iteration asks for in a move, if it asks for one -/
def commandOf (s : Session) (name : String) (it : Iteration) : Move → Option (List Token)
  | .next => (it.next (s.requestAt name) s.default).command?
  | .close => it.close.command?

/-- an iteration that does not wait for a request that is not there -/
def Ready (s : Session) (it : Iteration) : Prop :=
  ∀ p, it.progress = .waiting p → ∃ a, s.aggregationAt p = some a

theorem commandOf_waiting {s : Session} {p : Nat} {a : Aggregation} (name index : String)
    (count : Option Int) (h : s.aggregationAt p = some a) (m : Move) :
    s.commandOf name ⟨index, count, .waiting p⟩ m
      = match m with
        | .next => some (Command.aggregate index (a.withCursor count) s.default)
        | .close => none := by
  cases m with
  | next =>
    rw [commandOf, Iteration.next_waiting s.default rfl (requestAt_of_aggregationAt name h),
      Exchange.command?_map]
    rfl
  | close => rfl

theorem commandOf_suspended (s : Session) (name index : String) (count : Option Int) {c : Int}
    (hc : c ≠ 0) (m : Move) :
    s.commandOf name ⟨index, count, .suspended c⟩ m = some (m.command index count c) := by
  cases m with
  | next =>
    rw [commandOf, Iteration.next_suspended _ s.default rfl hc, Exchange.command?_map]
    rfl
  | close =>
    rw [commandOf, Iteration.close_suspended rfl hc, Exchange.command?_map]
    rfl

theorem commandOf_exhausted (s : Session) (name index : String) (count : Option Int) (m : Move) :
    s.commandOf name ⟨index, count, .suspended 0⟩ m = none := by
  cases m <;> rfl

theorem commandOf_after (s : Session) (name index : String) (count : Option Int)
    (o : Observation σ) (m : Move) :
    s.commandOf name ⟨index, count, .after o.outcome⟩ m
      = o.cursor?.map fun c => m.command index count c := by
  unfold Progress.after Observation.cursor? Observation.batch?
  cases batchOf o.outcome with
  | none => cases m <;> rfl
  | some b =>
    show s.commandOf name ⟨index, count, .suspended (b.cursor.getD 0)⟩ m = _
    rw [Option.bind_some]
    by_cases hz : b.cursor.getD 0 = 0
    · rw [if_pos hz, hz, commandOf_exhausted]
      rfl
    · rw [if_neg hz, commandOf_suspended s name index count hz]
      rfl

/-- The exchange of a `next` gives the batch of its reply, or no batch if it sends nothing. -/
theorem outcome_next {s : Session} {name : String} {it : Iteration} (t : Transport σ) (x : σ)
    (h : s.Ready it) :
    ((it.next (s.requestAt name) s.default).run t x).outcome.map Answer.nextBatch
      = Move.outcome .next ((s.commandOf name it .next).map fun c => (t c x).1) := by
  obtain ⟨index, count, progress⟩ := it
  cases progress with
  | ended => rfl
  | suspended c =>
    by_cases hc : c = 0
    · subst hc
      rfl
    · rw [commandOf_suspended s name index count hc, Iteration.next_suspended _ _ rfl hc,
        Client.cursorRead, Exchange.outcome_map_asking]
      rfl
  | waiting p =>
    obtain ⟨a, ha⟩ := h p rfl
    have hd : Batch.decode (a.withCursor count).shape = Batch.decodeCursor := by
      rw [Aggregation.shape_withCursor]
      rfl
    rw [commandOf_waiting name index count ha,
      Iteration.next_waiting _ rfl (requestAt_of_aggregationAt name ha), Iteration.start,
      Client.aggregate, Exchange.outcome_map_asking, hd]
    rfl

theorem outcome_close (it : Iteration) (s : Session) (name : String) (t : Transport σ) (x : σ) :
    (it.close.run t x).outcome.map (fun _ => Answer.nothing)
      = Move.outcome .close ((s.commandOf name it .close).map fun c => (t c x).1) := by
  obtain ⟨index, count, progress⟩ := it
  cases progress with
  | ended => rfl
  | waiting p => rfl
  | suspended c =>
    by_cases hc : c = 0
    · subst hc
      rfl
    · rw [commandOf_suspended s name index count hc, Iteration.close_suspended rfl hc,
        Client.cursorDelete, Exchange.outcome_map_asking]
      rfl

/-- A move sends the command that the iteration asks for, if any; its outcome is what the reply
    makes of it; and then the iteration stands where the outcome has left it. -/
theorem step_move {s : Session} {name : String} {it : Iteration} (t : Transport σ) (x : σ)
    (m : Move) (h : s.iterationOf name = .ok it) (hr : s.Ready it) :
    s.step t x (m.step name)
      = let command := s.commandOf name it m
        let outcome := m.outcome (command.map fun c => (t c x).1)
        ⟨outcome, command.toList, s.setIteration name { it with progress := .after outcome },
          (command.map fun c => (t c x).2).getD x⟩ := by
  cases m with
  | next =>
    rw [Move.step, step_next t x h]
    simp only [outcome_next t x hr, (it.simple_next _ _).brief.sent_run,
      (it.simple_next _ _).brief.state_run]
    rfl
  | close =>
    rw [Move.step, step_close t x h]
    simp only [outcome_close it s name t x, it.simple_close.brief.sent_run,
      it.simple_close.brief.state_run]
    rw [Iteration.finish_eq it (it.close.run t x).outcome, outcome_close it s name t x]
    rfl

/-! ## a run of moves -/

/-- what is seen of one move -/
def observation (t : Transport σ) (s : Session) (x : σ) (name : String) (m : Move) :
    Observation σ :=
  let e := s.step t x (m.step name)
  ⟨name, m, x, e.sent, e.sent.head?.map fun c => (t c x).1, e.outcome⟩

theorem observation_eq {s : Session} {name : String} {it : Iteration} (t : Transport σ) (x : σ)
    (m : Move) (h : s.iterationOf name = .ok it) (hr : s.Ready it) :
    s.observation t x name m
      = let command := s.commandOf name it m
        let heard := command.map fun c => (t c x).1
        ⟨name, m, x, command.toList, heard, m.outcome heard⟩ := by
  unfold observation
  rw [step_move t x m h hr]
  cases s.commandOf name it m <;> rfl

theorem iterationOf_step {s : Session} {name : String} {it : Iteration} (t : Transport σ) (x : σ)
    (m : Move) (h : s.iterationOf name = .ok it) (hr : s.Ready it) :
    (s.step t x (m.step name)).session.iterationOf name
      = .ok { it with progress := .after (s.observation t x name m).outcome } := by
  rw [observation_eq t x m h hr, step_move t x m h hr]
  exact iterationOf_setIteration_self s name _

end Session

/-- all that is seen of a run, and the session and the other side after it -/
structure Play (σ : Type) where
  seen : List (Observation σ)
  session : Session
  state : σ

/-- what is seen of one iteration -/
def Play.of (r : Play σ) (name : String) : List (Observation σ) :=
  r.seen.filter fun o => o.iteration = name

namespace Session

/-- a run of moves on the iterations of a session, one after another -/
def play (t : Transport σ) (s : Session) (x : σ) : List (String × Move) → Play σ
  | [] => ⟨[], s, x⟩
  | (name, m) :: run =>
    let e := s.step t x (m.step name)
    let rest := e.session.play t e.state run
    ⟨s.observation t x name m :: rest.seen, rest.session, rest.state⟩

theorem of_play_self (t : Transport σ) (s : Session) (x : σ) (name : String) (m : Move)
    (run : List (String × Move)) :
    (s.play t x ((name, m) :: run)).of name
      = s.observation t x name m :: ((s.step t x (m.step name)).session.play t
          (s.step t x (m.step name)).state run).of name :=
  List.filter_cons_of_pos (decide_eq_true rfl)

theorem of_play_other (t : Transport σ) (s : Session) (x : σ) {name other : String} (m : Move)
    (run : List (String × Move)) (h : other ≠ name) :
    (s.play t x ((other, m) :: run)).of name
      = ((s.step t x (m.step other)).session.play t (s.step t x (m.step other)).state run).of name :=
  List.filter_cons_of_neg fun he => h (of_decide_eq_true he)

end Session

end FullText

import FullText.Proofs.Cursor.Trace
import FullText.Proofs.Session.Requests

/-!
# The command of a step

* `Session.command?`      the command of a step, if it has one; it is sent once, and nothing else;
* `Session.request?`      the command that a step asks for itself, or why it cannot;
* `Session.Sends`         all ways in which a step comes to send a command;
* `Session.sends_of_mem`  there are no others.

The steps on iterations send what the iteration needs: the start of its request, or a read or a
release of its cursor.  A name that is given to a new iteration releases the cursor of the old one.
-/

namespace FullText

variable {σ : Type}

namespace Session

/-- the command of a step, if it has one -/
def command? (s : Session) (st : Step) : Option (List Token) := ((perform st).on s).command?

theorem sent_step (s : Session) (t : Transport σ) (x : σ) (st : Step) :
    (s.step t x st).sent = (s.command? st).toList := (s.brief_perform st).sent_run t x

theorem state_step (s : Session) (t : Transport σ) (x : σ) (st : Step) :
    (s.step t x st).state = ((s.command? st).map fun c => (t c x).2).getD x :=
  (s.brief_perform st).state_run t x

/-- The command of a step is that of the exchange that it comes to. -/
theorem command?_of_map {s : Session} {st : Step} {α : Type} {e : Exchange α}
    {leave : Except Fault α → Except Fault Answer × Session}
    (h : (perform st).on s = leave <$> ExceptT.run e) : s.command? st = e.command? := by
  rw [command?, h, Dialogue.command?_map]
  rfl

theorem command?_of_done {s s' : Session} {st : Step} {o : Except Fault Answer}
    (h : (perform st).on s = .done (o, s')) : s.command? st = none := by
  rw [command?, h]
  rfl

theorem command?_of_silent {s : Session} {st : Step} (h : st.Silent) : s.command? st = none := by
  obtain ⟨o, ho⟩ := on_silent (s := s) h
  exact command?_of_done ho

/-! ## steps that ask for something themselves -/

/-- The command that a step asks for itself, or the fault that keeps it from that; none for the
    steps that ask for nothing, and for those on iterations. -/
def request? (s : Session) : Step → Option (Except Fault (List Token))
  | .search index name => some do Command.search index (← s.queryOf name) s.default
  | .aggregate index name =>
    some do return Command.aggregate index (← s.aggregationOf name) s.default
  | .cursorRead index cursor count => some (.ok (Command.cursorRead index cursor count))
  | .cursorDelete index cursor => some (.ok (Command.cursorDelete index cursor))
  | .info index => some (.ok (Command.info index))
  | .explain index text dialect =>
    some (.ok (Command.explain false index text (Dialect.effective dialect s.default)))
  | .explainLines index text dialect =>
    some (.ok (Command.explain true index text (Dialect.effective dialect s.default)))
  | _ => none

/-- Such a step sends the command that it asks for. -/
theorem command?_of_request {s : Session} {st : Step} {c : List Token}
    (h : s.request? st = some (.ok c)) : s.command? st = some c := by
  cases st with
  | search index name =>
    obtain ⟨q, hq, hc⟩ := Outcome.bind_eq_ok.mp (Option.some.inj h)
    have hp := s.on_search index name
    rw [hq] at hp
    rw [command?_of_map hp, Client.search_of_ok hc, Exchange.command?_asking]
  | aggregate index name =>
    obtain ⟨a, ha, hc⟩ := Outcome.bind_eq_ok.mp (Option.some.inj h)
    cases hc
    have hp := s.on_aggregate index name
    rw [ha] at hp
    rw [command?_of_map hp, Client.aggregate, Exchange.command?_asking]
  | cursorRead | cursorDelete | info | explain | explainLines =>
    cases h
    rfl
  | query | aggregation | callQuery | callAggregation | compile | setDefault | iterate | next
  | close => cases h

/-- If that is a fault, it is what comes of the step, and nothing is sent. -/
theorem on_refused {s : Session} {st : Step} {f : Fault} (h : s.request? st = some (.error f)) :
    (perform st).on s = .done (.error f, s) := by
  cases st with
  | search index name =>
    have hr := Option.some.inj h
    rw [on_search]
    cases hq : s.queryOf name with
    | error f' =>
      rw [hq] at hr
      cases hr
      rfl
    | ok q =>
      rw [hq] at hr
      have hc : Command.search index q s.default = .error f := hr
      simp only [Client.search_of_error hc]
      rfl
  | aggregate index name =>
    have hr := Option.some.inj h
    rw [on_aggregate]
    cases ha : s.aggregationOf name with
    | error f' =>
      rw [ha] at hr
      cases hr
      rfl
    | ok a =>
      rw [ha] at hr
      cases hr
  | cursorRead | cursorDelete | info | explain | explainLines => cases h
  | query | aggregation | callQuery | callAggregation | compile | setDefault | iterate | next
  | close => cases h

/-! ## all commands -/

/-- the ways in which a step comes to send a command -/
inductive Sends (s : Session) : Step → List Token → Prop where
  /-- the step asks for it itself -/
  | asked {st : Step} {c : List Token} (h : s.request? st = some (.ok c)) : Sends s st c
  /-- the first batch of an iteration: its request as it is by now, with a cursor -/
  | opened {g index : String} {count : Option Int} {p : Nat} {a : Aggregation}
    (hit : s.iterationOf g = .ok ⟨index, count, .waiting p⟩) (ha : s.aggregationAt p = some a) :
    Sends s (.next g) (Command.aggregate index (a.withCursor count) s.default)
  /-- an iteration at an open cursor goes on, or is given up -/
  | moved {g index : String} {count : Option Int} {cursor : Int}
    (hit : s.iterationOf g = .ok ⟨index, count, .suspended cursor⟩) (m : Move) :
    Sends s (m.step g) (m.command index count cursor)
  /-- the name of such an iteration is given to a new one -/
  | dropped {g index index' name : String} {count count' : Option Int} {cursor : Int}
    (hit : s.iterationOf g = .ok ⟨index, count, .suspended cursor⟩) :
    Sends s (.iterate g index' name count') (Command.cursorDelete index cursor)

theorem command?_move {s : Session} {g : String} {it : Iteration} (m : Move)
    (h : s.iterationOf g = .ok it) : s.command? (m.step g) = s.commandOf g it m := by
  cases m with
  | next => exact command?_of_map (on_next h)
  | close => exact command?_of_map (on_close h)

theorem command?_iterate {s : Session} {g index name : String} {count : Option Int}
    {c : List Token} (h : s.command? (.iterate g index name count) = some c) :
    ∃ old, s.iterationOf g = .ok old ∧ s.commandOf g old .close = some c := by
  cases hp : s.place name with
  | error f =>
    rw [command?_of_done (on_iterate_missing hp)] at h
    cases h
  | ok p =>
    rw [command?_of_map ((on_iterate_of_place hp).trans (s.on_iterate g _))] at h
    unfold iterationOf
    cases hg : s.iterations.get? g with
    | none =>
      rw [hg] at h
      cases h
    | some old =>
      rw [hg, Option.elim_some, Exchange.command?_regardless] at h
      exact ⟨old, rfl, h⟩

theorem command?_of_missing {s : Session} {g : String} {f : Fault} (m : Move)
    (h : s.iterationOf g = .error f) : s.command? (m.step g) = none := by
  cases m with
  | next => exact command?_of_done (on_next_missing h)
  | close => exact command?_of_done (on_close_missing h)

theorem opened_of_commandOf {s : Session} {g index : String} {count : Option Int} {p : Nat}
    {m : Move} {c : List Token} (h : s.commandOf g ⟨index, count, .waiting p⟩ m = some c) :
    ∃ a, s.aggregationAt p = some a ∧ m = .next
      ∧ c = Command.aggregate index (a.withCursor count) s.default := by
  cases ha : s.aggregationAt p with
  | none =>
    cases m with
    | next =>
      have hr : s.requestAt g p = .error (.missingName g) := by rw [requestAt, ha]
      rw [commandOf, Iteration.next_missing s.default rfl hr] at h
      cases h
    | close => cases h
  | some a =>
    rw [commandOf_waiting g index count ha] at h
    cases m with
    | next =>
      cases h
      exact ⟨a, rfl, rfl, rfl⟩
    | close => cases h

theorem suspended_of_commandOf {s : Session} {g index : String} {count : Option Int} {cursor : Int}
    {m : Move} {c : List Token} (h : s.commandOf g ⟨index, count, .suspended cursor⟩ m = some c) :
    c = m.command index count cursor := by
  by_cases hz : cursor = 0
  · rw [hz, commandOf_exhausted] at h
    cases h
  · rw [commandOf_suspended s g index count hz] at h
    exact (Option.some.inj h).symm

theorem sends_of_move {s : Session} {g : String} {m : Move} {c : List Token}
    (h : s.command? (m.step g) = some c) : Sends s (m.step g) c := by
  cases hit : s.iterationOf g with
  | error f =>
    rw [command?_of_missing m hit] at h
    cases h
  | ok it =>
    rw [command?_move m hit] at h
    obtain ⟨index, count, progress⟩ := it
    cases progress with
    | waiting p =>
      obtain ⟨a, ha, rfl, rfl⟩ := opened_of_commandOf h
      exact .opened hit ha
    | suspended cursor =>
      obtain rfl := suspended_of_commandOf h
      exact .moved hit m
    | ended => cases m <;> cases h

theorem sends_of_iterate {s : Session} {g index name : String} {count : Option Int} {c : List Token}
    (h : s.command? (.iterate g index name count) = some c) :
    Sends s (.iterate g index name count) c := by
  obtain ⟨⟨index, count, progress⟩, hit, h⟩ := command?_iterate h
  cases progress with
  | waiting p =>
    obtain ⟨a, -, hm, -⟩ := opened_of_commandOf h
    cases hm
  | suspended cursor =>
    obtain rfl := suspended_of_commandOf h
    exact .dropped hit
  | ended => cases h

/-- A step that is about no iteration sends what it asks for itself. -/
theorem request?_of_command? {s : Session} {st : Step} {c : List Token} (hi : st.iteration? = none)
    (h : s.command? st = some c) : s.request? st = some (.ok c) := by
  cases hr : s.request? st with
  | some r =>
    cases r with
    | ok c' =>
      rw [command?_of_request hr] at h
      cases h
      rfl
    | error f =>
      rw [command?_of_done (on_refused hr)] at h
      cases h
  | none =>
    cases st with
    | search | aggregate | cursorRead | cursorDelete | info | explain | explainLines => cases hr
    | query | aggregation | callQuery | callAggregation | compile | setDefault =>
      cases h.symm.trans (command?_of_silent trivial)
    | iterate | next | close => cases hi

/-- Whatever a step sends, it sends in one of these ways. -/
theorem sends_of_mem {s : Session} {st : Step} {c : List Token} (t : Transport σ) (x : σ)
    (h : c ∈ (s.step t x st).sent) : Sends s st c := by
  rw [sent_step, Option.mem_toList] at h
  cases hi : st.iteration? with
  | none => exact .asked (request?_of_command? hi h)
  | some i =>
    rcases Step.of_iteration? hi with ⟨index, name, count, rfl⟩ | rfl | rfl
    · exact sends_of_iterate h
    · exact sends_of_move (m := .next) h
    · exact sends_of_move (m := .close) h

end Session

end FullText

import FullText.Proofs.Iteration
import FullText.Session

/-!
# What a step does, seen from the outside

* `Session.on_asking`, `Session.on_next`, …  what a step does in a session, as one exchange, and the
                              session that it leaves for each outcome of that;
* `Session.requested`         the session after a step that is about no iteration;
* `Session.requests_perform`  such a step leaves it, whether it fails or not;
* `Session.step_of_map`       a step is the exchange that it comes to, and what is left then;
* `Session.brief_perform`     a step sends at most one command.

A failure does not take back what has been assigned: each equation says what has been by then.
-/

namespace FullText

variable {σ : Type}

/-! ## where an iteration stands -/

/-- the batch that is given by an outcome, if it is one of a `next` with a batch -/
def Session.batchOf : Except Fault Session.Answer → Option Batch
  | .ok (.nextBatch b) => b
  | _ => none

/-- where an iteration stands after an outcome: at the batch that it has given, or at its end -/
def Progress.after (outcome : Except Fault Session.Answer) : Progress :=
  match Session.batchOf outcome with
  | some b => .suspended (b.cursor.getD 0)
  | none => .ended

theorem Iteration.advance_eq (it : Iteration) (batch : Option Batch) :
    it.advance batch = { it with progress := .after (.ok (.nextBatch batch)) } := by
  cases batch <;> rfl

namespace Session

theorem setIteration_setIteration (s : Session) (name : String) (it it' : Iteration) :
    (s.setIteration name it).setIteration name it' = s.setIteration name it' := by
  rw [setIteration, setIteration, setIteration, Bindings.put_put]

/-! ## one step as one exchange -/

section
variable {α β : Type} (s : Session)

theorem on_get_bind (g : Session → Action α) : (get >>= g).on s = (g s).on s := rfl

theorem on_modify_bind (f : Session → Session) (g : PUnit → Action α) :
    (modify f >>= g).on s = (g ⟨⟩).on (f s) := rfl

theorem on_lift_ok {x : Except Fault α} {a : α} (h : x = .ok a) (g : α → Action β) :
    (liftM x >>= g).on s = (g a).on s := by
  rw [h]
  rfl

theorem on_lift_error {x : Except Fault α} {f : Fault} (h : x = .error f) (g : α → Action β) :
    (liftM x >>= g).on s = .done (.error f, s) := by
  rw [h]
  rfl

end

theorem on_exchange {α : Type} (e : Exchange α) (s : Session) :
    (exchange e).on s = (fun o => (o, s)) <$> ExceptT.run e := rfl

theorem on_exchange_bind_pure {α : Type} (e : Exchange α) (answer : α → Answer) (s : Session) :
    (exchange e >>= fun a => pure (answer a) : Action Answer).on s
      = (fun o => (o.map answer, s)) <$> ExceptT.run e := by
  rw [Procedure.on_bind, on_exchange, bind_map_left, map_eq_pure_bind]
  congr 1
  funext o
  cases o <;> rfl

theorem on_asking {α : Type} (answer : α → Answer) (e : Session → Exchange α) (s : Session) :
    (asking answer e).on s = (fun o => (o.map answer, s)) <$> ExceptT.run (e s) :=
  on_exchange_bind_pure (e s) answer s

theorem on_search (s : Session) (index name : String) :
    (perform (.search index name)).on s
      = match s.queryOf name with
        | .ok q => (fun o => (o.map .result, s)) <$> ExceptT.run (Client.search index q s.default)
        | .error f => .done (.error f, s) := by
  rw [perform, on_asking]
  cases s.queryOf name <;> rfl

theorem on_aggregate (s : Session) (index name : String) :
    (perform (.aggregate index name)).on s
      = match s.aggregationOf name with
        | .ok a => (fun o => (o.map .batch, s)) <$> ExceptT.run (Client.aggregate index a s.default)
        | .error f => .done (.error f, s) := by
  rw [perform, on_asking]
  cases s.aggregationOf name <;> rfl

/-- Whatever comes of the exchange, the iteration stands where that leaves it: it has been put to its
    end before. -/
theorem on_next {s : Session} {name : String} {it : Iteration} (h : s.iterationOf name = .ok it) :
    (perform (.next name)).on s
      = (fun o : Except Fault (Option Batch) => (o.map .nextBatch,
            s.setIteration name { it with progress := .after (o.map .nextBatch) }))
          <$> ExceptT.run (it.next (s.requestAt name) s.default) := by
  rw [perform, next, on_get_bind, on_lift_ok s h, on_modify_bind, on_get_bind, Procedure.on_bind,
    on_exchange, bind_map_left, map_eq_pure_bind]
  congr 1
  funext o
  cases o with
  | error f => rfl
  | ok batch =>
    show Dialogue.done (_, (s.setIteration name it.finish).setIteration name (it.advance batch)) = _
    rw [setIteration_setIteration, Iteration.advance_eq]
    rfl

theorem on_close {s : Session} {name : String} {it : Iteration} (h : s.iterationOf name = .ok it) :
    (perform (.close name)).on s
      = (fun o : Except Fault Unit => (o.map fun _ => .nothing, s.setIteration name it.finish))
          <$> ExceptT.run it.close := by
  rw [perform, close, on_get_bind, on_lift_ok s h, on_modify_bind]
  exact on_exchange_bind_pure it.close _ _

theorem on_next_missing {s : Session} {name : String} {f : Fault}
    (h : s.iterationOf name = .error f) : (perform (.next name)).on s = .done (.error f, s) := by
  rw [perform, next, on_get_bind, on_lift_error s h]

theorem on_close_missing {s : Session} {name : String} {f : Fault}
    (h : s.iterationOf name = .error f) : (perform (.close name)).on s = .done (.error f, s) := by
  rw [perform, close, on_get_bind, on_lift_error s h]

theorem on_iterate (s : Session) (name : String) (it : Iteration) :
    (iterate name it).on s
      = (fun o : Except Fault Unit => (o.map fun _ => .nothing, s.setIteration name it))
          <$> ExceptT.run ((s.iterations.get? name).elim (return ()) fun old =>
            old.close.regardless) := by
  rw [iterate, on_get_bind, on_modify_bind]
  exact on_exchange_bind_pure _ _ _

theorem on_iterate_of_place {s : Session} {i index name : String} {count : Option Int} {p : Nat}
    (h : s.place name = .ok p) :
    (perform (.iterate i index name count)).on s = (iterate i ⟨index, count, .waiting p⟩).on s := by
  rw [perform, on_get_bind, on_lift_ok s h]

theorem on_iterate_missing {s : Session} {i index name : String} {count : Option Int} {f : Fault}
    (h : s.place name = .error f) :
    (perform (.iterate i index name count)).on s = .done (.error f, s) := by
  rw [perform, on_get_bind, on_lift_error s h]

/-- The exchange when a name is given to a new iteration cannot fail, whatever is heard. -/
theorem outcome_drop (old : Option Iteration) (t : Transport σ) (x : σ) :
    (Exchange.run t x (old.elim (return ()) fun old => old.close.regardless)).outcome = .ok () := by
  cases old with
  | none => rfl
  | some old => exact Exchange.outcome_regardless old.close t x

/-! ## steps that are about no iteration -/

/-- the iteration that a step is about, if it is about one -/
def Step.iteration? : Step → Option String
  | .iterate i _ _ _ | .next i | .close i => some i
  | _ => none

/-- the session after a step that is about no iteration -/
def requested (s : Session) : Step → Session
  | .query name text calls =>
    match Query.build text calls with
    | .ok q => s.bindNew name (.query q)
    | .error _ => s
  | .aggregation name text calls =>
    match Aggregation.build text calls with
    | .ok a => s.bindNew name (.aggregation a)
    | .error _ => s
  | .callQuery name c =>
    match s.place name, s.queryOf name with
    | .ok p, .ok q => s.replace p (.query (Building.after Query.call q c))
    | _, _ => s
  | .callAggregation name c =>
    match s.place name, s.aggregationOf name with
    | .ok p, .ok a => s.replace p (.aggregation (Building.after Aggregation.call a c))
    | _, _ => s
  | .setDefault none => { s with default := none }
  | .setDefault (some d) => if d = 0 then s else { s with default := some d }
  | _ => s

theorem on_call {ρ : Type} (s : Session) (name : String)
    (find : Session → String → Except Fault ρ) (draft : ρ → Draft) (method : Method ρ Unit) :
    (call name find draft method).on s
      = match s.place name, find s name with
        | .ok p, .ok r =>
          .done ((method.on r).1.map fun _ => .nothing, s.replace p (draft (method.on r).2))
        | .ok _, .error f => .done (.error f, s)
        | .error f, _ => .done (.error f, s) := by
  rw [call, on_get_bind]
  cases s.place name with
  | error f => exact on_lift_error s rfl _
  | ok p =>
    rw [on_lift_ok s rfl, on_get_bind]
    cases find s name with
    | error f => exact on_lift_error s rfl _
    | ok r =>
      rw [on_lift_ok s rfl]
      show _ = Dialogue.done ((method.on r).1.map _, s.replace p (draft (method.on r).2))
      generalize method.on r = left
      obtain ⟨o, r'⟩ := left
      cases o <;> rfl

theorem on_setDefault (s : Session) (d : Int) :
    (perform (.setDefault (some d))).on s
      = if d = 0 then .done (.error .zeroDialect, s)
        else .done (.ok .nothing, { s with default := some d }) := by
  by_cases hd : d = 0
  · have hcheck : Dialect.check d = .error .zeroDialect := if_pos hd
    rw [if_pos hd]
    exact on_lift_error s hcheck _
  · have hcheck : Dialect.check d = .ok d := if_neg hd
    rw [if_neg hd]
    exact on_lift_ok s hcheck _

/-- a step that asks the other side for nothing -/
def Step.Silent : Step → Prop
  | .query .. | .aggregation .. | .callQuery .. | .callAggregation .. | .compile _
  | .setDefault _ => True
  | _ => False

theorem on_silent {s : Session} {st : Step} (h : st.Silent) :
    ∃ o, (perform st).on s = .done (o, s.requested st) := by
  cases st with
  | query name text calls =>
    rw [perform, requested]
    cases Query.build text calls <;> exact ⟨_, rfl⟩
  | aggregation name text calls =>
    rw [perform, requested]
    cases Aggregation.build text calls <;> exact ⟨_, rfl⟩
  | callQuery name c =>
    rw [perform, on_call, requested]
    cases s.place name <;> cases s.queryOf name <;> exact ⟨_, rfl⟩
  | callAggregation name c =>
    rw [perform, on_call, requested]
    cases s.place name <;> cases s.aggregationOf name <;> exact ⟨_, rfl⟩
  | compile name =>
    rw [perform, on_get_bind]
    cases s.draftOf name with
    | none => exact ⟨_, rfl⟩
    | some d =>
      cases d with
      | aggregation a => exact ⟨_, rfl⟩
      | query q =>
        show ∃ o, (liftM (q.compile none) >>= _ : Action Answer).on s = .done (o, s)
        cases q.compile none <;> exact ⟨_, rfl⟩
  | setDefault dialect =>
    cases dialect with
    | none => exact ⟨_, rfl⟩
    | some d =>
      have hr : s.requested (.setDefault (some d))
          = if d = 0 then s else { s with default := some d } := rfl
      rw [on_setDefault, hr]
      by_cases hd : d = 0
      · rw [if_pos hd, if_pos hd]
        exact ⟨_, rfl⟩
      · rw [if_neg hd, if_neg hd]
        exact ⟨_, rfl⟩
  | _ => exact h.elim

/-- What a step comes to that is about no iteration: it sends nothing, or it is an exchange that does
    not touch the session. -/
inductive Requests (s : Session) (st : Step) : Dialogue (Except Fault Answer × Session) → Prop where
  | silent (h : st.Silent) (o : Except Fault Answer) : Requests s st (.done (o, s.requested st))
  | asking {α : Type} (answer : α → Answer) {e : Exchange α} (he : e.Simple)
    (hs : s.requested st = s) :
    Requests s st ((fun o => (o.map answer, s)) <$> ExceptT.run e)

theorem requests_silent {s : Session} {st : Step} (h : st.Silent) :
    Requests s st ((perform st).on s) := by
  obtain ⟨o, ho⟩ := on_silent (s := s) h
  rw [ho]
  exact .silent h o

theorem requests_asking {s : Session} {st : Step} {α : Type} {answer : α → Answer}
    {e : Session → Exchange α} (hp : perform st = asking answer e) (he : (e s).Simple)
    (hs : s.requested st = s) : Requests s st ((perform st).on s) := by
  rw [hp, on_asking]
  exact .asking answer he hs

theorem requests_perform {s : Session} {st : Step} (h : st.iteration? = none) :
    Requests s st ((perform st).on s) := by
  cases st with
  | iterate | next | close => cases h
  | search index name =>
    refine requests_asking rfl ?_ rfl
    cases s.queryOf name with
    | error f => exact .answered (.error f)
    | ok q => exact Client.simple_search index q s.default
  | aggregate index name =>
    refine requests_asking rfl ?_ rfl
    cases s.aggregationOf name with
    | error f => exact .answered (.error f)
    | ok a => exact .asking _ _
  | cursorRead | cursorDelete | info | explain | explainLines =>
    exact requests_asking rfl (.asking _ _) rfl
  | query | aggregation | callQuery | callAggregation | compile | setDefault =>
    exact requests_silent trivial

/-! ## every step -/

theorem Requests.session_run {s : Session} {st : Step}
    {d : Dialogue (Except Fault Answer × Session)} (h : Requests s st d) (t : Transport σ) (x : σ) :
    (d.run t x).outcome.2 = s.requested st := by
  cases h with
  | silent hst o => rfl
  | asking answer he hs => rw [Dialogue.run_map, hs]

theorem Requests.brief {s : Session} {st : Step} {d : Dialogue (Except Fault Answer × Session)}
    (h : Requests s st d) : d.Brief := by
  cases h with
  | silent hst o => exact .done _
  | asking answer he hs => exact Dialogue.Brief.map he.brief _

theorem brief_iterate (s : Session) (name : String) (it : Iteration) :
    ((iterate name it).on s).Brief := by
  rw [on_iterate]
  refine Dialogue.Brief.map ?_ _
  cases s.iterations.get? name with
  | none => exact .done _
  | some old =>
    rw [Option.elim_some, Exchange.regardless_eq]
    exact Dialogue.Brief.map old.simple_close.brief _

/-- A step sends at most one command, and nothing behind what is heard. -/
theorem brief_perform (s : Session) (st : Step) : ((perform st).on s).Brief := by
  cases st with
  | iterate i index name count =>
    cases hp : s.place name with
    | ok p =>
      rw [on_iterate_of_place hp]
      exact brief_iterate s i _
    | error f =>
      rw [on_iterate_missing hp]
      exact .done _
  | next i =>
    cases hi : s.iterationOf i with
    | ok it =>
      rw [on_next hi]
      exact Dialogue.Brief.map (it.simple_next _ _).brief _
    | error f =>
      rw [on_next_missing hi]
      exact .done _
  | close i =>
    cases hi : s.iterationOf i with
    | ok it =>
      rw [on_close hi]
      exact Dialogue.Brief.map it.simple_close.brief _
    | error f =>
      rw [on_close_missing hi]
      exact .done _
  | _ => exact (requests_perform rfl).brief

/-! ## steps through a transport -/

theorem step_of_map {s : Session} {st : Step} {α : Type} {e : Exchange α}
    {leave : Except Fault α → Except Fault Answer × Session}
    (h : (perform st).on s = leave <$> ExceptT.run e) (t : Transport σ) (x : σ) :
    s.step t x st
      = let run := e.run t x
        ⟨(leave run.outcome).1, run.sent, (leave run.outcome).2, run.state⟩ := by
  rw [step, h, Dialogue.run_map]
  rfl

theorem step_of_done {s s' : Session} {st : Step} {o : Except Fault Answer}
    (h : (perform st).on s = .done (o, s')) (t : Transport σ) (x : σ) :
    s.step t x st = ⟨o, [], s', x⟩ := by
  rw [step, h]
  rfl

end Session

end FullText

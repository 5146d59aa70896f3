import FullText.Proofs.Cursor.Trace
import FullText.Proofs.Session.Requests

/-!
# Watching one iteration in a session where anything else may happen

* `Act`                   what can befall an iteration: a move, or its name is bound to another one;
* `Session.actOn`         what befalls it in a step, if anything does;
* `Sight`                 what is seen of it in a step: what is sent and heard, and what comes of it;
* `Session.watch`         what is seen of it in a run of any steps, until its name is bound anew;
* `Session.Acted`         a step in which something befalls it is the exchange of that act;
* `Act.exchange`          the exchange of an act, from the iteration and a request alone;
* `tell`                  the sights that some acts and replies must give, without any session;
* `Session.opening`       the request and the default dialect just before the first batch;
* `Session.watch_eq_tell` what is seen is told by the opening, the acts and the replies alone.

An iteration whose name is bound to another one is given up: nothing knows it any more.
-/

namespace FullText

variable {σ : Type}

/-- what can befall an iteration -/
inductive Act where
  | next
  | close
  /-- its name is bound to another one -/
  | drop
  deriving DecidableEq, Repr

/-- what is seen of an iteration in a step -/
structure Sight where
  act : Act
  sent : List (List Token)
  heard : Option (Except String Value)
  outcome : Except Fault Session.Answer

/-- the request of an iteration and the default dialect, as its first batch finds them -/
abbrev Opening := Except Fault Aggregation × Option Int

/-- the exchange of an act: what the session is does not come into it -/
def Act.exchange (o : Opening) (it : Iteration) : Act → Exchange Session.Answer
  | .next => .nextBatch <$> it.next (fun _ => o.1) o.2
  | .close => (fun _ => .nothing) <$> it.close
  | .drop => (fun _ => .nothing) <$> it.close.regardless

theorem Act.brief_exchange (o : Opening) (it : Iteration) (a : Act) : (a.exchange o it).Brief := by
  cases a with
  | next => exact ((it.simple_next _ _).map _).brief
  | close => exact (it.simple_close.map _).brief
  | drop =>
    rw [exchange, Exchange.Brief, Exchange.run_map_eq, Exchange.regardless_eq]
    exact (Dialogue.Brief.map it.simple_close.brief _).map _

/-- the iteration after an outcome: at the batch that it has given, or at its end -/
def Iteration.after (it : Iteration) (outcome : Except Fault Session.Answer) : Iteration :=
  { it with progress := .after outcome }

theorem Progress.after_ne_waiting (outcome : Except Fault Session.Answer) (p : Nat) :
    after outcome ≠ .waiting p := by
  unfold after
  cases Session.batchOf outcome <;> nofun

/-- What is seen of an iteration in some acts, given the opening, if its first batch is asked for, and
    the replies to what it sends. -/
def tell (o : Opening) (it : Iteration) : List Act → List (Except String Value) → List Sight
  | [], _ => []
  | a :: as, replies =>
    let run := (a.exchange o it).run .prepared replies
    ⟨a, run.sent, run.sent.head?.map fun c => (Transport.prepared c replies).1, run.outcome⟩
      :: tell o (it.after run.outcome) as run.state

namespace Session

/-- what befalls an iteration in a step, if anything does; a name is only bound to a new iteration if
    there is a request for it -/
def actOn (s : Session) (g : String) : Step → Option Act
  | .next i => if i = g then some .next else none
  | .close i => if i = g then some .close else none
  | .iterate i _ name _ => if i = g ∧ (s.names.get? name).isSome then some .drop else none
  | _ => none

/-- what is seen of an iteration in a step -/
def sight (t : Transport σ) (s : Session) (x : σ) (a : Act) (st : Step) : Sight :=
  let e := s.step t x st
  ⟨a, e.sent, e.sent.head?.map fun c => (t c x).1, e.outcome⟩

/-- what is seen of an iteration in a run, until its name is bound to another one -/
def watch (t : Transport σ) (s : Session) (x : σ) (g : String) : List Step → List Sight
  | [] => []
  | st :: sts =>
    let e := s.step t x st
    match s.actOn g st with
    | none => e.session.watch t e.state g sts
    | some .drop => [s.sight t x .drop st]
    | some a => s.sight t x a st :: e.session.watch t e.state g sts

/-- The request at a place and the default dialect, as they are when the first batch of an iteration
    is asked for; none if something else befalls it first, or nothing at all. -/
def opening (t : Transport σ) (s : Session) (x : σ) (g : String) (p : Nat) :
    List Step → Option Opening
  | [] => none
  | st :: sts =>
    let e := s.step t x st
    match s.actOn g st with
    | none => e.session.opening t e.state g p sts
    | some .next => some (s.requestAt g p, s.default)
    | some _ => none

/-! ## one step -/

/-- A step in which nothing befalls an iteration leaves it as it is. -/
theorem iterationOf_of_no_act {s : Session} {g : String} {st : Step} (t : Transport σ) (x : σ)
    (h : s.actOn g st = none) : (s.step t x st).session.iterationOf g = s.iterationOf g := by
  by_cases hi : st.iteration? = some g
  · rcases Step.of_iteration? hi with ⟨index, name, count, rfl⟩ | rfl | rfl
    · -- nothing befalls it, so there is no request of that name
      cases hp : s.names.get? name with
      | some p =>
        rw [actOn, if_pos ⟨rfl, by rw [hp]; rfl⟩] at h
        cases h
      | none =>
        have hm : s.place name = .error (.missingName name) := by rw [place, hp]
        rw [session_iterate_missing t x hm]
    · rw [actOn, if_pos rfl] at h
      cases h
    · rw [actOn, if_pos rfl] at h
      cases h
  · exact iterationOf_step_other t x hi

/-- An iteration that does not wait looks at no request. -/
theorem next_congr {s : Session} {g : String} {it : Iteration} {o : Opening}
    (ho : ∀ p, it.progress = .waiting p → o = (s.requestAt g p, s.default)) :
    it.next (s.requestAt g) s.default = it.next (fun _ => o.1) o.2 := by
  unfold Iteration.next
  cases hp : it.progress with
  | waiting p => rw [ho p hp]
  | suspended c => rfl
  | ended => rfl

/-- A step in which something befalls an iteration is the exchange of that act. -/
structure Acted (t : Transport σ) (s : Session) (x : σ) (g : String) (it : Iteration) (o : Opening)
    (a : Act) (st : Step) : Prop where
  sent : (s.step t x st).sent = ((a.exchange o it).run t x).sent
  outcome : (s.step t x st).outcome = ((a.exchange o it).run t x).outcome
  iteration : a ≠ .drop → (s.step t x st).session.iterationOf g
    = .ok (it.after ((a.exchange o it).run t x).outcome)

theorem acted_next {s : Session} {g : String} {it : Iteration} {o : Opening} (t : Transport σ)
    (x : σ) (h : s.iterationOf g = .ok it)
    (ho : ∀ p, it.progress = .waiting p → o = (s.requestAt g p, s.default)) :
    Acted t s x g it o .next (.next g) := by
  have hs := step_next t x h
  rw [next_congr ho] at hs
  refine ⟨?_, ?_, fun _ => ?_⟩
  · rw [hs, Act.exchange, Exchange.run_map]
  · rw [hs, Act.exchange, Exchange.run_map]
  · rw [hs, Act.exchange, Exchange.run_map, Iteration.after]
    exact iterationOf_setIteration_self s g _

theorem acted_close {s : Session} {g : String} {it : Iteration} (o : Opening) (t : Transport σ)
    (x : σ) (h : s.iterationOf g = .ok it) : Acted t s x g it o .close (.close g) := by
  have hs := step_close t x h
  refine ⟨?_, ?_, fun _ => ?_⟩
  · rw [hs, Act.exchange, Exchange.run_map]
  · rw [hs, Act.exchange, Exchange.run_map]
  · rw [hs, Act.exchange, Exchange.run_map, Iteration.after, ← Iteration.finish_eq]
    exact iterationOf_setIteration_self s g _

theorem acted_drop {s : Session} {g index name : String} {count : Option Int} {it : Iteration}
    {p : Nat} (o : Opening) (t : Transport σ) (x : σ) (h : s.iterationOf g = .ok it)
    (hp : s.place name = .ok p) : Acted t s x g it o .drop (.iterate g index name count) := by
  have hs := @step_iterate _ s g index name count p t x hp
  rw [get?_of_iterationOf h, Option.elim_some] at hs
  refine ⟨?_, ?_, fun hne => absurd rfl hne⟩
  · rw [hs, Act.exchange, Exchange.run_map]
  · rw [hs, Act.exchange, Exchange.run_map, Exchange.outcome_regardless]
    rfl

theorem step_of_actOn {s : Session} {g : String} {a : Act} {st : Step}
    (h : s.actOn g st = some a) :
    (a = .next ∧ st = .next g) ∨ (a = .close ∧ st = .close g)
      ∨ ∃ index name count p, a = .drop ∧ st = .iterate g index name count
        ∧ s.place name = .ok p := by
  cases st with
  | next i =>
    rw [actOn, Option.ite_none_right_eq_some] at h
    obtain ⟨rfl, h⟩ := h
    cases h
    exact .inl ⟨rfl, rfl⟩
  | close i =>
    rw [actOn, Option.ite_none_right_eq_some] at h
    obtain ⟨rfl, h⟩ := h
    cases h
    exact .inr (.inl ⟨rfl, rfl⟩)
  | iterate i index name count =>
    rw [actOn, Option.ite_none_right_eq_some] at h
    obtain ⟨⟨rfl, hn⟩, h⟩ := h
    cases h
    obtain ⟨p, hp⟩ := Option.isSome_iff_exists.mp hn
    exact .inr (.inr ⟨index, name, count, p, rfl, rfl, place_eq_ok_iff.mpr hp⟩)
  | query | aggregation | callQuery | callAggregation | compile | setDefault | search | aggregate
  | cursorRead | cursorDelete | info | explain | explainLines => cases h

theorem acted {s : Session} {g : String} {it : Iteration} {o : Opening} {a : Act} {st : Step}
    (t : Transport σ) (x : σ) (h : s.iterationOf g = .ok it) (ha : s.actOn g st = some a)
    (ho : a = .next → ∀ p, it.progress = .waiting p → o = (s.requestAt g p, s.default)) :
    Acted t s x g it o a st := by
  rcases step_of_actOn ha with ⟨rfl, rfl⟩ | ⟨rfl, rfl⟩ | ⟨index, name, count, p, rfl, rfl, hp⟩
  · exact acted_next t x h (ho rfl)
  · exact acted_close o t x h
  · exact acted_drop o t x h hp

theorem sight_eq {s : Session} {g : String} {it : Iteration} {o : Opening} {a : Act} {st : Step}
    {t : Transport σ} {x : σ} (h : Acted t s x g it o a st) :
    s.sight t x a st = ⟨a, (a.exchange o it).command?.toList,
      (a.exchange o it).command?.map fun c => (t c x).1,
      ((a.exchange o it).run t x).outcome⟩ := by
  unfold sight
  simp only [h.sent, h.outcome, (a.brief_exchange o it).sent_run]
  cases (a.exchange o it).command? <;> rfl

end Session

/-! ## a run -/

theorem tell_cons (o : Opening) (it : Iteration) (a : Act) (as : List Act)
    (replies : List (Except String Value)) (t : Transport σ) (x : σ) :
    tell o it (a :: as)
        (((a.exchange o it).command?.map fun c => (t c x).1).toList ++ replies)
      = ⟨a, (a.exchange o it).command?.toList, (a.exchange o it).command?.map fun c => (t c x).1,
            ((a.exchange o it).run t x).outcome⟩
          :: tell o (it.after ((a.exchange o it).run t x).outcome) as replies := by
  have hbrief : Dialogue.Brief (ExceptT.run (a.exchange o it)) := a.brief_exchange o it
  rw [tell]
  unfold Exchange.command? Exchange.run
  revert hbrief
  generalize ExceptT.run (a.exchange o it) = d
  intro hbrief
  cases hbrief <;> rfl

/-- Where an iteration waits does not matter to those who know the request. -/
theorem tell_waiting (o : Opening) (index : String) (count : Option Int) (p p' : Nat)
    (as : List Act) (replies : List (Except String Value)) :
    tell o ⟨index, count, .waiting p⟩ as replies
      = tell o ⟨index, count, .waiting p'⟩ as replies := by
  cases as with
  | nil => rfl
  | cons a as =>
    cases a with
    | next | close | drop => rfl

namespace Session

theorem filterMap_heard_cons (a : Sight) (sights : List Sight) :
    (a :: sights).filterMap Sight.heard = a.heard.toList ++ sights.filterMap Sight.heard := by
  cases h : a.heard with
  | none => rw [List.filterMap_cons_none h]; rfl
  | some r => rw [List.filterMap_cons_some h]; rfl

/-- What is seen of an iteration is told by the opening, the acts and the replies, and by nothing
    else that happens in the session. -/
theorem watch_eq_tell {s : Session} {g : String} {it : Iteration} {o : Opening}
    (t : Transport σ) (x : σ) (sts : List Step) (h : s.iterationOf g = .ok it)
    (ho : ∀ p, it.progress = .waiting p → ∀ o', s.opening t x g p sts = some o' → o = o') :
    s.watch t x g sts = tell o it ((s.watch t x g sts).map Sight.act)
      ((s.watch t x g sts).filterMap Sight.heard) := by
  -- after its first act an iteration does not wait any more, and then no opening matters
  induction sts generalizing s x it with
  | nil => rfl
  | cons st sts ih =>
    cases ha : s.actOn g st with
    | none =>
      simp only [watch, opening, ha] at ho ⊢
      exact ih _ ((iterationOf_of_no_act t x ha).trans h) ho
    | some a =>
      have hacted : Acted t s x g it o a st := by
        refine acted t x h ha fun hn p hp => ho p hp _ ?_
        rw [opening, ha, hn]
      have hrest : a ≠ .drop → (s.step t x st).session.watch t (s.step t x st).state g sts
          = tell o (it.after ((a.exchange o it).run t x).outcome) _ _ := fun hd =>
        ih _ (hacted.iteration hd) fun p hp => absurd hp (Progress.after_ne_waiting _ p)
      cases a with
      | drop =>
        simp only [watch, ha, sight_eq hacted, List.map_cons, filterMap_heard_cons]
        rw [tell_cons]
        rfl
      | next =>
        simp only [watch, ha, sight_eq hacted, List.map_cons, filterMap_heard_cons]
        rw [tell_cons, ← hrest nofun]
      | close =>
        simp only [watch, ha, sight_eq hacted, List.map_cons, filterMap_heard_cons]
        rw [tell_cons, ← hrest nofun]

/-- The opening is what the steps before the first batch have left, and none of them has befallen the
    iteration. -/
theorem opening_eq_some {t : Transport σ} {s : Session} {x : σ} {g : String} {p : Nat}
    {sts : List Step} {o : Opening} (h : s.opening t x g p sts = some o) :
    ∃ before rest, sts = before ++ .next g :: rest
      ∧ o = ((s.after t x before).1.requestAt g p, (s.after t x before).1.default)
      ∧ (s.after t x before).1.iterationOf g = s.iterationOf g
      ∧ s.watch t x g sts
        = (s.after t x before).1.watch t (s.after t x before).2 g (.next g :: rest) := by
  induction sts generalizing s x with
  | nil => cases h
  | cons st sts ih =>
    cases ha : s.actOn g st with
    | none =>
      simp only [opening, ha] at h
      obtain ⟨before, rest, rfl, ho, hit, hw⟩ := ih h
      refine ⟨st :: before, rest, rfl, ho, hit.trans (iterationOf_of_no_act t x ha), ?_⟩
      rw [watch, ha]
      exact hw
    | some a =>
      rcases step_of_actOn ha with ⟨rfl, rfl⟩ | ⟨rfl, rfl⟩ | ⟨index, name, count, q, rfl, rfl, -⟩
      · simp only [opening, ha] at h
        cases h
        exact ⟨[], sts, rfl, rfl, rfl, rfl⟩
      · simp only [opening, ha] at h
        cases h
      · simp only [opening, ha] at h
        cases h

end Session

end FullText

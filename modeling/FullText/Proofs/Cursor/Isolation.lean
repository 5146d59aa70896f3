import FullText.Aggregation.ReadBack
import FullText.Proofs.Building.Settings
import FullText.Proofs.Cursor.Watch

/-!
# An iteration is isolated from everything but its own start

* `Session.watch_eq_watch`   two runs that agree on the opening of an iteration, on what befalls it
                             and on the replies to what it sends show the same of it;
* `Session.watch_opening`    the opening is sent: the request as all calls by then have left it, with
                             a cursor, and the default dialect as it has been set by then;
* `Session.Isolated`         both, and that nothing that befalls an iteration changes a request;
* `Session.isolated`         every iteration that waits for its first batch is isolated.

The two runs may be those of sessions with nothing else in common: other requests, other names, other
transports, and other steps between the acts.
-/

namespace FullText

variable {σ σ' : Type}

/-! ## a cursor is asked for by a call only -/

theorem Aggregation.cursor_calls {a : Aggregation} {cs : List Call}
    (h : ∀ options, .withCursor options ∉ cs) : (a.calls cs).cursor = a.cursor := by
  have hnone : settings.about .cursor cs = [] := by
    refine List.filter_eq_nil_iff.mpr fun c hc hs => ?_
    cases c with
    | withCursor options => exact h options hc
    | _ => cases of_decide_eq_true hs
  have honly := settings.only_run a cs .cursor
  rw [hnone] at honly
  have hcursor := congrArg Aggregation.cursor honly
  exact hcursor

namespace Session

variable {t : Transport σ} {t' : Transport σ'} {s s' : Session} {x : σ} {x' : σ'}
  {g g' index : String} {count : Option Int} {p p' : Nat} {sts sts' : List Step}

/-! ## two runs -/

theorem watch_eq_tell_opening (t : Transport σ) (x : σ) (sts : List Step)
    (h : s.iterationOf g = .ok ⟨index, count, .waiting p⟩) :
    s.watch t x g sts = tell ((s.opening t x g p sts).getD (.ok {}, none)) ⟨index, count, .waiting p⟩
      ((s.watch t x g sts).map Sight.act) ((s.watch t x g sts).filterMap Sight.heard) := by
  refine watch_eq_tell t x sts h fun q hq o ho => ?_
  cases hq
  rw [ho]
  rfl

theorem watch_eq_watch (h : s.iterationOf g = .ok ⟨index, count, .waiting p⟩)
    (h' : s'.iterationOf g' = .ok ⟨index, count, .waiting p'⟩)
    (hopening : s'.opening t' x' g' p' sts' = s.opening t x g p sts)
    (hacts : (s'.watch t' x' g' sts').map Sight.act = (s.watch t x g sts).map Sight.act)
    (hheard : (s'.watch t' x' g' sts').filterMap Sight.heard
      = (s.watch t x g sts).filterMap Sight.heard) :
    s'.watch t' x' g' sts' = s.watch t x g sts := by
  rw [watch_eq_tell_opening t' x' sts' h', watch_eq_tell_opening t x sts h, hopening, hacts, hheard]
  exact tell_waiting _ index count p' p _ _

/-! ## the opening -/

theorem watch_opening {a : Aggregation} {o : Opening}
    (h : s.iterationOf g = .ok ⟨index, count, .waiting p⟩) (ha : s.aggregationAt p = some a)
    (ho : s.opening t x g p sts = some o) :
    ∃ before rest sight, sts = before ++ .next g :: rest
      ∧ o = (.ok (a.calls (s.callsOn t x p before)), before.foldl Step.defaultAfter s.default)
      ∧ (s.watch t x g sts).head? = some sight ∧ sight.act = .next
      ∧ sight.sent = [Command.aggregate index
          ((a.calls (s.callsOn t x p before)).withCursor count)
          (before.foldl Step.defaultAfter s.default)] := by
  obtain ⟨before, rest, rfl, rfl, hit, hw⟩ := opening_eq_some ho
  have hrequest := requestAt_of_aggregationAt g (aggregationAt_after t x before ha)
  have hwaits : ∀ q, Iteration.progress ⟨index, count, .waiting p⟩ = .waiting q →
      ((.ok (a.calls (s.callsOn t x p before)), before.foldl Step.defaultAfter s.default) : Opening)
        = ((s.after t x before).1.requestAt g q, (s.after t x before).1.default) := by
    intro q hq
    cases hq
    rw [hrequest, default_after]
  have hacted := acted_next t (s.after t x before).2 (hit.trans h) hwaits
  have hnext : (s.after t x before).1.actOn g (.next g) = some .next := if_pos rfl
  refine ⟨before, rest, (s.after t x before).1.sight t (s.after t x before).2 .next (.next g), rfl,
    by rw [hrequest, default_after], ?_, rfl, ?_⟩
  · rw [hw, watch, hnext]
    rfl
  · rw [sight_eq hacted]
    rfl

/-! ## isolation -/

/-- What an iteration depends on, and what it leaves alone, in a run of any steps. -/
structure Isolated (t : Transport σ) (s : Session) (x : σ) (g index : String) (count : Option Int)
    (p : Nat) (sts : List Step) : Prop where
  /-- another run shows the same if the opening, the acts and the replies are the same -/
  same : ∀ (σ' : Type) (t' : Transport σ') (s' : Session) (x' : σ') (g' : String) (p' : Nat)
      (sts' : List Step), s'.iterationOf g' = .ok ⟨index, count, .waiting p'⟩ →
    s'.opening t' x' g' p' sts' = s.opening t x g p sts →
    (s'.watch t' x' g' sts').map Sight.act = (s.watch t x g sts).map Sight.act →
    (s'.watch t' x' g' sts').filterMap Sight.heard = (s.watch t x g sts).filterMap Sight.heard →
    s'.watch t' x' g' sts' = s.watch t x g sts
  /-- the first thing that is sent is the request with all calls that were made on it by then, and
      the default dialect that was set by then -/
  opens : ∀ a o, s.aggregationAt p = some a → s.opening t x g p sts = some o →
    ∃ before rest sight, sts = before ++ .next g :: rest
      ∧ o = (.ok (a.calls (s.callsOn t x p before)), before.foldl Step.defaultAfter s.default)
      ∧ (s.watch t x g sts).head? = some sight ∧ sight.act = .next
      ∧ sight.sent = [Command.aggregate index
          ((a.calls (s.callsOn t x p before)).withCursor count)
          (before.foldl Step.defaultAfter s.default)]
  /-- requests, names and the default dialect are those of the run without any step on an iteration,
      whatever is answered there -/
  changes_nothing : ∀ (σ' : Type) (t' : Transport σ') (x' : σ'),
    (s.after t x sts).1.requests
      = (s.after t' x' (sts.filter fun st => st.iteration?.isNone)).1.requests
  /-- only calls on a request change it, and without one that asks for a cursor there is none in its
      tokens -/
  cursorless : ∀ q a, s.aggregationAt q = some a →
    (s.after t x sts).1.aggregationAt q = some (a.calls (s.callsOn t x q sts))
      ∧ (a.cursor = none → (∀ options, .withCursor options ∉ s.callsOn t x q sts) →
          ∀ default, ∃ r, AggregateReading.read?
            ((a.calls (s.callsOn t x q sts)).compile default) = some r ∧ r.cursor = none)

/-- An iteration that waits for its first batch is isolated in every run. -/
theorem isolated (t : Transport σ) (x : σ) (sts : List Step)
    (h : s.iterationOf g = .ok ⟨index, count, .waiting p⟩) :
    Isolated t s x g index count p sts where
  same _ _ _ _ _ _ _ := watch_eq_watch h
  opens _ _ := watch_opening h
  changes_nothing _ t' x' := requests_after t t' x x' sts rfl
  cursorless q a ha := by
    refine ⟨aggregationAt_after t x sts ha, fun hc hcs default => ?_⟩
    refine ⟨_, Aggregation.read?_compile _ default, ?_⟩
    show (Aggregation.cursor _).map _ = none
    rw [Aggregation.cursor_calls hcs, hc]
    rfl

/-! ## two sessions that share one iteration and nothing else -/

/-- a request that is called again, and an iteration of it among other steps -/
def busy : Session :=
  ({ default := some 1 } : Session).bindNew "r" (.aggregation { text := "*" })
    |>.setIteration "a" ⟨"idx", some 2, .waiting 0⟩

/-- the request and the default dialect change before the first batch, and again after it; the name
    of the request is bound to another one, and other commands are sent between the batches -/
def busySteps : List Step :=
  [.callAggregation "r" (.timeout 5), .setDefault (some 3), .info "idx", .next "a",
    .callAggregation "r" (.withCursor ⟨some 9, none⟩), .setDefault none,
    .aggregation "r" "other" [], .iterate "b" "idx" "r" none, .next "b", .next "a", .close "a"]

def busyReplies : List (Except String Value) :=
  [.error "no info", .ok (.array [.array [.int 4], .int 7]), .error "busy",
    .ok (.array [.array [.int 4, .array [.text "n", .text "1"]], .int 8]), .ok (.text "OK")]

/-- the same request under another name, with nothing but its own iteration -/
def quiet : Session :=
  ({ default := some 3 } : Session).bindNew "z" (.query { text := "unused" })
    |>.bindNew "q" (.aggregation { text := "*", timeout := some 5 })
    |>.setIteration "it" ⟨"idx", some 2, .waiting 1⟩

def quietSteps : List Step := [.next "it", .next "it", .close "it"]

def quietReplies : List (Except String Value) :=
  [.ok (.array [.array [.int 4], .int 7]),
    .ok (.array [.array [.int 4, .array [.text "n", .text "1"]], .int 8]), .ok (.text "OK")]

theorem isolated_busy_quiet :
    quiet.watch Transport.prepared quietReplies "it" quietSteps
        = busy.watch Transport.prepared busyReplies "a" busySteps
      ∧ (quiet.watch Transport.prepared quietReplies "it" quietSteps).map Sight.sent
        = [[[.text "FT.AGGREGATE", .text "idx", .text "*", .text "TIMEOUT", .int 5,
            .text "WITHCURSOR", .text "COUNT", .int 2, .text "DIALECT", .int 3]],
          [[.text "FT.CURSOR", .text "READ", .text "idx", .int 7, .text "COUNT", .int 2]],
          [[.text "FT.CURSOR", .text "DEL", .text "idx", .int 8]]] := by
  -- each run is evaluated by itself: side by side they are unfolded step by step against each other
  have hacts : (busy.watch Transport.prepared busyReplies "a" busySteps).map Sight.act
      = [.next, .next, .close] := rfl
  have hacts' : (quiet.watch Transport.prepared quietReplies "it" quietSteps).map Sight.act
      = [.next, .next, .close] := rfl
  have hheard : (busy.watch Transport.prepared busyReplies "a" busySteps).filterMap Sight.heard
      = quietReplies := rfl
  have hheard' : (quiet.watch Transport.prepared quietReplies "it" quietSteps).filterMap Sight.heard
      = quietReplies := rfl
  exact ⟨(isolated (s := busy) Transport.prepared busyReplies busySteps rfl).same _
    Transport.prepared quiet quietReplies "it" 1 quietSteps rfl rfl (hacts'.trans hacts.symm)
    (hheard'.trans hheard.symm), rfl⟩

end Session

end FullText

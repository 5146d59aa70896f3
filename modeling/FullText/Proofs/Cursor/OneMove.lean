import FullText.Proofs.Cursor.Account
import FullText.Proofs.Cursor.Safety

/-!
# One move of an iteration on an engine with cursors

* `Session.left`         the pages that are left for an iteration;
* `Session.Moved`        what one move makes of the pages that are left for its iteration;
* `Session.Kept`         the invariant: the engine and the iterations agree on the open cursors;
* `Session.moved_step`   from the invariant, whichever move is made is a good one;
* `Kept.moved`           and such a move keeps the invariant.
-/

namespace FullText

variable {σ : Type}

/-- the total and the rows of a batch, whatever its cursor -/
def Batch.content (b : Batch) : Int × List (Bindings Value) := (b.total, b.rows)

/-- the total and the rows that a page means -/
def Page.content (p : Page) : Int × List (Bindings Value) :=
  (p.total, p.rows.map Bindings.ofList)

/-- the pages that the engine has found for an iteration, when it was asked for the first one -/
def pagesOf (found : List Token → σ → Page × List Page) : List (Observation σ) → List Page
  | [] => []
  | o :: _ =>
    match o.sent with
    | [] => []
    | command :: _ => (found command o.before).1 :: (found command o.before).2

namespace Session

/-- the cursor at which an iteration stands, if more can be read with it -/
def cursorOf (s : Session) (g : String) : Option CursorKey :=
  match s.iterationOf g with
  | .ok ⟨index, _, .suspended id⟩ => keyOf (.text index) id
  | _ => none

/-- the pages that are left for an iteration: all that will be found for it, if it waits, and else
    what is left at its cursor -/
def left (s : Session) (cs : Cursors) (found : List Token → σ → Page × List Page) (g : String)
    (os : List (Observation σ)) : List Page :=
  match s.iterationOf g with
  | .ok ⟨_, _, .waiting _⟩ => pagesOf found os
  | _ => ((s.cursorOf g).bind cs).getD []

variable {s : Session} {g : String} {it : Iteration} {index : String} {count : Option Int}

theorem cursorOf_suspended {id : Int} (h : s.iterationOf g = .ok ⟨index, count, .suspended id⟩) :
    s.cursorOf g = keyOf (.text index) id := by
  rw [cursorOf, h]

theorem cursorOf_waiting {p : Nat} (h : s.iterationOf g = .ok ⟨index, count, .waiting p⟩) :
    s.cursorOf g = none := by
  rw [cursorOf, h]

theorem cursorOf_ended (h : s.iterationOf g = .ok ⟨index, count, .ended⟩) :
    s.cursorOf g = none := by
  rw [cursorOf, h]

/-- What is seen of a move with a known command and outcome, what the other side is then, and the
    cursors of all iterations: only that of the move's own is another one. -/
theorem step_of_outcome {t : Transport σ} {x : σ} {m : Move} {command : Option (List Token)}
    {outcome : Except Fault Answer} (h : s.iterationOf g = .ok it) (hr : s.Ready it)
    (hc : s.commandOf g it m = command)
    (ho : m.outcome (command.map fun c => (t c x).1) = outcome) :
    s.observation t x g m
        = ⟨g, m, x, command.toList, command.map fun c => (t c x).1, outcome⟩
      ∧ (s.step t x (m.step g)).state = (command.map fun c => (t c x).2).getD x
      ∧ (s.step t x (m.step g)).session.cursorOf
        = Function.update s.cursorOf g
            ((batchOf outcome).bind fun b => keyOf (.text it.index) (b.cursor.getD 0)) := by
  subst hc ho
  have hobs := observation_eq t x m h hr
  refine ⟨hobs, by rw [step_move t x m h hr], ?_⟩
  funext g'
  by_cases hg : g' = g
  · subst hg
    rw [Function.update_self, cursorOf, iterationOf_step t x m h hr, hobs]
    unfold Progress.after
    cases batchOf (m.outcome ((s.commandOf g' it m).map fun c => (t c x).1)) <;> rfl
  · rw [Function.update_of_ne hg, cursorOf, cursorOf, iterationOf_move s t x m hg]

/-! ## one move -/

/-- What a move of `g` makes of the pages that were left for it: a `next` gives the first of them,
    or none if none were left, and a `close` leaves none. -/
structure Moved (view : σ → Engine) (s : Session) (x : σ) (g : String) (o : Observation σ)
    (after : Entry σ) (ps qs : List Page) : Prop where
  cursors : ∃ index id cs',
    Continues ((view x).cursors.without (s.cursorOf g)) index qs id cs'
      ∧ view after.state = ⟨cs', (view x).faults⟩
      ∧ after.session.cursorOf = Function.update s.cursorOf g (keyOf index id)
  answered : ∃ a, o.outcome = .ok a
  next : o.move = .next → (∃ p b, ps = p :: qs ∧ o.batch? = some b ∧ b.content = p.content)
    ∨ (ps = [] ∧ qs = [] ∧ o.batch? = none)
  close : o.move = .close → qs = [] ∧ o.batch? = none

theorem moved_silent (view : σ → Engine) (t : Transport σ) (x : σ) (m : Move)
    (h : s.iterationOf g = .ok it) (hr : s.Ready it) (hc : s.commandOf g it m = none)
    (hk : s.cursorOf g = none) {ps : List Page} (hps : m = .next → ps = []) :
    Moved view s x g (s.observation t x g m) (s.step t x (m.step g)) ps [] := by
  obtain ⟨hobs, hstate, hcur⟩ := step_of_outcome h hr hc (t := t) (x := x) rfl
  have hcs : Continues ((view x).cursors.without (s.cursorOf g)) (.text it.index) [] 0
      (view x).cursors := by
    rw [hk]
    exact .last
  rw [hobs]
  cases m with
  | next =>
    refine ⟨⟨_, 0, _, hcs, by rw [hstate]; rfl, hcur⟩, ⟨_, rfl⟩, ?_, fun hm => by cases hm⟩
    exact fun _ => .inr ⟨hps rfl, rfl, rfl⟩
  | close =>
    refine ⟨⟨_, 0, _, hcs, by rw [hstate]; rfl, hcur⟩, ⟨_, rfl⟩, fun hm => (by cases hm), ?_⟩
    exact fun _ => ⟨rfl, rfl⟩

theorem moved_served {view : σ → Engine} {t : Transport σ} {x : σ}
    (h : s.iterationOf g = .ok it) (hr : s.Ready it) {c : List Token}
    (hc : s.commandOf g it .next = some c) {p : Page} {ps : List Page}
    (hs : Serves (.text it.index) p ps ((view x).cursors.without (s.cursorOf g)) (view x).faults
      (t c x).1 (view (t c x).2)) :
    Moved view s x g (s.observation t x g .next) (s.step t x (Move.next.step g)) (p :: ps) ps := by
  obtain ⟨v, id, cs', hv, hw, hcs, ha⟩ := hs
  have hout : Move.outcome .next (some (t c x).1) = .ok (.nextBatch (some (p.batch id))) := by
    rw [hv]
    show ((Batch.decodeCursor v).map _ : Except Fault Answer) = _
    rw [Page.decode_writes hw]
    rfl
  obtain ⟨hobs, hstate, hcur⟩ := step_of_outcome h hr hc hout
  rw [hobs]
  refine ⟨⟨.text it.index, id, cs', hcs, ?_, hcur⟩, ⟨_, rfl⟩, ?_, fun hm => by cases hm⟩
  · rw [hstate]
    exact ha
  · exact fun _ => .inl ⟨p, p.batch id, rfl, rfl, rfl⟩

theorem moved_released {view : σ → Engine} {t : Transport σ} {x : σ}
    (h : s.iterationOf g = .ok it) (hr : s.Ready it) {c : List Token}
    (hc : s.commandOf g it .close = some c) {v : Value} (hv : (t c x).1 = .ok v)
    (hw : Value.Writes (.text "OK") v)
    (ha : view (t c x).2
      = ⟨(view x).cursors.without (s.cursorOf g), (view x).faults⟩) (ps : List Page) :
    Moved view s x g (s.observation t x g .close) (s.step t x (Move.close.step g)) ps [] := by
  have hout : Move.outcome .close (some (t c x).1) = .ok .nothing := by
    rw [hv]
    show ((Reply.isOk v).map _ : Except Fault Answer) = _
    rw [Reply.isOk_writes hw]
    rfl
  obtain ⟨hobs, hstate, hcur⟩ := step_of_outcome h hr hc hout
  rw [hobs]
  refine ⟨⟨.text it.index, 0, _, .last, ?_, hcur⟩, ⟨_, rfl⟩, fun hm => (by cases hm), ?_⟩
  · rw [hstate]
    exact ha
  · exact fun _ => ⟨rfl, rfl⟩

/-! ## the invariant -/

/-- The engine and the iterations agree on the open cursors, the engine has had `n` faults, and no
    iteration waits for a request that is not there. -/
structure Kept (view : σ → Engine) (names : List String) (base : Cursors) (n : Nat) (s : Session)
    (x : σ) : Prop where
  account : Account names base s.cursorOf (view x).cursors
  faults : (view x).faults = n
  ready : ∀ g ∈ names, ∃ it, s.iterationOf g = .ok it ∧ s.Ready it

variable {view : σ → Engine} {t : Transport σ} {found : List Token → σ → Page × List Page}
  {names : List String} {base : Cursors} {n : Nat} {x : σ}

theorem ready_step (m : Move) (hr : ∀ g ∈ names, ∃ it, s.iterationOf g = .ok it ∧ s.Ready it) :
    ∀ g' ∈ names, ∃ it, (s.step t x (m.step g)).session.iterationOf g' = .ok it
      ∧ (s.step t x (m.step g)).session.Ready it := by
  intro g' hg'
  obtain ⟨it, hi, hit⟩ := hr g' hg'
  by_cases hn : g' = g
  · subst hn
    exact ⟨_, iterationOf_step t x m hi hit, ready_after _ it.index it.count _⟩
  · refine ⟨it, ?_, fun p hp => ?_⟩
    · rw [iterationOf_move s t x m hn]
      exact hi
    · obtain ⟨a, ha⟩ := hit p hp
      exact ⟨a, (aggregationAt_move s t x g m p).trans ha⟩

theorem Kept.moved (hk : Kept view names base n s x) (hg : g ∈ names) (m : Move)
    {ps qs : List Page} {o : Observation σ} (h : Moved view s x g o (s.step t x (m.step g)) ps qs) :
    Kept view names base n (s.step t x (m.step g)).session (s.step t x (m.step g)).state := by
  obtain ⟨index, id, cs', hc, hv, hcur⟩ := h.cursors
  refine ⟨?_, ?_, ready_step m hk.ready⟩
  · rw [hcur, hv]
    exact hk.account.goOn hg hc
  · rw [hv]
    exact hk.faults

/-- An iteration that has been moved does not wait any more, so what is left for it is at its
    cursor. -/
theorem left_moved (m : Move) {ps qs : List Page} {o : Observation σ} (h : s.iterationOf g = .ok it)
    (hr : s.Ready it) (hm : Moved view s x g o (s.step t x (m.step g)) ps qs)
    (os : List (Observation σ)) :
    (s.step t x (m.step g)).session.left (view (s.step t x (m.step g)).state).cursors found g os
      = qs := by
  obtain ⟨index, id, cs', hc, hv, hcur⟩ := hm.cursors
  have hl : (s.step t x (m.step g)).session.left (view (s.step t x (m.step g)).state).cursors
      found g os = (((s.step t x (m.step g)).session.cursorOf g).bind
        (view (s.step t x (m.step g)).state).cursors).getD [] := by
    unfold left
    rw [iterationOf_step t x m h hr]
    unfold Progress.after
    cases batchOf (s.observation t x g m).outcome <;> rfl
  rw [hl, hcur, hv, Function.update_self]
  exact hc.left_eq

/-- A move leaves what is left for the other iterations where it is. -/
theorem left_other (hk : Kept view names base n s x) (hg : g ∈ names) (m : Move) {ps qs : List Page}
    {o : Observation σ} (hm : Moved view s x g o (s.step t x (m.step g)) ps qs) {g' : String}
    (hg' : g' ∈ names) (hne : g' ≠ g) (os : List (Observation σ)) :
    (s.step t x (m.step g)).session.left (view (s.step t x (m.step g)).state).cursors found g' os
      = s.left (view x).cursors found g' os := by
  obtain ⟨index, id, cs', hc, hv, hcur⟩ := hm.cursors
  have hcg : (s.step t x (m.step g)).session.cursorOf g' = s.cursorOf g' := by
    rw [hcur, Function.update_of_ne hne]
  unfold left
  rw [iterationOf_move s t x m hne, hcg, hv]
  cases hcs : s.cursorOf g' with
  | none => rfl
  | some key =>
    have he : (Engine.mk cs' (view x).faults).cursors key = (view x).cursors key :=
      hk.account.goOn_other hg hc hg' hne hcs
    rw [Option.bind_some, Option.bind_some, he]

/-- Whichever move is made on one of the iterations: the engine is asked for nothing that it does not
    have, and what was left for the iteration is given to it. -/
theorem moved_step (ht : ServesCursors t view found) (hk : Kept view names base n s x)
    (hg : g ∈ names) (m : Move) (os : List (Observation σ)) :
    ∃ qs, Moved view s x g (s.observation t x g m) (s.step t x (m.step g))
      (s.left (view x).cursors found g (s.observation t x g m :: os)) qs := by
  obtain ⟨⟨index, count, progress⟩, hi, hr⟩ := hk.ready g hg
  cases progress with
  | ended =>
    have hcur : s.cursorOf g = none := cursorOf_ended hi
    refine ⟨[], moved_silent view t x m hi hr (by cases m <;> rfl) hcur fun _ => ?_⟩
    rw [left, hi, hcur]
    rfl
  | waiting p =>
    have hcur : s.cursorOf g = none := cursorOf_waiting hi
    obtain ⟨a, ha⟩ := hr p rfl
    have hc := commandOf_waiting g index count ha m
    cases m with
    | close => exact ⟨[], moved_silent view t x .close hi hr hc hcur fun hm => by cases hm⟩
    | next =>
      -- the reader of the engine finds the option that asks for a cursor, whatever the request is
      have hread := CursorCommand.ofTokens?_aggregate index (a.withCursor count) s.default
      have hwith : ((a.withCursor count).reading s.default).cursor.isSome := by
        rw [Aggregation.reading_withCursor]
        rfl
      have hs := ht.aggregate _ x _ _ hread hwith
      have hw : (view x).cursors.without (s.cursorOf g) = (view x).cursors := by
        rw [hcur]
        rfl
      rw [← hw] at hs
      refine ⟨(found (Command.aggregate index (a.withCursor count) s.default) x).2, ?_⟩
      have hl : s.left (view x).cursors found g (s.observation t x g .next :: os)
          = (found (Command.aggregate index (a.withCursor count) s.default) x).1
            :: (found (Command.aggregate index (a.withCursor count) s.default) x).2 := by
        rw [observation_eq t x .next hi hr, hc]
        unfold left
        rw [hi]
        rfl
      rw [hl]
      exact moved_served hi hr hc hs
  | suspended id =>
    have hcur := cursorOf_suspended hi
    by_cases hz : id = 0
    · subst hz
      have hc := commandOf_exhausted s g index count m
      refine ⟨[], moved_silent view t x m hi hr hc hcur fun _ => ?_⟩
      rw [left, hi, hcur]
      rfl
    · rw [keyOf, if_neg hz] at hcur
      -- by the account the cursor is open and has a page, so neither move on it is a fault
      obtain ⟨_, p, ps, hopen⟩ := hk.account.own g hg _ hcur
      have hw : (view x).cursors.without (s.cursorOf g)
          = Function.update (view x).cursors (.text index, id) none := by
        rw [hcur]
        rfl
      have hl : ∀ os, s.left (view x).cursors found g os = p :: ps := by
        intro os
        unfold left
        rw [hi, hcur]
        simp only [Option.bind_some, hopen, Option.getD_some]
      rw [hl]
      cases m with
      | next =>
        have hc := commandOf_suspended s g index count hz .next
        have hs := ht.read _ x _ _ _ p ps (CursorCommand.ofTokens?_cursorRead index id count) hopen
        rw [← hw] at hs
        exact ⟨ps, moved_served hi hr hc hs⟩
      | close =>
        have hc := commandOf_suspended s g index count hz .close
        obtain ⟨v, hv, hok, ha⟩ :=
          ht.delete _ x _ _ _ (CursorCommand.ofTokens?_cursorDelete index id) hopen
        rw [← hw] at ha
        exact ⟨[], moved_released hi hr hc hv hok ha _⟩

end Session

end FullText

import FullText.Proofs.Session.Failure

/-!
# A step that fails can be left out

* `Session.Seen`              what is seen of a step: its outcome, what is sent, the session after it;
* `Session.seen_step_congr`   of the other side it depends on the reply only;
* `Session.stepsWithout`      a run without one of its steps, which has been given up;
* `Session.seen_without`      with prepared replies, a run with a step that fails shows what the run
                              without it shows, if the reply to that step is left out as well;
* `NoTrace`                   what failures leave: nothing but iterations that have ended;
* `Session.failures_leave_no_trace`   so it is in every session.

Only the replies that are used up are left out: a step that fails before it sends anything has none.
-/

namespace FullText

variable {σ σ' : Type}

namespace Session

/-- what is seen of a step -/
structure Seen where
  outcome : Except Fault Answer
  sent : List (List Token)
  session : Session

def Entry.seen (e : Entry σ) : Seen := ⟨e.outcome, e.sent, e.session⟩

theorem seen_step_congr {s : Session} {st : Step} {t : Transport σ} {t' : Transport σ'} {x : σ}
    {x' : σ'}
    (h : ((s.command? st).map fun c => (t c x).1) = (s.command? st).map fun c => (t' c x').1) :
    (s.step t x st).seen = (s.step t' x' st).seen := by
  have ho := (s.brief_perform st).outcome_congr h
  unfold Entry.seen
  rw [sent_step, sent_step]
  simp only [step, ho]

/-! ## runs -/

/-- all that is sent in a run -/
def allSent (t : Transport σ) (s : Session) (x : σ) (sts : List Step) : List (List Token) :=
  ((s.steps t x sts).map Entry.seen).flatMap Seen.sent

theorem allSent_cons (t : Transport σ) (s : Session) (x : σ) (st : Step) (sts : List Step) :
    s.allSent t x (st :: sts)
      = (s.step t x st).sent ++ (s.step t x st).session.allSent t (s.step t x st).state sts := rfl

theorem steps_append (t : Transport σ) (s : Session) (x : σ) (before after : List Step) :
    s.steps t x (before ++ after)
      = s.steps t x before ++ (s.after t x before).1.steps t (s.after t x before).2 after := by
  induction before generalizing s x with
  | nil => rfl
  | cons st before ih => exact congrArg _ (ih _ _)

theorem length_steps (t : Transport σ) (s : Session) (x : σ) (sts : List Step) :
    (s.steps t x sts).length = sts.length := by
  induction sts generalizing s x with
  | nil => rfl
  | cons st sts ih => exact congrArg _ (ih _ _)

theorem session_after (t : Transport σ) (s : Session) (x : σ) (sts : List Step) :
    (s.after t x sts).1
      = (((s.steps t x sts).map Entry.seen).getLast?.map Seen.session).getD s := by
  rw [after_eq, List.getLast?_map]
  cases (s.steps t x sts).getLast? <;> rfl

/-- A run without one of its steps: the steps before it, and then those behind it, in the session in
    which an iteration that the step was about has ended. -/
def stepsWithout (t : Transport σ) (s : Session) (x : σ) (before : List Step) (st : Step)
    (after : List Step) : List (Entry σ) :=
  let left := s.after t x before
  s.steps t x before ++ (left.1.giveUp st).steps t left.2 after

theorem stepsWithout_eq {st : Step} (t : Transport σ) (s : Session) (x : σ)
    (before after : List Step) (h : st.ended? = none) :
    s.stepsWithout t x before st after = s.steps t x (before ++ after) := by
  rw [stepsWithout, steps_append]
  simp only [giveUp_of_not_ended _ h]

theorem steps_of_failure {t : Transport σ} {s : Session} {x : σ} {before : List Step} {st : Step}
    {f : Fault} (after : List Step)
    (h : ((s.after t x before).1.step t (s.after t x before).2 st).outcome = .error f) :
    let left := s.after t x before
    let e := left.1.step t left.2 st
    s.steps t x (before ++ st :: after)
      = s.steps t x before ++ e :: (left.1.giveUp st).steps t e.state after := by
  rw [steps_append, steps, session_of_failure h]

/-! ## prepared replies -/

/-- the replies without those at the places from `k` to `k + n` -/
def repliesWithout (rs : List (Except String Value)) (k n : Nat) : List (Except String Value) :=
  rs.take k ++ rs.drop (k + n)

theorem take_repliesWithout (rs : List (Except String Value)) (k n : Nat) :
    (repliesWithout rs k n).take k = rs.take k := by
  rw [repliesWithout, List.take_append, List.take_take, Nat.min_self, List.length_take]
  rcases Nat.le_total k rs.length with hk | hk
  · rw [Nat.min_eq_left hk, Nat.sub_self, List.take_zero, List.append_nil]
  · rw [List.drop_eq_nil_of_le (Nat.le_add_right_of_le hk), List.take_nil, List.append_nil]

theorem drop_repliesWithout (rs : List (Except String Value)) (k n : Nat) :
    (repliesWithout rs k n).drop k = rs.drop (k + n) := by
  rw [repliesWithout, List.drop_append, List.drop_eq_nil_of_le (List.length_take_le k rs),
    List.nil_append, List.length_take]
  rcases Nat.le_total k rs.length with hk | hk
  · rw [Nat.min_eq_left hk, Nat.sub_self, List.drop_zero]
  · rw [List.drop_eq_nil_of_le (Nat.le_add_right_of_le hk), List.drop_nil]

variable {s : Session} {rs rs' : List (Except String Value)}

theorem state_prepared (s : Session) (rs : List (Except String Value)) (st : Step) :
    (s.step Transport.prepared rs st).state
      = rs.drop (s.step Transport.prepared rs st).sent.length := by
  rw [state_step, sent_step]
  cases s.command? st with
  | none => rfl
  | some c => cases rs <;> rfl

theorem after_prepared (s : Session) (rs : List (Except String Value)) (sts : List Step) :
    (s.after Transport.prepared rs sts).2
      = rs.drop (s.allSent Transport.prepared rs sts).length := by
  induction sts generalizing s rs with
  | nil => rfl
  | cons st sts ih =>
    rw [after, ih, state_prepared, List.drop_drop, allSent_cons, List.length_append, state_prepared]

/-- A step shows the same if the replies are the same as far as it uses them. -/
theorem seen_prepared {st : Step} {n : Nat} (h : rs'.take n = rs.take n)
    (hn : (s.step Transport.prepared rs st).sent.length ≤ n) :
    (s.step Transport.prepared rs' st).seen = (s.step Transport.prepared rs st).seen := by
  apply seen_step_congr
  rw [sent_step] at hn
  cases hc : s.command? st with
  | none => rfl
  | some c =>
    rw [hc] at hn
    have hreply : ∀ rs : List (Except String Value),
        (Transport.prepared c rs).1 = (rs.take n).head?.getD (.error "no reply left") := by
      intro rs
      have hpos : n ≠ 0 := Nat.ne_of_gt hn
      rw [List.head?_take, if_neg hpos]
      cases rs <;> rfl
    show some (Transport.prepared c rs').1 = some (Transport.prepared c rs).1
    rw [hreply, hreply, h]

theorem steps_prepared {sts : List Step} {n : Nat} (h : rs'.take n = rs.take n)
    (hn : (s.allSent Transport.prepared rs sts).length ≤ n) :
    (s.steps Transport.prepared rs' sts).map Entry.seen
      = (s.steps Transport.prepared rs sts).map Entry.seen := by
  induction sts generalizing s rs rs' n with
  | nil => rfl
  | cons st sts ih =>
    rw [allSent_cons, List.length_append] at hn
    have hfirst := seen_prepared h (Nat.le_of_add_right_le hn)
    have hsent : (s.step Transport.prepared rs' st).sent = (s.step Transport.prepared rs st).sent :=
      congrArg Seen.sent hfirst
    have hrest : (s.step Transport.prepared rs' st).state.take
          (n - (s.step Transport.prepared rs st).sent.length)
        = (s.step Transport.prepared rs st).state.take
          (n - (s.step Transport.prepared rs st).sent.length) := by
      rw [state_prepared, state_prepared, hsent, ← List.drop_take, ← List.drop_take, h]
    have hsession : (s.step Transport.prepared rs' st).session
        = (s.step Transport.prepared rs st).session := congrArg Seen.session hfirst
    rw [steps, steps, List.map_cons, List.map_cons, hfirst, hsession,
      ih hrest (Nat.le_sub_of_add_le' hn)]

/-- A run with a step that fails, but for that step, is the run without it and its reply. -/
theorem seen_without {before : List Step} {st : Step} {f : Fault} (after : List Step)
    (h : ((s.after Transport.prepared rs before).1.step Transport.prepared
      (s.after Transport.prepared rs before).2 st).outcome = .error f) :
    let left := s.after Transport.prepared rs before
    let e := left.1.step Transport.prepared left.2 st
    let rs' := repliesWithout rs (s.allSent Transport.prepared rs before).length e.sent.length
    ((s.steps Transport.prepared rs (before ++ st :: after)).map Entry.seen).eraseIdx before.length
      = (s.stepsWithout Transport.prepared rs' before st after).map Entry.seen := by
  intro left e rs'
  -- the steps before it do not reach the place where the replies differ
  have hbefore : (s.steps Transport.prepared rs' before).map Entry.seen
      = (s.steps Transport.prepared rs before).map Entry.seen :=
    steps_prepared (take_repliesWithout rs _ _) (Nat.le_refl _)
  have hsession : (s.after Transport.prepared rs' before).1 = left.1 := by
    rw [session_after, hbefore, ← session_after]
  have hsent : s.allSent Transport.prepared rs' before
      = s.allSent Transport.prepared rs before := by
    rw [allSent, hbefore, allSent]
  have hstate : (s.after Transport.prepared rs' before).2 = e.state := by
    have hleft : left.2 = rs.drop (s.allSent Transport.prepared rs before).length :=
      after_prepared s rs before
    have he : e.state = left.2.drop e.sent.length := state_prepared left.1 left.2 st
    rw [after_prepared, hsent, drop_repliesWithout, he, hleft, List.drop_drop]
  have hlength : ((s.steps Transport.prepared rs before).map Entry.seen).length
      = before.length := by
    rw [List.length_map, length_steps]
  rw [steps_of_failure after h, stepsWithout, hsession, hstate, List.map_append, List.map_append,
    hbefore, ← hlength, List.eraseIdx_append_of_length_le (Nat.le_refl _), Nat.sub_self]
  rfl

-- the first reply cannot be decoded, the second step fails by itself and uses up none
example :
    let reply : Except String Value := .ok (.text "OK")
    ((steps Transport.prepared {} [.ok (.text "?"), reply]
        [.info "a", .setDefault (some 0), .cursorDelete "a" 7]).map Entry.seen).drop 2
      = (steps Transport.prepared {} [reply] [.cursorDelete "a" 7]).map Entry.seen := by
  rfl

/-! ## no trace -/

/-- What failures leave: nothing but iterations that have ended. -/
structure NoTrace (s : Session) : Prop where
  /-- a step sends at most one command, and if it fails, the default dialect, all requests and all
      other iterations are as before -/
  clean : ∀ {σ : Type} (t : Transport σ) (x : σ) (st : Step), FailsCleanly t s x st
  /-- a step that is given up ends the iteration that it is about, if it is about one -/
  givenUp : ∀ (left : Session) (st : Step), GivesUp left st (left.giveUp st)
  /-- the steps behind one that has failed are those of the session before it, once that is given
      up -/
  resumed : ∀ {σ : Type} (t : Transport σ) (x : σ) (before after : List Step) (st : Step)
      (f : Fault),
    ((s.after t x before).1.step t (s.after t x before).2 st).outcome = .error f →
    let left := s.after t x before
    let e := left.1.step t left.2 st
    s.steps t x (before ++ st :: after)
      = s.steps t x before ++ e :: (left.1.giveUp st).steps t e.state after
  /-- the other steps are those of the run without it and without the replies that it has used up -/
  removed : ∀ (rs : List (Except String Value)) (before after : List Step) (st : Step) (f : Fault),
    ((s.after Transport.prepared rs before).1.step Transport.prepared
      (s.after Transport.prepared rs before).2 st).outcome = .error f →
    let left := s.after Transport.prepared rs before
    let e := left.1.step Transport.prepared left.2 st
    let rs' := repliesWithout rs (s.allSent Transport.prepared rs before).length e.sent.length
    ((s.steps Transport.prepared rs (before ++ st :: after)).map Entry.seen).eraseIdx before.length
        = (s.stepsWithout Transport.prepared rs' before st after).map Entry.seen
      ∧ (st.ended? = none → s.stepsWithout Transport.prepared rs' before st after
          = s.steps Transport.prepared rs' (before ++ after))
  /-- a call that fails leaves the query as it was -/
  queryCall : ∀ (q q' : Query) (c : Query.Call) (f : Fault),
    (Query.call c).on q = (.error f, q') → q' = q
  /-- so calls that fail can be put anywhere among the calls on a query -/
  query : ∀ (q : Query) (cs ds : List Query.Call), Building.WithFailing Query.call q cs ds →
    (∀ default, (q.calls ds).compile default = (q.calls cs).compile default)
      ∧ (q.calls ds).shape = (q.calls cs).shape
  aggregationCall : ∀ (a a' : Aggregation) (c : Aggregation.Call) (f : Fault),
    (Aggregation.call c).on a = (.error f, a') → a' = a
  aggregation : ∀ (a : Aggregation) (cs ds : List Aggregation.Call),
    Building.WithFailing Aggregation.call a cs ds →
    (∀ default, (a.calls ds).compile default = (a.calls cs).compile default)
      ∧ (a.calls ds).shape = (a.calls cs).shape

theorem failures_leave_no_trace (s : Session) : NoTrace s where
  clean t x st := failsCleanly t s x st
  givenUp := givesUp_giveUp
  resumed _ _ _ after _ _ h := steps_of_failure after h
  removed rs before after st f h := ⟨seen_without after h, stepsWithout_eq _ s _ before after⟩
  queryCall _ _ _ _ := Query.checksFirst_call.left_of_error
  query := by
    intro q cs ds h
    have hq : q.calls ds = q.calls cs := Building.run_of_failing Query.checksFirst_call h
    rw [hq]
    exact ⟨fun _ => rfl, rfl⟩
  aggregationCall _ _ _ _ := Aggregation.checksFirst_call.left_of_error
  aggregation := by
    intro a cs ds h
    have ha : a.calls ds = a.calls cs := Building.run_of_failing Aggregation.checksFirst_call h
    rw [ha]
    exact ⟨fun _ => rfl, rfl⟩

end Session

end FullText

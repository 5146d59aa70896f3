import FullText.Proofs.Cursor.Grammar
import FullText.Proofs.Cursor.Trace
import Mathlib.Data.List.Chain

/-!
# Cursors are used safely, whatever the other side replies

* `CursorSafe`              what an iteration may send, and what it gives for the replies;
* `Session.follows_step`    a move does what the last observation of the iteration allows;
* `Session.chain_play`      so does every later move of a run;
* `Session.cursor_safe`     an iteration that waits for its first batch is safe in every run.

The transport is arbitrary: it may reply to any command with any value or fail.  An iteration may be
moved after its end, and other iterations of the session may be moved in between.
-/

namespace FullText

variable {σ : Type}

/-- what a move asks about a cursor that can still be read -/
def Move.demand (index : String) (count : Option Int) (cursor : Int) : Move → CursorCommand
  | .next => .read (.text index) cursor (count.map .int)
  | .close => .delete (.text index) cursor

namespace Observation

/-- the commands that were sent read as these -/
def Says (o : Observation σ) (cs : List CursorCommand) : Prop :=
  o.sent.map CursorCommand.ofTokens? = cs.map some

/-- There was one reply for each command, and the outcome is what the replies make of the move. -/
structure Faithful (o : Observation σ) : Prop where
  heard : o.heard.toList.length = o.sent.length
  outcome : o.outcome = o.move.outcome o.heard

/-- what may be sent after `o`: a command for the cursor of the batch that `o` has given, if it can
    still be read, and else nothing -/
def Follows (index : String) (count : Option Int) (o o' : Observation σ) : Prop :=
  o'.Says (o.cursor?.map fun c => o'.move.demand index count c).toList

end Observation

/-- the cursors of all batches that were given, in order -/
def cursorsOf (os : List (Observation σ)) : List Int :=
  (os.filterMap Observation.batch?).map fun b => b.cursor.getD 0

/-- the readings of all commands that were sent, in order -/
def commandsOf (os : List (Observation σ)) : List (Option CursorCommand) :=
  (os.flatMap fun o => o.sent).map CursorCommand.ofTokens?

/-- what an iteration over `index` sends in a run, and what it gives for the replies -/
structure CursorSafe (index : String) (count : Option Int) (opening : AggregateReading)
    (os : List (Observation σ)) : Prop where
  /-- the first `next` opens a cursor, and a `close` before it sends nothing -/
  opens : ∀ o ∈ os.head?,
    o.Says (match o.move with
      | .next => [.aggregate (.text index) opening]
      | .close => [])
  /-- then a `next` reads, and a `close` deletes, the cursor of the batch just given, and only if
      that is not zero -/
  follows : os.IsChain (Observation.Follows index count)
  /-- batches are the decoded replies, and failures are those of the transport or the decoder -/
  faithful : ∀ o ∈ os, o.Faithful
  /-- after the end, a failure or a `close`, nothing is sent and no batch is given -/
  ends : os.Pairwise fun o o' => o.batch? = none → o'.sent = [] ∧ o'.batch? = none
  /-- in all: one opening, then reads, then at most one release, each for the cursor of its own
      batch in the order of the batches, and none of them zero -/
  order : commandsOf os = [] ∨ ∃ (ids : List Int) (released : Option Int),
    commandsOf os = (.aggregate (.text index) opening
        :: (ids.map (Move.demand index count · .next)
          ++ released.toList.map (Move.demand index count · .close))).map some
      ∧ ids ++ released.toList <+: cursorsOf os ∧ 0 ∉ ids ++ released.toList

/-! ## observations that follow one another -/

namespace Observation

variable {index : String} {count : Option Int} {o o' : Observation σ}

theorem Says.sent_eq_nil (h : o.Says []) : o.sent = [] := List.map_eq_nil_iff.mp h

theorem Faithful.batch?_of_sent_nil (h : o.Faithful) (hs : o.sent = []) : o.batch? = none := by
  have hn : o.heard = none := by
    have hl := h.heard
    rw [hs] at hl
    cases hh : o.heard with
    | none => rfl
    | some r =>
      rw [hh] at hl
      cases hl
  rw [batch?, h.outcome, hn]
  cases o.move <;> rfl

theorem Faithful.batch?_of_close (h : o.Faithful) (hm : o.move = .close) : o.batch? = none := by
  rw [batch?, h.outcome, hm]
  cases o.heard with
  | none => rfl
  | some r =>
    show Session.batchOf (((r.mapError Fault.connection).bind Reply.isOk).map _) = none
    cases (r.mapError Fault.connection).bind Reply.isOk <;> rfl

theorem Follows.of_batch?_none (h : o.Follows index count o') (hf : o'.Faithful)
    (hb : o.batch? = none) : o'.sent = [] ∧ o'.batch? = none := by
  unfold Follows at h
  rw [cursor?_of_batch?_none hb] at h
  have hs : o'.sent = [] := Says.sent_eq_nil h
  exact ⟨hs, hf.batch?_of_sent_nil hs⟩

end Observation

section
variable {index : String} {count : Option Int} {o : Observation σ} {os : List (Observation σ)}

/-- Nothing is sent any more, and no batch is given, once there was no batch. -/
theorem silent_of_chain (h : List.IsChain (Observation.Follows index count) (o :: os))
    (hf : ∀ o' ∈ os, o'.Faithful) (hb : o.batch? = none) :
    ∀ o' ∈ os, o'.sent = [] ∧ o'.batch? = none := by
  induction os generalizing o with
  | nil => exact fun o' ho => absurd ho List.not_mem_nil
  | cons o₁ os ih =>
    obtain ⟨h₁, hc⟩ := List.isChain_cons_cons.mp h
    have hs := h₁.of_batch?_none (hf o₁ List.mem_cons_self) hb
    intro o' ho
    rcases List.mem_cons.mp ho with rfl | ho
    · exact hs
    · exact ih hc (fun o' ho => hf o' (List.mem_cons_of_mem _ ho)) hs.2 o' ho

theorem ends_of_chain (h : List.IsChain (Observation.Follows index count) os)
    (hf : ∀ o ∈ os, o.Faithful) :
    os.Pairwise fun o o' => o.batch? = none → o'.sent = [] ∧ o'.batch? = none := by
  induction os with
  | nil => exact .nil
  | cons o os ih =>
    have hfs : ∀ o' ∈ os, o'.Faithful := fun o' ho => hf o' (List.mem_cons_of_mem _ ho)
    refine List.pairwise_cons.mpr ⟨fun o' ho hb => silent_of_chain h hfs hb o' ho, ?_⟩
    exact ih (List.isChain_cons.mp h).2 hfs

theorem commandsOf_cons (o : Observation σ) (os : List (Observation σ)) :
    commandsOf (o :: os) = o.sent.map CursorCommand.ofTokens? ++ commandsOf os := by
  rw [commandsOf, List.flatMap_cons, List.map_append]
  rfl

theorem commandsOf_eq_nil (h : ∀ o ∈ os, o.sent = []) : commandsOf os = [] := by
  rw [commandsOf, List.map_eq_nil_iff, List.flatMap_eq_nil_iff]
  exact h

theorem cursorsOf_cons {b : Batch} (hb : o.batch? = some b) :
    cursorsOf (o :: os) = b.cursor.getD 0 :: cursorsOf os := by
  rw [cursorsOf, List.filterMap_cons_some hb]
  rfl

/-- The commands after an observation are reads and at most one release, for the cursors of the
    batches from that observation on. -/
theorem order_of_chain (h : List.IsChain (Observation.Follows index count) (o :: os))
    (hf : ∀ o' ∈ os, o'.Faithful) :
    ∃ (ids : List Int) (released : Option Int),
      commandsOf os = (ids.map (Move.demand index count · .next)
        ++ released.toList.map (Move.demand index count · .close)).map some
      ∧ ids ++ released.toList <+: cursorsOf (o :: os) ∧ 0 ∉ ids ++ released.toList := by
  induction os generalizing o with
  | nil => exact ⟨[], none, rfl, List.nil_prefix, List.not_mem_nil⟩
  | cons o₁ os ih =>
    obtain ⟨h₁, hc⟩ := List.isChain_cons_cons.mp h
    have hfs : ∀ o' ∈ os, o'.Faithful := fun o' ho => hf o' (List.mem_cons_of_mem _ ho)
    have hf₁ : o₁.Faithful := hf o₁ List.mem_cons_self
    cases hb : o.batch? with
    | none =>
      have hs := silent_of_chain h hf hb
      exact ⟨[], none, commandsOf_eq_nil fun o' ho => (hs o' ho).1, List.nil_prefix,
        List.not_mem_nil⟩
    | some b =>
      rw [cursorsOf_cons hb, commandsOf_cons]
      unfold Observation.Follows Observation.Says at h₁
      rw [h₁]
      cases hcur : o.cursor? with
      | none =>
        -- the last batch: its cursor is zero
        have hs₁ : o₁.sent = [] := by
          rw [hcur] at h₁
          exact Observation.Says.sent_eq_nil h₁
        have hb₁ := hf₁.batch?_of_sent_nil hs₁
        have hs := silent_of_chain hc hfs hb₁
        exact ⟨[], none, commandsOf_eq_nil fun o' ho => (hs o' ho).1, List.nil_prefix,
          List.not_mem_nil⟩
      | some c =>
        have hc0 : c ≠ 0 := Observation.cursor?_ne_zero hcur
        rw [Observation.cursor_of_cursor? hb hcur]
        cases hm : o₁.move with
        | next =>
          obtain ⟨ids, released, he, hp, hz⟩ := ih hc hfs
          refine ⟨c :: ids, released, ?_, List.cons_prefix_cons.mpr ⟨rfl, hp⟩,
            List.not_mem_cons_of_ne_of_not_mem hc0.symm hz⟩
          rw [he]
          rfl
        | close =>
          have hs := silent_of_chain hc hfs (hf₁.batch?_of_close hm)
          refine ⟨[], some c, ?_, List.cons_prefix_cons.mpr ⟨rfl, List.nil_prefix⟩,
            List.not_mem_cons_of_ne_of_not_mem hc0.symm List.not_mem_nil⟩
          rw [commandsOf_eq_nil fun o' ho => (hs o' ho).1]
          rfl

theorem CursorSafe.nil (index : String) (count : Option Int) (opening : AggregateReading) :
    CursorSafe index count opening ([] : List (Observation σ)) where
  opens := fun o ho => absurd ho (Option.not_mem_none o)
  follows := .nil
  faithful := fun _ ho => absurd ho List.not_mem_nil
  ends := .nil
  order := .inl rfl

/-- An iteration whose first move opens a cursor, or gives up, and whose later moves follow one
    another, is safe. -/
theorem CursorSafe.of_chain {opening : AggregateReading}
    (ho : o.Says (match o.move with
      | .next => [.aggregate (.text index) opening]
      | .close => []))
    (h : List.IsChain (Observation.Follows index count) (o :: os)) (hf : o.Faithful)
    (hfs : ∀ o' ∈ os, o'.Faithful) : CursorSafe index count opening (o :: os) := by
  have hall : ∀ o' ∈ o :: os, o'.Faithful := by
    intro o' hm
    rcases List.mem_cons.mp hm with rfl | hm
    · exact hf
    · exact hfs o' hm
  refine ⟨fun o' hm => ?_, h, hall, ends_of_chain h hall, ?_⟩
  · cases hm
    exact ho
  · rw [commandsOf_cons, ho]
    cases hm : o.move with
    | next =>
      obtain ⟨ids, released, he, hp, hz⟩ := order_of_chain h hfs
      refine .inr ⟨ids, released, ?_, hp, hz⟩
      rw [he]
      rfl
    | close =>
      have hs := silent_of_chain h hfs (hf.batch?_of_close hm)
      left
      rw [commandsOf_eq_nil fun o' hm => (hs o' hm).1]
      rfl

end

/-! ## runs -/

namespace Session

/-- the iteration stands where an observation has left it -/
def Stands (s : Session) (name index : String) (count : Option Int) (o : Observation σ) : Prop :=
  s.iterationOf name = .ok ⟨index, count, .after o.outcome⟩

theorem ready_after (s : Session) (index : String) (count : Option Int)
    (outcome : Except Fault Answer) : s.Ready ⟨index, count, .after outcome⟩ := by
  intro p hp
  unfold Progress.after at hp
  cases hb : batchOf outcome with
  | none =>
    rw [hb] at hp
    cases hp
  | some b =>
    rw [hb] at hp
    cases hp

variable {s : Session} {name index : String} {count : Option Int} {o : Observation σ}

theorem faithful_observation {it : Iteration} (t : Transport σ) (x : σ) (m : Move)
    (h : s.iterationOf name = .ok it) (hr : s.Ready it) : (s.observation t x name m).Faithful := by
  rw [observation_eq t x m h hr]
  refine ⟨?_, rfl⟩
  cases s.commandOf name it m <;> rfl

theorem follows_step (t : Transport σ) (x : σ) (m : Move) (h : s.Stands name index count o) :
    o.Follows index count (s.observation t x name m)
      ∧ (s.step t x (m.step name)).session.Stands name index count (s.observation t x name m) := by
  have hr := s.ready_after index count o.outcome
  refine ⟨?_, iterationOf_step t x m h hr⟩
  rw [observation_eq t x m h hr, commandOf_after]
  unfold Observation.Follows Observation.Says
  cases o.cursor? with
  | none => rfl
  | some c =>
    cases m with
    | next => exact congrArg (List.cons · []) (CursorCommand.ofTokens?_cursorRead index c count)
    | close => exact congrArg (List.cons · []) (CursorCommand.ofTokens?_cursorDelete index c)

/-- In a run, each move on an iteration follows the move on it before. -/
theorem chain_play (t : Transport σ) (x : σ) (run : List (String × Move))
    (h : s.Stands name index count o) :
    List.IsChain (Observation.Follows index count) (o :: (s.play t x run).of name)
      ∧ ∀ o' ∈ (s.play t x run).of name, o'.Faithful := by
  induction run generalizing s x o with
  | nil => exact ⟨List.isChain_singleton o, fun o' ho => absurd ho List.not_mem_nil⟩
  | cons mv run ih =>
    obtain ⟨n, m⟩ := mv
    by_cases hn : n = name
    · subst hn
      obtain ⟨hf, hs⟩ := follows_step t x m h
      obtain ⟨hc, hfs⟩ := ih (s.step t x (m.step n)).state hs
      rw [of_play_self]
      refine ⟨List.isChain_cons_cons.mpr ⟨hf, hc⟩, fun o' ho => ?_⟩
      rcases List.mem_cons.mp ho with rfl | ho
      · exact faithful_observation t x m h (s.ready_after index count o.outcome)
      · exact hfs o' ho
    · rw [of_play_other t s x m run hn]
      refine ih (s.step t x (m.step n)).state ?_
      unfold Stands
      rw [iterationOf_move s t x m (Ne.symm hn)]
      exact h

theorem opens_step {p : Nat} {a : Aggregation} (t : Transport σ) (x : σ) (m : Move)
    (h : s.iterationOf name = .ok ⟨index, count, .waiting p⟩) (ha : s.aggregationAt p = some a) :
    (s.observation t x name m).Says (match m with
        | .next => [.aggregate (.text index) (a.opening count s.default)]
        | .close => [])
      ∧ (s.observation t x name m).Faithful
      ∧ (s.step t x (m.step name)).session.Stands name index count (s.observation t x name m) := by
  have hr : s.Ready ⟨index, count, .waiting p⟩ := by
    intro p' hp
    cases hp
    exact ⟨a, ha⟩
  refine ⟨?_, faithful_observation t x m h hr, iterationOf_step t x m h hr⟩
  rw [observation_eq t x m h hr, commandOf_waiting name index count ha]
  cases m with
  | close => rfl
  | next =>
    have hc := CursorCommand.ofTokens?_aggregate index (a.withCursor count) s.default
    rw [Aggregation.reading_withCursor] at hc
    exact congrArg (List.cons · []) hc

/-- Whatever the other side replies, and whatever other iterations are moved in between, an
    iteration that waits for its first batch uses its cursors safely. -/
theorem cursor_safe {p : Nat} {a : Aggregation} (t : Transport σ) (x : σ)
    (run : List (String × Move)) (h : s.iterationOf name = .ok ⟨index, count, .waiting p⟩)
    (ha : s.aggregationAt p = some a) :
    CursorSafe index count (a.opening count s.default) ((s.play t x run).of name) := by
  induction run generalizing s x with
  | nil => exact .nil index count _
  | cons mv run ih =>
    obtain ⟨n, m⟩ := mv
    by_cases hn : n = name
    · subst hn
      obtain ⟨ho, hf, hs⟩ := opens_step t x m h ha
      obtain ⟨hc, hfs⟩ := chain_play t (s.step t x (m.step n)).state run hs
      rw [of_play_self]
      exact .of_chain ho hc hf hfs
    · rw [of_play_other t s x m run hn, ← default_move s t x n m]
      refine ih (s.step t x (m.step n)).state ?_ ?_
      · rw [iterationOf_move s t x m (Ne.symm hn)]
        exact h
      · rw [aggregationAt_move]
        exact ha

/-- a session with one request, and two iterations that wait with it -/
def waiting : Session :=
  (((({} : Session).bindNew "r" (.aggregation { text := "WITHCURSOR" })).setIteration "a"
    ⟨"idx", some 2, .waiting 0⟩).setIteration "b" ⟨"idx", none, .waiting 0⟩)

/-- a batch without rows, a batch with a row for another iteration, and a cursor that has changed -/
def changingReplies : List (Except String Value) :=
  [.ok (.array [.array [.int 5], .int 7]),
    .ok (.tuple [.array [.int 1, .array [.text "n", .text "1"]], .int 0]),
    .ok (.array [.array [.int 5], .int 8]), .error "connection lost"]

theorem cursor_safe_changingReplies :
    CursorSafe "idx" (some 2) (({ text := "WITHCURSOR" } : Aggregation).opening (some 2) none)
        ((waiting.play Transport.prepared changingReplies
          [("a", .next), ("b", .next), ("a", .next), ("a", .close), ("a", .next)]).of "a")
      ∧ commandsOf ((waiting.play Transport.prepared changingReplies
          [("a", .next), ("b", .next), ("a", .next), ("a", .close), ("a", .next)]).of "a")
        = [some (.aggregate (.text "idx")
              (({ text := "WITHCURSOR" } : Aggregation).opening (some 2) none)),
            some (.read (.text "idx") 7 (some (.int 2))), some (.delete (.text "idx") 8)] :=
  ⟨cursor_safe (s := waiting) Transport.prepared changingReplies _ rfl rfl, by rfl⟩

end Session

end FullText

import FullText.Proofs.Building.Settings
import FullText.Proofs.Session.Commands
import FullText.Proofs.Session.Drafts
import FullText.Proofs.Session.Grammar

/-!
# The dialect rule

* `Dialect.Ruled`            the clause that goes with a dialect of one's own and a default one;
* `Session.dialectOf?`       the dialect of its own that goes before the default one in a step;
* `Session.carries_of_mem`     the clause of a command that is sent names the one that goes first;
* `Session.dialectSet?`      the dialect that a step sets in the request at a place;
* `Session.dialectAt_after`  a request has the last dialect that was set in it, and no other;
* `Session.Reachable`        the sessions that any steps lead to, those that fail among them;
* `DialectRule`              what holds of the dialects in a session, and of those in its commands;
* `Session.dialect_rule`     it holds in all reachable sessions.

A search, a plain aggregation, the start of an iteration and both ways to explain a text come to
their clause on ways of their own, so each is looked at by itself.
-/

namespace FullText

variable {σ : Type}

/-! ## the rule -/

/-- The clause names a dialect that is positive: one's own, if there is one, and else the default
    one.  If that is not positive or there is none, there is no clause. -/
def Dialect.Ruled (own default : Option Int) (clause : Option Token) : Prop :=
  ∀ v, clause = some v
    ↔ ∃ d, 1 ≤ d ∧ v = .int d ∧ (own = some d ∨ own = none ∧ default = some d)

theorem Dialect.effective_eq_some_iff {own default : Option Int} {d : Int} :
    effective own default = some d ↔ own = some d ∨ own = none ∧ default = some d := by
  cases own <;> simp [effective]

theorem Dialect.reading_eq_some_iff {dialect : Option Int} {v : Token} :
    reading dialect = some v ↔ ∃ d, 1 ≤ d ∧ v = .int d ∧ dialect = some d := by
  unfold reading
  rw [Option.map_eq_some_iff]
  constructor
  · rintro ⟨d, hd, rfl⟩
    obtain ⟨hd, hp⟩ := Option.filter_eq_some_iff.mp hd
    exact ⟨d, of_decide_eq_true hp, rfl, hd⟩
  · rintro ⟨d, hp, rfl, hd⟩
    exact ⟨d, Option.filter_eq_some_iff.mpr ⟨hd, decide_eq_true hp⟩, rfl⟩

theorem Dialect.ruled_reading (own default : Option Int) :
    Ruled own default (reading (effective own default)) := by
  intro v
  simp only [reading_eq_some_iff, effective_eq_some_iff]

/-- the dialect of its own that a request has -/
def Draft.dialect : Draft → Option Int
  | .query q => q.dialect
  | .aggregation a => a.dialect

/-- the tokens of a request -/
def Draft.compile : Draft → (default : Option Int) → Except Fault (List Token)
  | .query q, default => q.compile default
  | .aggregation a, default => .ok (a.compile default)

/-- the clause of a dialect among the tokens of a request, none if they cannot be read -/
def Draft.clauseIn? : Draft → List Token → Option (Option Token)
  | .query _, ts => (SearchReading.read? ts).map (·.dialect)
  | .aggregation _, ts => (AggregateReading.read? ts).map (·.dialect)

theorem Draft.ruled_compile {d : Draft} {default : Option Int} {ts : List Token}
    (h : d.compile default = .ok ts) :
    ∃ clause, d.clauseIn? ts = some clause ∧ Dialect.Ruled d.dialect default clause := by
  cases d with
  | query q =>
    obtain ⟨fs, -, hr⟩ := Reader.search_compile h
    refine ⟨(q.readingWith default fs).dialect, ?_, Dialect.ruled_reading q.dialect default⟩
    rw [clauseIn?, SearchReading.read?, Reader.whole, StateT.run, hr]
    rfl
  | aggregation a =>
    cases h
    refine ⟨(a.reading default).dialect, ?_, Dialect.ruled_reading a.dialect default⟩
    rw [clauseIn?, Aggregation.read?_compile]
    rfl

/-! ## the calls that set a dialect -/

/-- the dialect that a call sets in a request, if it is one on requests of that kind and is not
    refused -/
def Draft.sets? : Draft → Draft.Call → Option Int
  | .query _, .query (.dialect d) => (Dialect.check d).toOption
  | .aggregation _, .aggregation (.dialect d) => (Dialect.check d).toOption
  | _, _ => none

theorem Query.dialect_after_other {c : Call} (q : Query) (h : c.setting ≠ .dialect) :
    (Building.after call q c).dialect = q.dialect := by
  have hsame := congrArg Query.dialect (q.only_other c .dialect h.symm)
  exact hsame

theorem Aggregation.dialect_after_other {c : Call} (a : Aggregation) (h : c.setting ≠ .dialect) :
    (Building.after call a c).dialect = a.dialect := by
  have hsame := congrArg Aggregation.dialect (a.only_other c .dialect h.symm)
  exact hsame

theorem Draft.dialect_afterCall (d : Draft) (c : Draft.Call) :
    (d.afterCall c).dialect = (d.sets? c).or d.dialect := by
  cases d with
  | query q =>
    cases c with
    | aggregation c => rfl
    | query c =>
      show (Building.after Query.call q c).dialect = _
      cases c with
      | dialect e =>
        rw [Building.after, Query.on_dialect, sets?]
        cases Dialect.check e <;> rfl
      | _ => exact q.dialect_after_other fun h => by cases h
  | aggregation a =>
    cases c with
    | query c => rfl
    | aggregation c =>
      show (Building.after Aggregation.call a c).dialect = _
      cases c with
      | dialect e =>
        rw [Building.after, Aggregation.on_dialect, sets?]
        cases Dialect.check e <;> rfl
      | _ => exact a.dialect_after_other fun h => by cases h

theorem Dialect.check_ne_zero (d : Int) : (check d).toOption ≠ some 0 := by
  intro h
  unfold check at h
  split at h
  next => cases h
  next hd => exact hd (Option.some.inj h)

theorem Draft.sets?_ne_zero (d : Draft) (c : Draft.Call) : d.sets? c ≠ some 0 := by
  unfold sets?
  split
  next => exact Dialect.check_ne_zero _
  next => exact Dialect.check_ne_zero _
  next => nofun

theorem Draft.dialect_afterCall_ne_zero {d : Draft} (c : Draft.Call) (h : d.dialect ≠ some 0) :
    (d.afterCall c).dialect ≠ some 0 := by
  rw [dialect_afterCall]
  cases hs : d.sets? c with
  | none => exact h
  | some e =>
    have he := d.sets?_ne_zero c
    rw [hs] at he
    exact he

/-- A request starts without a dialect, and no call sets zero. -/
theorem Draft.dialect_built_ne_zero {st : Session.Step} {d : Draft} (h : st.built? = some d) :
    d.dialect ≠ some 0 := by
  cases st with
  | query name text cs =>
    obtain ⟨q, hq, rfl⟩ := Option.map_eq_some_iff.mp h
    rw [← Building.run_of_build (Outcome.toOption_eq_some.mp hq)]
    exact Building.run_induction (P := fun q => (Draft.query q).dialect ≠ some 0)
      (fun _ c hr => dialect_afterCall_ne_zero (.query c) hr) (fun hn => by cases hn) cs
  | aggregation name text cs =>
    obtain ⟨a, ha, rfl⟩ := Option.map_eq_some_iff.mp h
    rw [← Building.run_of_build (Outcome.toOption_eq_some.mp ha)]
    exact Building.run_induction (P := fun a => (Draft.aggregation a).dialect ≠ some 0)
      (fun _ c hr => dialect_afterCall_ne_zero (.aggregation c) hr) (fun hn => by cases hn) cs
  | callQuery | callAggregation | compile | setDefault | search | aggregate | cursorRead
  | cursorDelete | info | explain | explainLines | iterate | next | close => cases h

namespace Session

/-! ## dialects that requests have -/

/-- The dialect that a step sets in the request at a place. -/
def dialectSet? (s : Session) (p : Nat) (st : Step) : Option Int := do
  (← s.drafts[p]?).sets? (← s.callAt? p st)

/-- the dialects that the steps of a run set in the request at a place -/
def dialectsSet (t : Transport σ) (s : Session) (x : σ) (p : Nat) : List Step → List Int
  | [] => []
  | st :: sts =>
    let e := s.step t x st
    (s.dialectSet? p st).toList ++ e.session.dialectsSet t e.state p sts

theorem dialectAt_step {s : Session} {p : Nat} {d : Draft} (t : Transport σ) (x : σ) (st : Step)
    (h : s.drafts[p]? = some d) :
    ∃ d', (s.step t x st).session.drafts[p]? = some d'
      ∧ d'.dialect = (s.dialectSet? p st).or d.dialect := by
  refine ⟨_, draftAt_step t x st h, ?_⟩
  rw [dialectSet?, h]
  cases s.callAt? p st with
  | none => rfl
  | some c => exact d.dialect_afterCall c

/-- A request has the last dialect that was set in it, and what it had before if none was. -/
theorem dialectAt_after {s : Session} {p : Nat} {d : Draft} (t : Transport σ) (x : σ)
    (sts : List Step) (h : s.drafts[p]? = some d) :
    ∃ d', (s.after t x sts).1.drafts[p]? = some d'
      ∧ d'.dialect = (s.dialectsSet t x p sts).getLast?.or d.dialect := by
  induction sts generalizing s x d with
  | nil => exact ⟨d, h, rfl⟩
  | cons st sts ih =>
    obtain ⟨d₁, h₁, hd₁⟩ := dialectAt_step t x st h
    obtain ⟨d₂, h₂, hd₂⟩ := ih _ h₁
    refine ⟨d₂, h₂, ?_⟩
    rw [hd₂, hd₁, dialectsSet, List.getLast?_append, Option.or_assoc]
    cases s.dialectSet? p st <;> rfl

/-- no request has a dialect of zero, and it is not the default one -/
structure NonZero (s : Session) : Prop where
  default : s.default ≠ some 0
  requests : ∀ (p : Nat) (d : Draft), s.drafts[p]? = some d → d.dialect ≠ some 0

theorem nonZero_create {default : Option Int} {s : Session} (h : create default = .ok s) :
    NonZero s := by
  unfold create at h
  split at h
  next => cases h
  next hd =>
    cases h
    refine ⟨hd, fun p d hp => ?_⟩
    rw [List.getElem?_nil] at hp
    cases hp

theorem defaultAfter_ne_zero {d : Option Int} (st : Step) (h : d ≠ some 0) :
    st.defaultAfter d ≠ some 0 := by
  unfold Step.defaultAfter
  split
  next => nofun
  next e =>
    split
    next => exact h
    next he => exact fun hz => he (Option.some.inj hz)
  next => exact h

theorem nonZero_step {s : Session} (t : Transport σ) (x : σ) (st : Step) (h : NonZero s) :
    NonZero (s.step t x st).session where
  default := by
    rw [default_step]
    exact defaultAfter_ne_zero st h.default
  requests := by
    intro p d hd
    cases hp : s.drafts[p]? with
    | none => exact Draft.dialect_built_ne_zero (built_of_step t x st hp hd)
    | some d₀ =>
      rw [draftAt_step t x st hp] at hd
      cases hd
      have h₀ := h.requests p d₀ hp
      cases s.callAt? p st with
      | none => exact h₀
      | some c => exact Draft.dialect_afterCall_ne_zero c h₀

/-! ## commands that are sent -/

/-- The dialect of its own that goes before the default one in a step: that of the request that is
    run, or the one that the step gives; none at all for a step that runs nothing. -/
def dialectOf? (s : Session) : Step → Option (Option Int)
  | .search _ name => (s.queryOf name).toOption.map (·.dialect)
  | .aggregate _ name => (s.aggregationOf name).toOption.map (·.dialect)
  | .explain _ _ dialect | .explainLines _ _ dialect => some dialect
  | .next g =>
    match s.iterationOf g with
    | .ok ⟨_, _, .waiting p⟩ => (s.aggregationAt p).map (·.dialect)
    | _ => none
  | _ => none

/-- the command can be read, and if it is one that may name a dialect, it follows the rule -/
def FollowsRule (s : Session) (st : Step) (c : List Token) : Prop :=
  ∃ r, CommandReading.ofTokens? c = some r ∧ ∀ clause, r.dialect? = some clause →
    ∃ own, s.dialectOf? st = some own ∧ Dialect.Ruled own s.default clause

/-- the command can be read, and it has a place for a clause if the step has a dialect to go before
    the default one; then the clause names the one that goes first -/
def Carries (s : Session) (st : Step) (c : List Token) : Prop :=
  ∃ r, CommandReading.ofTokens? c = some r
    ∧ r.dialect? = (s.dialectOf? st).map fun own =>
      Dialect.reading (Dialect.effective own s.default)

theorem carries_asked {s : Session} {st : Step} {c : List Token}
    (h : s.request? st = some (.ok c)) : s.Carries st c := by
  cases st with
  | search index name =>
    obtain ⟨q, hq, hc⟩ := Outcome.bind_eq_ok.mp (Option.some.inj h)
    obtain ⟨r, hr, hd⟩ := CommandReading.ofTokens?_search hc
    refine ⟨_, hr, ?_⟩
    rw [dialectOf?, hq]
    exact congrArg some hd
  | aggregate index name =>
    obtain ⟨a, ha, hc⟩ := Outcome.bind_eq_ok.mp (Option.some.inj h)
    cases hc
    refine ⟨_, CommandReading.ofTokens?_aggregate index a s.default, ?_⟩
    rw [dialectOf?, ha]
    rfl
  | cursorRead index cursor count =>
    cases h
    exact ⟨_, CommandReading.ofTokens?_cursorRead index cursor count, rfl⟩
  | cursorDelete index cursor =>
    cases h
    exact ⟨_, CommandReading.ofTokens?_cursorDelete index cursor, rfl⟩
  | info index =>
    cases h
    exact ⟨_, CommandReading.ofTokens?_info index, rfl⟩
  | explain index text dialect =>
    cases h
    exact ⟨_, CommandReading.ofTokens?_explain false index text _, rfl⟩
  | explainLines index text dialect =>
    cases h
    exact ⟨_, CommandReading.ofTokens?_explain true index text _, rfl⟩
  | query | aggregation | callQuery | callAggregation | compile | setDefault | iterate | next
  | close => cases h

theorem carries_of_mem {s : Session} {st : Step} {c : List Token} (t : Transport σ) (x : σ)
    (h : c ∈ (s.step t x st).sent) : s.Carries st c := by
  cases sends_of_mem t x h with
  | asked h => exact carries_asked h
  | @opened g index count p a hit ha =>
    -- the cursor is added to a copy of the request, whose dialect is the same
    have hr := CommandReading.ofTokens?_aggregate index (a.withCursor count) s.default
    rw [Aggregation.reading_withCursor] at hr
    refine ⟨_, hr, ?_⟩
    simp only [dialectOf?, hit, ha, Option.map_some]
    rfl
  | @moved g index count cursor hit m =>
    obtain ⟨r, hr, hd⟩ := CommandReading.ofTokens?_move m index count cursor
    refine ⟨r, hr, ?_⟩
    cases m with
    | next => simp only [hd, Move.step, dialectOf?, hit, Option.map_none]
    | close => simp only [hd, Move.step, dialectOf?, Option.map_none]
  | @dropped g index index' name count count' cursor hit =>
    exact ⟨_, CommandReading.ofTokens?_cursorDelete index cursor, rfl⟩

theorem followsRule_of_mem {s : Session} {st : Step} {c : List Token} (t : Transport σ) (x : σ)
    (h : c ∈ (s.step t x st).sent) : s.FollowsRule st c := by
  obtain ⟨r, hr, hd⟩ := carries_of_mem t x h
  refine ⟨r, hr, fun clause hclause => ?_⟩
  obtain ⟨own, ho, rfl⟩ := Option.map_eq_some_iff.mp (hd.symm.trans hclause)
  exact ⟨own, ho, Dialect.ruled_reading own s.default⟩

/-! ## whole sessions -/

/-- the steps that send something or compile a request; those on iterations are among them -/
def Step.Asks : Step → Prop
  | .query .. | .aggregation .. | .callQuery .. | .callAggregation .. | .setDefault _ => False
  | _ => True

theorem requests_of_asks {s : Session} {st : Step} (t : Transport σ) (x : σ) (h : st.Asks) :
    (s.step t x st).session.requests = s.requests := by
  cases hi : st.iteration? with
  | some i => exact requests_of_iteration t x hi
  | none =>
    rw [session_of_request t x hi]
    cases st with
    | query | aggregation | callQuery | callAggregation | setDefault => exact h.elim
    | _ => rfl

theorem requests_after_asks {s : Session} (t : Transport σ) (x : σ) {sts : List Step}
    (h : ∀ st ∈ sts, st.Asks) : (s.after t x sts).1.requests = s.requests := by
  induction sts generalizing s x with
  | nil => rfl
  | cons st sts ih =>
    obtain ⟨hst, hsts⟩ := List.forall_mem_cons.mp h
    exact (ih _ hsts).trans (requests_of_asks t x hst)

/-- the sessions that any steps lead to, with what has become of the other side -/
inductive Reachable (t : Transport σ) : Session → σ → Prop where
  | created {default : Option Int} {s : Session} (h : create default = .ok s) (x : σ) :
    Reachable t s x
  | step {s : Session} {x : σ} (h : Reachable t s x) (st : Step) :
    Reachable t (s.step t x st).session (s.step t x st).state

theorem Reachable.after {t : Transport σ} {s : Session} {x : σ} (h : Reachable t s x)
    (sts : List Step) : Reachable t (s.after t x sts).1 (s.after t x sts).2 := by
  induction sts generalizing s x with
  | nil => exact h
  | cons st sts ih => exact ih (h.step st)

theorem Reachable.nonZero {t : Transport σ} {s : Session} {x : σ} (h : Reachable t s x) :
    NonZero s := by
  induction h with
  | created h x => exact nonZero_create h
  | step _ st ih => exact nonZero_step t _ st ih

/-- what holds of the dialects of a session, of those that it sends, and of those it will have -/
structure DialectRule (t : Transport σ) (s : Session) (x : σ) : Prop where
  nonZero : NonZero s
  /-- whatever step is next, what it sends follows the rule with the default dialect of now -/
  sent : ∀ st c, c ∈ (s.step t x st).sent → s.FollowsRule st c
  /-- a request follows it whatever default dialect it is compiled with -/
  compiled : ∀ (p : Nat) (d : Draft), s.drafts[p]? = some d →
    ∀ default ts, d.compile default = .ok ts →
      ∃ clause, d.clauseIn? ts = some clause ∧ Dialect.Ruled d.dialect default clause
  /-- the dialect of a request is the last one that a call has set in it, whatever was sent and
      whatever default dialects there have been -/
  kept : ∀ (p : Nat) (d : Draft), s.drafts[p]? = some d → ∀ sts,
    ∃ d', (s.after t x sts).1.drafts[p]? = some d'
      ∧ d'.dialect = (s.dialectsSet t x p sts).getLast?.or d.dialect
  /-- what sends or compiles a request changes neither it nor the default dialect -/
  unchanged : ∀ sts, (∀ st ∈ sts, st.Asks) → (s.after t x sts).1.requests = s.requests

/-- The rule holds in every session that any steps lead to. -/
theorem dialect_rule {t : Transport σ} {s : Session} {x : σ} (h : Reachable t s x) :
    DialectRule t s x where
  nonZero := h.nonZero
  sent _ _ := followsRule_of_mem t x
  compiled _ _ _ _ _ := Draft.ruled_compile
  kept _ _ hd sts := dialectAt_after t x sts hd
  unchanged _ := requests_after_asks t x

/-- a query without a dialect, whose text is the keyword, and an aggregation with a negative one;
    some steps fail, and the default dialect is changed behind a search that is sent -/
def changingDefaults : List Step :=
  [.query "q" "DIALECT" [], .aggregation "a" "*" [.dialect (-1)], .setDefault (some 3),
    .callQuery "q" (.dialect 0), .setDefault (some 0), .compile "q", .search "idx" "q",
    .iterate "it" "idx" "a" none, .setDefault (some 2)]

def changedDefaults : Session × List (Except String Value) :=
  ({} : Session).after Transport.prepared [.error "busy"] changingDefaults

def searchDialectTwo : List Token :=
  [.text "FT.SEARCH", .text "idx", .text "DIALECT", .text "DIALECT", .int 2]

def aggregateNoDialect : List Token :=
  [.text "FT.AGGREGATE", .text "idx", .text "*", .text "WITHCURSOR"]

theorem dialect_rule_changed :
    (changedDefaults.1.step Transport.prepared changedDefaults.2 (.search "idx" "q")).sent
        = [searchDialectTwo]
      ∧ changedDefaults.1.FollowsRule (.search "idx" "q") searchDialectTwo
      ∧ (changedDefaults.1.step Transport.prepared changedDefaults.2 (.next "it")).sent
        = [aggregateNoDialect]
      ∧ changedDefaults.1.FollowsRule (.next "it") aggregateNoDialect := by
  have hcreate : create none = .ok {} := rfl
  have hstart : Reachable Transport.prepared {} [.error "busy"] := .created hcreate _
  have hreach : Reachable Transport.prepared changedDefaults.1 changedDefaults.2 :=
    hstart.after changingDefaults
  have hrule := dialect_rule hreach
  have hsearch : (changedDefaults.1.step Transport.prepared changedDefaults.2
      (.search "idx" "q")).sent = [searchDialectTwo] := by rfl
  have hnext : (changedDefaults.1.step Transport.prepared changedDefaults.2 (.next "it")).sent
      = [aggregateNoDialect] := by rfl
  refine ⟨hsearch, hrule.sent _ _ ?_, hnext, hrule.sent _ _ ?_⟩
  · rw [hsearch]
    exact List.mem_singleton_self _
  · rw [hnext]
    exact List.mem_singleton_self _

end Session

end FullText

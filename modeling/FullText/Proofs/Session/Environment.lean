import FullText.Proofs.Number.Grammar
import FullText.Proofs.Session.Dialects

/-!
# Settings from any environment

* `Environment.Spells`, `Environment.SpellsFloat`  the numbers that variables spell;
* `int?_eq_some_iff`, `float?_eq_some_iff`         those are the ones that are read from them;
* `Session.namesByDefault`   what commands name as long as the default dialect is left alone;
* `Settings.Law`             which environments have settings, what they are, and what is sent with them;
* `Settings.read_law`        it holds in all environments.

The default dialect is looked at three times: when it is read from its text, when the settings are
made, and when the session is.  A zero is found at the second look, so never at the third one.
-/

namespace FullText

open Numeral (Reads Spelled Zero readInt readFloat?)
open Text (Spaced isSpace isWhite)

/-! ## numbers -/

namespace Environment

theorem number?_eq_some_iff {α : Type} {read : String → Option α} (hread : Reads read)
    {raw : Option String} {a : α} :
    number? read raw = some a ↔ ∃ s, raw = some s ∧ read (Text.strip s) = some a := by
  rw [number?, Option.bind_eq_some_iff]
  refine exists_congr fun s => and_congr_right fun _ => ?_
  split
  next hblank => rw [hread.strip_of_blank hblank]
  next => exact Iff.rfl

/-- the text of a variable spells an integer, with space around it -/
def Spells (env : Environment) (name : String) (n : Int) : Prop :=
  ∃ s, env name = some s ∧ Spelled isSpace s.toList n

/-- the text of a variable is one that a binary64 is read from, with space around it -/
def SpellsFloat (env : Environment) (name : String) (x : Binary64) : Prop :=
  ∃ s core, env name = some s ∧ Spaced core s ∧ readFloat? core = some x

variable {env : Environment} {name : String}

theorem int?_eq_some_iff {n : Int} : int? (env name) = some n ↔ env.Spells name n := by
  rw [int?, number?_eq_some_iff Numeral.reads_int, Spells]
  simp only [Outcome.toOption_eq_some, Numeral.spelled_iff_strip]

theorem float?_eq_some_iff {x : Binary64} :
    float? (env name) = some x ↔ env.SpellsFloat name x := by
  rw [float?, number?_eq_some_iff Numeral.reads_float, SpellsFloat]
  simp only [Numeral.reads_float.strip_eq_some_iff, exists_and_left]

theorem spells_zero_iff : env.Spells name 0 ↔ ∃ s, env name = some s ∧ Zero isSpace s.toList := by
  simp only [Spells, Numeral.spelled_zero_iff]

end Environment

/-! ## the default dialect in commands -/

namespace Session

/-- the commands of steps without a dialect of their own name the given one if it is positive,
    whatever has been done before, as long as the default dialect is left alone -/
def NamesByDefault (s : Session) (given : Int → Prop) : Prop :=
  ∀ (σ : Type) (t : Transport σ) (x : σ) (sts : List Step), (∀ d, Step.setDefault d ∉ sts) →
    ∀ st c, let after := s.after t x sts
      c ∈ (after.1.step t after.2 st).sent → after.1.dialectOf? st = some none →
        ∃ r clause, CommandReading.ofTokens? c = some r ∧ r.dialect? = some clause
          ∧ ∀ v, clause = some v ↔ ∃ d, 1 ≤ d ∧ v = .int d ∧ given d

theorem default_after_of_notMem {σ : Type} {s : Session} (t : Transport σ) (x : σ) {sts : List Step}
    (h : ∀ d, Step.setDefault d ∉ sts) : (s.after t x sts).1.default = s.default := by
  rw [default_after]
  induction sts with
  | nil => rfl
  | cons st sts ih =>
    have hst : st.defaultAfter s.default = s.default := by
      cases st with
      | setDefault d => exact absurd List.mem_cons_self (h d)
      | _ => rfl
    rw [List.foldl_cons, hst]
    exact ih fun d hd => h d (List.mem_cons_of_mem _ hd)

theorem namesByDefault {s : Session} {given : Int → Prop}
    (h : ∀ d, s.default = some d ↔ given d) : s.NamesByDefault given := by
  intro σ t x sts hsts st c after hc ho
  obtain ⟨r, hr, hd⟩ := carries_of_mem t after.2 hc
  rw [ho, default_after_of_notMem t x hsts] at hd
  refine ⟨r, _, hr, hd, fun v => ?_⟩
  simp only [← h]
  exact Dialect.reading_eq_some_iff

end Session

/-! ## settings -/

namespace Settings

variable {env : Environment} {s : Settings}

/-- what the settings of an environment are, and what is sent with them -/
structure From (env : Environment) (s : Settings) : Prop where
  /-- the dialect is the integer that its variable spells, none if it spells none -/
  dialect : ∀ n, s.dialect = some n ↔ env.Spells dialectVariable n
  nonZero : s.dialect ≠ some 0
  /-- the timeout is the number that its variable spells -/
  timeout : ∀ x, env.SpellsFloat timeoutVariable x → s.timeout = x
  /-- and if it spells none, it is the usual one -/
  unspelled : (∀ x, ¬ env.SpellsFloat timeoutVariable x) → s.timeout = defaultTimeout
  /-- through the client of a caller there is a session, with this dialect for its default one -/
  builds : ∀ installed, ∃ session, Session.connect s true installed = .ok (.given, session)
    ∧ session.default = s.dialect ∧ session.NamesByDefault (env.Spells dialectVariable)

/-- which environments have settings, and what they are -/
structure Law (env : Environment) : Prop where
  /-- the settings are refused if and only if the dialect is spelled by nothing but zeros -/
  refused : (∃ f, Settings.read env = .error f)
    ↔ ∃ t, env dialectVariable = some t ∧ Zero isSpace t.toList
  fault : ∀ f, Settings.read env = .error f → f = .zeroDialect
  /-- a text spells the integer that is read from what is left of it when it is stripped -/
  stripped : ∀ t n, Spelled isSpace t.toList n ↔ readInt (Text.strip t) = .ok n
  /-- so it does if that is read from the text as it is -/
  unstripped : ∀ t n, readInt t = .ok n → Spelled isSpace t.toList n
  /-- and only then, if all the space in the text is white -/
  white : ∀ t n, (∀ c ∈ t.toList, isSpace c = true → isWhite c = true) →
    Spelled isSpace t.toList n → readInt t = .ok n
  from_read : ∀ s, Settings.read env = .ok s → From env s

theorem read_eq (env : Environment) :
    Settings.read env = if Environment.int? (env dialectVariable) = some 0 then .error .zeroDialect
      else .ok
        { url := (env urlVariable).getD ({} : Settings).url
          timeout := (Environment.float? (env timeoutVariable)).getD defaultTimeout
          dialect := Environment.int? (env dialectVariable) } := rfl

theorem connect_of_nonZero (h : s.dialect ≠ some 0) (installed : Bool) :
    Session.connect s true installed = .ok (.given, { default := s.dialect }) := by
  rw [Session.connect, Session.ofSettings, Session.create, if_neg h]
  rfl

theorem from_of_read (h : Settings.read env = .ok s) : From env s := by
  rw [read_eq] at h
  split at h
  next => cases h
  next hzero =>
    cases h
    have hdialect : ∀ n, Environment.int? (env dialectVariable) = some n
        ↔ env.Spells dialectVariable n := fun _ => Environment.int?_eq_some_iff
    refine ⟨hdialect, hzero, fun x hx => ?_, fun hnone => ?_, fun installed => ?_⟩
    · rw [Environment.float?_eq_some_iff.mpr hx, Option.getD_some]
    · have hfloat : Environment.float? (env timeoutVariable) = none :=
        Option.eq_none_iff_forall_ne_some.mpr fun x hx =>
          hnone x (Environment.float?_eq_some_iff.mp hx)
      rw [hfloat, Option.getD_none]
    · exact ⟨_, connect_of_nonZero hzero installed, rfl, Session.namesByDefault hdialect⟩

/-- Every environment has settings, or is refused, as the law says. -/
theorem read_law (env : Environment) : Law env where
  refused := by
    rw [← Environment.spells_zero_iff, ← Environment.int?_eq_some_iff, read_eq]
    split
    next h => exact ⟨fun _ => h, fun _ => ⟨_, rfl⟩⟩
    next h =>
      constructor
      · rintro ⟨f, hf⟩
        cases hf
      · exact fun hzero => absurd hzero h
  fault f h := by
    rw [read_eq] at h
    split at h
    next => exact (Except.error.inj h).symm
    next => cases h
  stripped _ _ := Numeral.spelled_iff_strip
  unstripped _ _ h := (Numeral.readInt_eq_ok_iff.mp h).mono fun _ _ => Text.isSpace_of_isWhite
  white _ _ hwhite h := Numeral.readInt_eq_ok_iff.mpr (h.mono hwhite)
  from_read _ := from_of_read

/-- the environment in which the dialect is set, and nothing else -/
def onlyDialect (text : String) : Environment := fun name =>
  if name = dialectVariable then some text else none

example : (Settings.read (onlyDialect " +0_\u0663\u001f")).map (·.dialect) = .ok (some 3) := by rfl

example :
    (Session.connect { dialect := some 3 } true false).map
        (fun r => (r.2.step Transport.prepared [] (.explain "idx" "hello" none)).sent)
      = .ok [[.text "FT.EXPLAIN", .text "idx", .text "hello", .text "DIALECT", .int 3]] := by rfl

/-- A zero behind a separator is refused, although it is not read as it is: a separator is no white
    space. -/
theorem read_separatedZero :
    ¬ ((∃ f, Settings.read (onlyDialect "\u001c0") = .error f)
      ↔ ∃ t, onlyDialect "\u001c0" dialectVariable = some t ∧ readInt t = .ok 0) := by
  intro h
  obtain ⟨t, ht, hread⟩ := h.mp ⟨.zeroDialect, by rfl⟩
  cases ht
  have hunread : readInt "\u001c0" = .error (.malformed "\u001c0") := by rfl
  rw [hunread] at hread
  cases hread

end Settings

end FullText

import FullText.Aggregation.ReadBack
import FullText.Proofs.Building.Settings
import FullText.Proofs.LastBound
import FullText.Proofs.Search.UniqueReading

/-!
# Which parameters a request binds, by the calls that have built it

* `Building.Binder`         a builder one of whose settings are parameters;
* `Binder.bound`            the bindings that the calls of a history make, one after another;
* `Binder.params_run`       they are what is bound after the history;
* `Binder.run_apart`        several names may as well be bound by one call each;
* `Binder.run_withoutParams`  without the calls that bind names, nothing else is different;
* `Query.binder`, `Aggregation.binder`  both builders of requests are such builders;
* `paramsClause bs`         the clause of such bindings, the same for both builders;
* `ParamsClause`            what it says: every name once, where it was first bound, with its last value;
* `Query.Binding`, `Aggregation.Binding`  the clause is that of the history, in the tokens of the history
                            without any call that binds;
* `Building.parameters_bound`  so it is for every history of either builder.
-/

namespace FullText

/-! ## the clause -/

/-- the clause of bindings that are made one after another -/
def paramsClause (bs : List (String × Token)) : List Token := Params.tokens (Bindings.ofList bs)

/-- The clause of some bindings.  If there are none it is left out; otherwise it has twice as many tokens
    as there are names, and for each name the last value that is bound to it. -/
structure ParamsClause (bs : List (String × Token)) (clause : List Token) : Prop where
  absent : clause = [] ↔ bs = []
  present : bs ≠ [] → ∃ ps, LastOfEach bs ps
    ∧ clause = .text "PARAMS" :: .nat (2 * ps.length) :: ps.flatMap fun p => [.text p.1, p.2]

theorem ofList_pairs_eq_nil_iff {bs : List (String × Token)} :
    (Bindings.ofList bs).pairs = [] ↔ bs = [] := by
  constructor
  · intro h
    cases bs with
    | nil => rfl
    | cons b bs =>
      -- the first name that is bound is the first name of the clause
      have hnames := Bindings.names_ofList (b :: bs)
      rw [List.map_cons, List.eraseDups_cons, Bindings.names, h] at hnames
      cases hnames
  · rintro rfl
    rfl

theorem paramsClause_of_ne {bs : List (String × Token)} (h : bs ≠ []) :
    paramsClause bs = .text "PARAMS" :: .nat (2 * (Bindings.ofList bs).pairs.length)
      :: (Bindings.ofList bs).pairs.flatMap fun p => [.text p.1, p.2] := by
  have hne : (Bindings.ofList bs).pairs ≠ [] := fun he => h (ofList_pairs_eq_nil_iff.mp he)
  rw [paramsClause, Params.tokens, if_neg (by simpa using hne)]

theorem paramsClause_binds (bs : List (String × Token)) : ParamsClause bs (paramsClause bs) where
  absent := by
    constructor
    · intro h
      by_contra hne
      rw [paramsClause_of_ne hne] at h
      cases h
    · rintro rfl
      rfl
  present h := ⟨_, lastOfEach_ofList bs, paramsClause_of_ne h⟩

/-! ## builders that bind names -/

namespace Building

variable {ρ κ γ : Type} {call : κ → Method ρ Unit}

/-- A builder one of whose settings are parameters.  A call about them binds some names, one after
    another, and there is a call that binds just one. -/
structure Binder (call : κ → Method ρ Unit) (γ : Type) extends BySetting call γ where
  /-- the setting that the parameters are -/
  setting : γ
  params : ρ → Params
  withParams : ρ → Params → ρ
  /-- the bindings that a call makes if it is about the parameters -/
  binds? : κ → Option (List (String × Token))
  one : String → Token → κ
  params_withParams : ∀ r ps, params (withParams r ps) = ps
  withParams_params : ∀ r, withParams r (params r) = r
  withParams_withParams : ∀ r ps qs, withParams (withParams r ps) qs = withParams r qs
  params_only : ∀ r, params (only r setting) = params r
  only_setting : ∀ r r', text r' = text r → params r' = params r → only r' setting = only r setting
  only_withParams : ∀ r ps g, g ≠ setting → only (withParams r ps) g = only r g
  of_of_binds?_none : ∀ c, binds? c = none → of c ≠ setting
  binds?_one : ∀ name value, binds? (one name value) = some [(name, value)]
  after_of_binds? : ∀ r c bs, binds? c = some bs →
    after call r c = withParams r ((params r).putAll bs)

namespace Binder

variable (B : Binder call γ)

/-- the bindings that the calls of a history make, one after another -/
def bound (cs : List κ) : List (String × Token) := cs.flatMap fun c => (B.binds? c).getD []

/-- a call that binds several names as calls that bind one name each -/
def apart (c : κ) : List κ :=
  match B.binds? c with
  | some bs => bs.map fun b => B.one b.1 b.2
  | none => [c]

/-- the calls of a history that bind nothing -/
def withoutParams [DecidableEq γ] (cs : List κ) : List κ := B.without B.setting cs

theorem params_after (r : ρ) (c : κ) :
    B.params (after call r c) = (B.params r).putAll ((B.binds? c).getD []) := by
  cases h : B.binds? c with
  | some bs =>
    rw [B.after_of_binds? r c bs h, B.params_withParams]
    rfl
  | none =>
    rw [← B.params_only, B.only_other r c B.setting (B.of_of_binds?_none c h).symm, B.params_only]
    rfl

theorem params_run (r : ρ) (cs : List κ) :
    B.params (run call r cs) = (B.params r).putAll (B.bound cs) := by
  induction cs generalizing r with
  | nil => rfl
  | cons c cs ih =>
    have hbound : B.bound (c :: cs) = (B.binds? c).getD [] ++ B.bound cs := List.flatMap_cons
    rw [run_cons, ih, B.params_after, hbound, Bindings.putAll_append]

theorem run_one_by_one (r : ρ) (bs : List (String × Token)) :
    run call r (bs.map fun b => B.one b.1 b.2) = B.withParams r ((B.params r).putAll bs) := by
  induction bs generalizing r with
  | nil => exact (B.withParams_params r).symm
  | cons b bs ih =>
    rw [List.map_cons, run_cons, ih, B.after_of_binds? r _ _ (B.binds?_one b.1 b.2),
      B.params_withParams, B.withParams_withParams]
    rfl

theorem run_apart (r : ρ) (cs : List κ) : run call r (cs.flatMap B.apart) = run call r cs := by
  induction cs generalizing r with
  | nil => rfl
  | cons c cs ih =>
    have hcall : run call r (B.apart c) = after call r c := by
      unfold apart
      cases h : B.binds? c with
      | some bs => rw [B.after_of_binds? r c bs h, ← run_one_by_one]
      | none => rfl
    rw [List.flatMap_cons, run_append, hcall, ih, run_cons]

/-- Without the calls that bind names, the parameters stay as they are, and so does all else. -/
theorem run_withoutParams [DecidableEq γ] [Nontrivial γ] (r : ρ) (cs : List κ) :
    run call r (B.withoutParams cs) = B.withParams (run call r cs) (B.params r) := by
  refine B.run_without (B.only_setting _ _ ?_ (B.params_withParams _ _)) fun g hg =>
    B.only_withParams _ _ g hg
  -- any other setting shows the text
  obtain ⟨g, hg⟩ := exists_ne B.setting
  rw [← B.text_only, B.only_withParams _ _ g hg, B.text_only, B.text_run]

end Binder

end Building

open Building

/-! ## queries -/

namespace Query

/-- the calls that bind names -/
def binder : Binder call Setting where
  toBySetting := settings
  setting := .params
  params := params
  withParams q ps := { q with params := ps }
  binds?
    | .param name value => some [(name, value)]
    | .params pairs => some pairs
    | _ => none
  one := .param
  params_withParams _ _ := rfl
  withParams_params _ := rfl
  withParams_withParams _ _ _ := rfl
  params_only _ := rfl
  only_setting q q' ht hp := by
    have htext : q'.text = q.text := ht
    show only q' .params = only q .params
    rw [only, only, htext, hp]
  only_withParams q ps g hg := by cases g <;> first | rfl | exact absurd rfl hg
  of_of_binds?_none c h := by
    cases c with
    | param | params => cases h
    | _ => nofun
  binds?_one _ _ := rfl
  after_of_binds? q c bs h := by
    cases c with
    | param name value =>
      cases h
      rfl
    | params pairs =>
      cases h
      rw [after, on_params]
    | _ => cases h

/-- the tokens in front of the parameters, and those behind them -/
def aroundParams (q : Query) (default : Option Int) : Except Fault (List Token × List Token) :=
  (fun filters =>
      (q.head ++ filters ++ (q.highlight.map Highlight.tokens).getD []
        ++ (q.summary.map Summary.tokens).getD [] ++ Token.countedUnlessEmpty "INKEYS" q.inKeys
        ++ q.projection.tokens,
      Dialect.tokens (Dialect.effective q.dialect default)
        ++ Token.option "SLOP" (q.slop.map .nat) ++ Token.option "TIMEOUT" (q.timeout.map .nat)
        ++ Token.flag "INORDER" q.inOrder ++ Token.option "EXPANDER" (q.expander.map .text)))
    <$> Filter.allTokens q.filters

theorem compile_aroundParams (q : Query) (default : Option Int) :
    q.compile default
      = (fun t => t.1 ++ Params.tokens q.params ++ t.2) <$> q.aroundParams default := by
  rw [compile, aroundParams]
  cases Filter.allTokens q.filters with
  | error f => rfl
  | ok filters =>
    show Except.ok _ = Except.ok _
    simp only [tail, List.append_assoc]

/-- what a history of calls makes of the parameters of a query -/
structure Binding (text : String) (cs : List Call) (default : Option Int) : Prop where
  /-- The tokens are those of the history without its calls that bind names, and the clause of what is
      bound in one place; it says this, and nothing else is read in another way. -/
  clause : ∃ o : Except Fault (List Token × List Token),
    (calls { text := text } (binder.withoutParams cs)).compile default = (fun t => t.1 ++ t.2) <$> o
      ∧ (calls { text := text } cs).compile default
        = (fun t => t.1 ++ paramsClause (binder.bound cs) ++ t.2) <$> o
      ∧ ∀ t, o = .ok t → ∃ r : SearchReading, r.params = []
        ∧ Reader.search (t.1 ++ t.2) = some (r, [])
        ∧ Reader.search (t.1 ++ paramsClause (binder.bound cs) ++ t.2)
          = some ({ r with params := Params.reading (Bindings.ofList (binder.bound cs)) }, [])
  /-- Several names may as well be bound one by one. -/
  apart : calls { text := text } (cs.flatMap binder.apart) = calls { text := text } cs

theorem binding (text : String) (cs : List Call) (default : Option Int) :
    Binding text cs default where
  clause := by
    let q := calls { text := text } cs
    have hplain : calls { text := text } (binder.withoutParams cs) = { q with params := {} } :=
      binder.run_withoutParams { text := text } cs
    have hbound : Bindings.ofList (binder.bound cs) = q.params :=
      (binder.params_run { text := text } cs).symm
    have hwithout : (calls { text := text } (binder.withoutParams cs)).compile default
        = (fun t => t.1 ++ t.2) <$> q.aroundParams default := by
      rw [hplain, compile_aroundParams]
      show (fun t : List Token × List Token => t.1 ++ [] ++ t.2) <$> q.aroundParams default = _
      simp only [List.append_nil]
    have hwith : q.compile default
        = (fun t => t.1 ++ paramsClause (binder.bound cs) ++ t.2) <$> q.aroundParams default := by
      rw [compile_aroundParams, paramsClause, hbound]
    refine ⟨q.aroundParams default, hwithout, hwith, fun t ht => ?_⟩
    rw [ht] at hwithout hwith
    obtain ⟨fs, hfs, hr⟩ := Reader.search_compile hwithout
    obtain ⟨gs, hgs, hr'⟩ := Reader.search_compile hwith
    rw [hplain] at hfs hr
    -- both queries have the same filters
    obtain rfl : fs = gs := Except.ok.inj (hfs.symm.trans hgs)
    refine ⟨_, ?_, hr, ?_⟩
    · rfl
    · rw [hr', hbound]
      rfl
  apart := binder.run_apart { text := text } cs

end Query

/-! ## aggregations -/

namespace Aggregation

/-- the calls that bind names -/
def binder : Binder call Setting where
  toBySetting := settings
  setting := .params
  params := params
  withParams a ps := { a with params := ps }
  binds?
    | .param name value => some [(name, value)]
    | .params pairs => some pairs
    | _ => none
  one := .param
  params_withParams _ _ := rfl
  withParams_params _ := rfl
  withParams_withParams _ _ _ := rfl
  params_only _ := rfl
  only_setting a a' ht hp := by
    have htext : a'.text = a.text := ht
    show only a' .params = only a .params
    rw [only, only, htext, hp]
  only_withParams a ps g hg := by cases g <;> first | rfl | exact absurd rfl hg
  of_of_binds?_none c h := by
    cases c with
    | param | params => cases h
    | _ => nofun
  binds?_one _ _ := rfl
  after_of_binds? a c bs h := by
    cases c with
    | param name value =>
      cases h
      rfl
    | params pairs =>
      cases h
      rw [after, on_params]
    | _ => cases h

/-- the tokens in front of the parameters -/
def beforeParams (a : Aggregation) : List Token :=
  .text a.text :: (Token.flag "VERBATIM" a.verbatim
    ++ a.load.tokens
    ++ Token.option "TIMEOUT" (a.timeout.map .int)
    ++ a.stages.flatMap Stage.tokens
    ++ (a.cursor.map CursorOptions.tokens).getD [])

theorem compile_params (a : Aggregation) (default : Option Int) :
    a.compile default = a.beforeParams ++ Params.tokens a.params
      ++ Dialect.tokens (Dialect.effective a.dialect default) := by
  simp only [compile, beforeParams, List.cons_append, List.append_assoc]

/-- what a history of calls makes of the parameters of an aggregation -/
structure Binding (text : String) (cs : List Call) (default : Option Int) : Prop where
  /-- The tokens are those of the history without its calls that bind names, and the clause of what is
      bound in one place; it says this, and nothing else is read in another way. -/
  clause : ∃ (before behind : List Token) (r : AggregateReading),
    (calls { text := text } (binder.withoutParams cs)).compile default = before ++ behind
      ∧ (calls { text := text } cs).compile default
        = before ++ paramsClause (binder.bound cs) ++ behind
      ∧ r.params = [] ∧ Reader.aggregate (before ++ behind) = some (r, [])
      ∧ Reader.aggregate (before ++ paramsClause (binder.bound cs) ++ behind)
        = some ({ r with params := Params.reading (Bindings.ofList (binder.bound cs)) }, [])
  /-- Several names may as well be bound one by one. -/
  apart : calls { text := text } (cs.flatMap binder.apart) = calls { text := text } cs

theorem binding (text : String) (cs : List Call) (default : Option Int) :
    Binding text cs default where
  clause := by
    let a := calls { text := text } cs
    have hplain : calls { text := text } (binder.withoutParams cs) = { a with params := {} } :=
      binder.run_withoutParams { text := text } cs
    have hbound : Bindings.ofList (binder.bound cs) = a.params :=
      (binder.params_run { text := text } cs).symm
    have hwithout : (calls { text := text } (binder.withoutParams cs)).compile default
        = a.beforeParams ++ Dialect.tokens (Dialect.effective a.dialect default) := by
      rw [hplain, compile_params]
      exact congrArg (· ++ _) (List.append_nil _)
    have hwith : a.compile default = a.beforeParams ++ paramsClause (binder.bound cs)
        ++ Dialect.tokens (Dialect.effective a.dialect default) := by
      rw [compile_params, paramsClause, hbound]
    refine ⟨_, _, reading { a with params := {} } default, hwithout, hwith, ?_, ?_, ?_⟩
    · rfl
    · rw [← hwithout, hplain]
      exact Reader.aggregate_append _ default
    · rw [← hwith, Reader.aggregate_append, hbound]
      rfl
  apart := binder.run_apart { text := text } cs

end Aggregation

/-! ## both builders -/

/-- Whatever calls have built a request, be it a search or an aggregation: its parameters are those that
    the calls have bound, every name where it was first bound and with the value that it was last bound
    to.  Both builders have the same clause for the same bindings. -/
theorem Building.parameters_bound :
    (∀ bs, ParamsClause bs (paramsClause bs))
      ∧ (∀ text cs default, Query.Binding text cs default)
      ∧ ∀ text cs default, Aggregation.Binding text cs default :=
  ⟨paramsClause_binds, Query.binding, Aggregation.binding⟩

/-- A name that is bound again keeps its place, whichever way it is bound. -/
example :
    paramsClause (Query.binder.bound [.param "x" (.int 1), .verbatim true,
        .params [("y", .text "PARAMS"), ("x", .int 3)], .param "z" (.int 0)])
      = [.text "PARAMS", .nat 6, .text "x", .int 3, .text "y", .text "PARAMS", .text "z", .int 0] := by
  decide

end FullText

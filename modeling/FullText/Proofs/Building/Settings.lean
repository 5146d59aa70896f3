import FullText.Aggregation.Call
import FullText.Proofs.Building.History
import FullText.Query.Call

/-!
# Calls about different settings commute

* `Query.Setting`, `Aggregation.Setting`     what can be set, `Call.setting` what a call is about;
* `Query.only`, `Query.gather`               a query with one setting, the query of all settings;
* `Query.checksFirst_call`, `Aggregation.checksFirst_call`  a call checks before it assigns;
* `Query.settings`, `Aggregation.settings`   every call is about one setting and fails by itself;
* `Building.settings_commute`                only the order of calls about one setting matters.

The calls about one setting do depend on their order: the last one holds, or a projection is
extended, a parameter is bound again, a stage comes behind another one.
-/

namespace FullText

open Building

/-! ## queries -/

namespace Query

inductive Setting where
  | paging
  | filters
  | verbatim
  | noContent
  | noStopwords
  | withScores
  | withPayloads
  | language
  | scorer
  | payload
  | expander
  | inFields
  | inKeys
  | projection
  | highlight
  | summary
  | sort
  | params
  | dialect
  | slop
  | timeout
  | inOrder
  deriving DecidableEq, Repr

instance : Nontrivial Setting := ⟨.paging, .filters, by decide⟩

def Call.setting : Call → Setting
  | .limit .. => .paging
  | .numericFilter .. | .geoFilter .. => .filters
  | .verbatim .. => .verbatim
  | .noContent .. => .noContent
  | .noStopwords .. => .noStopwords
  | .withScores .. => .withScores
  | .withPayloads .. => .withPayloads
  | .language .. => .language
  | .scorer .. => .scorer
  | .payload .. => .payload
  | .expander .. => .expander
  | .limitFields .. => .inFields
  | .limitKeys .. => .inKeys
  | .returnFields .. | .returnFieldNames .. | .returnField .. => .projection
  | .highlight .. | .highlightPair .. => .highlight
  | .summarize .. => .summary
  | .sortBy .. => .sort
  | .param .. | .params .. => .params
  | .dialect .. => .dialect
  | .slop .. => .slop
  | .timeout .. => .timeout
  | .inOrder => .inOrder

/-- the query with one of its settings -/
def only (q : Query) : Setting → Query
  | .paging => { text := q.text, paging := q.paging }
  | .filters => { text := q.text, filters := q.filters }
  | .verbatim => { text := q.text, verbatim := q.verbatim }
  | .noContent => { text := q.text, noContent := q.noContent }
  | .noStopwords => { text := q.text, noStopwords := q.noStopwords }
  | .withScores => { text := q.text, withScores := q.withScores }
  | .withPayloads => { text := q.text, withPayloads := q.withPayloads }
  | .language => { text := q.text, language := q.language }
  | .scorer => { text := q.text, scorer := q.scorer }
  | .payload => { text := q.text, payload := q.payload }
  | .expander => { text := q.text, expander := q.expander }
  | .inFields => { text := q.text, inFields := q.inFields }
  | .inKeys => { text := q.text, inKeys := q.inKeys }
  | .projection => { text := q.text, projection := q.projection }
  | .highlight => { text := q.text, highlight := q.highlight }
  | .summary => { text := q.text, summary := q.summary }
  | .sort => { text := q.text, sort := q.sort }
  | .params => { text := q.text, params := q.params }
  | .dialect => { text := q.text, dialect := q.dialect }
  | .slop => { text := q.text, slop := q.slop }
  | .timeout => { text := q.text, timeout := q.timeout }
  | .inOrder => { text := q.text, inOrder := q.inOrder }

/-- the query that has each setting from a query of its own -/
def gather (f : Setting → Query) : Query where
  text := (f .paging).text
  verbatim := (f .verbatim).verbatim
  noContent := (f .noContent).noContent
  noStopwords := (f .noStopwords).noStopwords
  withScores := (f .withScores).withScores
  withPayloads := (f .withPayloads).withPayloads
  language := (f .language).language
  scorer := (f .scorer).scorer
  inFields := (f .inFields).inFields
  sort := (f .sort).sort
  payload := (f .payload).payload
  paging := (f .paging).paging
  filters := (f .filters).filters
  highlight := (f .highlight).highlight
  summary := (f .summary).summary
  inKeys := (f .inKeys).inKeys
  projection := (f .projection).projection
  params := (f .params).params
  dialect := (f .dialect).dialect
  slop := (f .slop).slop
  timeout := (f .timeout).timeout
  inOrder := (f .inOrder).inOrder
  expander := (f .expander).expander

/-- why a call fails, if it does -/
def Call.fault? : Call → Option Fault
  | .geoFilter property longitude latitude radius unit =>
    Fault.of? (GeoFilter.make property longitude latitude radius unit)
  | .dialect d => Fault.of? (Dialect.check d)
  | _ => none

theorem on_geoFilter (q : Query) (property : String) (longitude latitude radius : Number)
    (unit : Option String) :
    (call (.geoFilter property longitude latitude radius unit)).on q
      = match GeoFilter.make property longitude latitude radius unit with
        | .ok f => (.ok (), { q with filters := q.filters ++ [.geo f] })
        | .error e => (.error e, q) := by
  rw [call]
  cases GeoFilter.make property longitude latitude radius unit <;> rfl

theorem on_dialect (q : Query) (d : Int) :
    (call (.dialect d)).on q
      = match Dialect.check d with
        | .ok e => (.ok (), { q with dialect := some e })
        | .error f => (.error f, q) := by
  rw [call]
  cases Dialect.check d <;> rfl

theorem on_params (q : Query) (pairs : List (String × Token)) :
    (call (.params pairs)).on q = (.ok (), { q with params := q.params.putAll pairs }) := by
  have hput : pairs.foldl (fun q p => { q with params := q.params.put p.1 p.2 }) q
      = { q with params := q.params.putAll pairs } :=
    List.foldl_hom (fun ps => { q with params := ps }) fun _ _ => rfl
  rw [← hput]
  exact Method.on_forM_modify _ pairs q

theorem checksFirst_call : ChecksFirst call Call.fault? := by
  intro q c
  cases c with
  | geoFilter property longitude latitude radius unit =>
    rw [after, on_geoFilter, Call.fault?]
    cases GeoFilter.make property longitude latitude radius unit <;> rfl
  | dialect d =>
    rw [after, on_dialect, Call.fault?]
    cases Dialect.check d <;> rfl
  | params pairs =>
    rw [after, on_params]
    rfl
  | _ => rfl

theorem only_self (q : Query) (c : Call) :
    (after call q c).only c.setting = after call (q.only c.setting) c := by
  cases c with
  | geoFilter property longitude latitude radius unit =>
    rw [after, after, on_geoFilter, on_geoFilter]
    cases GeoFilter.make property longitude latitude radius unit <;> rfl
  | dialect d =>
    rw [after, after, on_dialect, on_dialect]
    cases Dialect.check d <;> rfl
  | params pairs =>
    rw [after, after, on_params, on_params]
    rfl
  | _ => rfl

theorem only_other (q : Query) (c : Call) (g : Setting) (h : g ≠ c.setting) :
    (after call q c).only g = q.only g := by
  cases c with
  | geoFilter property longitude latitude radius unit =>
    rw [after, on_geoFilter]
    cases GeoFilter.make property longitude latitude radius unit with
    | error f => rfl
    | ok f => cases g <;> first | rfl | exact absurd rfl h
  | dialect d =>
    rw [after, on_dialect]
    cases Dialect.check d with
    | error f => rfl
    | ok d => cases g <;> first | rfl | exact absurd rfl h
  | params pairs =>
    rw [after, on_params]
    cases g <;> first | rfl | exact absurd rfl h
  | _ => cases g <;> first | rfl | exact absurd rfl h

/-- every call is about one setting, and fails by itself -/
def settings : BySetting call Setting where
  of := Call.setting
  text := text
  only := only
  gather := gather
  gather_only _ := rfl
  text_only q g := by cases g <;> rfl
  only_self := only_self
  only_other := only_other
  fault? := Call.fault?
  checks_first := checksFirst_call

end Query

/-! ## aggregations -/

namespace Aggregation

inductive Setting where
  | verbatim
  | load
  | stages
  | cursor
  | timeout
  | params
  | dialect
  deriving DecidableEq, Repr

instance : Nontrivial Setting := ⟨.verbatim, .load, by decide⟩

def Call.setting : Call → Setting
  | .verbatim .. => .verbatim
  | .load .. => .load
  | .stage .. => .stages
  | .withCursor .. => .cursor
  | .timeout .. => .timeout
  | .param .. | .params .. => .params
  | .dialect .. => .dialect

/-- the request with one of its settings -/
def only (a : Aggregation) : Setting → Aggregation
  | .verbatim => { text := a.text, verbatim := a.verbatim }
  | .load => { text := a.text, load := a.load }
  | .stages => { text := a.text, stages := a.stages }
  | .cursor => { text := a.text, cursor := a.cursor }
  | .timeout => { text := a.text, timeout := a.timeout }
  | .params => { text := a.text, params := a.params }
  | .dialect => { text := a.text, dialect := a.dialect }

/-- the request that has each setting from a request of its own -/
def gather (f : Setting → Aggregation) : Aggregation where
  text := (f .verbatim).text
  verbatim := (f .verbatim).verbatim
  load := (f .load).load
  timeout := (f .timeout).timeout
  stages := (f .stages).stages
  cursor := (f .cursor).cursor
  params := (f .params).params
  dialect := (f .dialect).dialect

def Call.fault? : Call → Option Fault
  | .dialect d => Fault.of? (Dialect.check d)
  | _ => none

theorem on_dialect (a : Aggregation) (d : Int) :
    (call (.dialect d)).on a
      = match Dialect.check d with
        | .ok e => (.ok (), { a with dialect := some e })
        | .error f => (.error f, a) := by
  rw [call]
  cases Dialect.check d <;> rfl

theorem on_params (a : Aggregation) (pairs : List (String × Token)) :
    (call (.params pairs)).on a = (.ok (), { a with params := a.params.putAll pairs }) := by
  have hput : pairs.foldl (fun a p => { a with params := a.params.put p.1 p.2 }) a
      = { a with params := a.params.putAll pairs } :=
    List.foldl_hom (fun ps => { a with params := ps }) fun _ _ => rfl
  rw [← hput]
  exact Method.on_forM_modify _ pairs a

theorem checksFirst_call : ChecksFirst call Call.fault? := by
  intro a c
  cases c with
  | dialect d =>
    rw [after, on_dialect, Call.fault?]
    cases Dialect.check d <;> rfl
  | params pairs =>
    rw [after, on_params]
    rfl
  | _ => rfl

theorem only_self (a : Aggregation) (c : Call) :
    (after call a c).only c.setting = after call (a.only c.setting) c := by
  cases c with
  | dialect d =>
    rw [after, after, on_dialect, on_dialect]
    cases Dialect.check d <;> rfl
  | params pairs =>
    rw [after, after, on_params, on_params]
    rfl
  | _ => rfl

theorem only_other (a : Aggregation) (c : Call) (g : Setting) (h : g ≠ c.setting) :
    (after call a c).only g = a.only g := by
  cases c with
  | dialect d =>
    rw [after, on_dialect]
    cases Dialect.check d with
    | error f => rfl
    | ok d => cases g <;> first | rfl | exact absurd rfl h
  | params pairs =>
    rw [after, on_params]
    cases g <;> first | rfl | exact absurd rfl h
  | _ => cases g <;> first | rfl | exact absurd rfl h

def settings : BySetting call Setting where
  of := Call.setting
  text := text
  only := only
  gather := gather
  gather_only _ := rfl
  text_only a g := by cases g <;> rfl
  only_self := only_self
  only_other := only_other
  fault? := Call.fault?
  checks_first := checksFirst_call

end Aggregation

/-! ## other orders of the same calls -/

/-- Calls about different settings commute: two histories that have the same calls about each setting,
    in the same order, compile alike under every default dialect and ask for the same layout of the
    reply, and the same calls fail in both with the same faults. -/
theorem Building.settings_commute :
    (∀ (q : Query) (cs ds : List Query.Call), SameBySetting Query.Call.setting cs ds →
      (∀ default, (q.calls cs).compile default = (q.calls ds).compile default)
        ∧ (q.calls cs).shape = (q.calls ds).shape
        ∧ SameBySetting (fun o => o.1.setting) (outcomes Query.call q cs) (outcomes Query.call q ds))
      ∧ ∀ (a : Aggregation) (cs ds : List Aggregation.Call),
        SameBySetting Aggregation.Call.setting cs ds →
        (∀ default, (a.calls cs).compile default = (a.calls ds).compile default)
          ∧ (a.calls cs).shape = (a.calls ds).shape
          ∧ SameBySetting (fun o => o.1.setting) (outcomes Aggregation.call a cs)
              (outcomes Aggregation.call a ds) := by
  constructor
  · intro q cs ds h
    have hq : run Query.call q cs = run Query.call q ds := Query.settings.run_congr h q
    rw [Query.calls, Query.calls, hq]
    exact ⟨fun _ => rfl, rfl, Query.settings.outcomes_congr h q⟩
  · intro a cs ds h
    have ha : run Aggregation.call a cs = run Aggregation.call a ds :=
      Aggregation.settings.run_congr h a
    rw [Aggregation.calls, Aggregation.calls, ha]
    exact ⟨fun _ => rfl, rfl, Aggregation.settings.outcomes_congr h a⟩

/-- calls that extend a projection, bind a parameter again, keep the fields of a highlight, or
    fail -/
def Query.orderedCalls : List Query.Call :=
  [.returnFieldNames [⟨"a", none⟩], .returnField ⟨"b", some "c"⟩, .param "x" (.int 1),
    .param "y" (.int 2), .param "x" (.int 3), .highlight (.only ["t"]) none, .highlight .keep none,
    .dialect 2, .dialect 0, .geoFilter "loc" (.int 1) (.int 2) (.int 3) (some "league")]

/-- the same calls, those about different settings in turn -/
def Query.shuffledCalls : List Query.Call :=
  [.geoFilter "loc" (.int 1) (.int 2) (.int 3) (some "league"), .highlight (.only ["t"]) none,
    .param "x" (.int 1), .dialect 2, .returnFieldNames [⟨"a", none⟩], .param "y" (.int 2),
    .dialect 0, .highlight .keep none, .param "x" (.int 3), .returnField ⟨"b", some "c"⟩]

theorem Query.sameBySetting_shuffledCalls :
    SameBySetting Call.setting orderedCalls shuffledCalls := by
  intro g
  cases g <;> rfl

/-- stages in order among other calls -/
def Aggregation.orderedCalls : List Aggregation.Call :=
  [.stage (.apply "@n + 1" "m"), .stage (.sortBy [⟨"@m", none⟩] none), .load [⟨"n", none⟩],
    .load [], .dialect 0]

def Aggregation.shuffledCalls : List Aggregation.Call :=
  [.dialect 0, .load [⟨"n", none⟩], .stage (.apply "@n + 1" "m"), .load [],
    .stage (.sortBy [⟨"@m", none⟩] none)]

theorem Aggregation.sameBySetting_shuffledCalls :
    SameBySetting Call.setting orderedCalls shuffledCalls := by
  intro g
  cases g <;> rfl

theorem Building.settings_commute_shuffled :
    (Query.calls {} Query.shuffledCalls).compile none
        = .ok [.text "*", .text "HIGHLIGHT", .text "FIELDS", .nat 1, .text "t", .text "RETURN",
          .nat 4, .text "a", .text "b", .text "AS", .text "c", .text "PARAMS", .nat 4, .text "x",
          .int 3, .text "y", .int 2, .text "DIALECT", .int 2]
      ∧ (outcomes Query.call {} Query.shuffledCalls).filterMap Prod.snd
        = [.unsupportedUnit "league", .zeroDialect]
      ∧ (Aggregation.calls {} Aggregation.shuffledCalls).compile none
        = [.text "*", .text "LOAD", .text "*", .text "APPLY", .text "@n + 1", .text "AS", .text "m",
          .text "SORTBY", .nat 1, .text "@m"] := by
  obtain ⟨hq, -, -⟩ := settings_commute.1 {} _ _ Query.sameBySetting_shuffledCalls
  obtain ⟨ha, -, -⟩ := settings_commute.2 {} _ _ Aggregation.sameBySetting_shuffledCalls
  rw [← hq none, ← ha none]
  exact ⟨rfl, rfl, rfl⟩

end FullText

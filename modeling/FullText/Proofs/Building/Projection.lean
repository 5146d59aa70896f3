import FullText.Proofs.Building.Settings
import FullText.Proofs.Search.UniqueReading
import Mathlib.Data.List.DropRight
import Mathlib.Data.List.Induction

/-!
# Which fields a query returns, by the calls that have built it

* `Projection.listed`       the returned fields with their labels, whichever of the two kinds they are;
* `Query.ofOneKind_calls`   there are never fields of both kinds, since a call that sets some clears
                            the others;
* `returnClause`            the clause that returns some fields, none for no fields;
* `Query.Call.replaces?`, `Query.Call.adds?`  a call sets the projection anew, or adds one field to it;
* `Query.lastReplaced`, `Query.added`  what the last call of the first kind sets, and the fields that
                            are added after it;
* `Query.returned`          the fields that a history of calls asks for;
* `Query.projection_calls`  the projection after a history, by its last part alone;
* `Query.around`            the tokens in front of the returned fields, and those behind them;
* `Query.Returning`         the clause is that of the fields asked for, in the tokens of a history
                            without any call about them;
* `Query.returns_history`   so it is for every history, and unlabelled fields may be given either way.
-/

namespace FullText

open Building

/-! ## clauses -/

/-- the returned fields, each with the label that it has -/
def Projection.listed (p : Projection) : List FieldName := p.names.map (⟨·, none⟩) ++ p.fields

/-- there are not both names alone and other fields -/
def Projection.OfOneKind (p : Projection) : Prop := p.names = [] ∨ p.fields = []

/-- The clause that returns some fields, and none for no fields.  A field counts for one token, and
    with a label for three. -/
def returnClause (fs : List FieldName) : List Token :=
  if fs = [] then []
  else .text "RETURN" :: .nat (fs.countP (·.label.isNone) + 3 * fs.countP (·.label.isSome))
    :: fs.flatMap FieldName.tokens

theorem FieldName.widths_eq (fs : List FieldName) :
    widths fs = fs.countP (·.label.isNone) + 3 * fs.countP (·.label.isSome) := by
  induction fs with
  | nil => rfl
  | cons f fs ih =>
    obtain ⟨name, label⟩ := f
    rw [widths, ih, List.countP_cons, List.countP_cons]
    cases label with
    | none =>
      show 1 + _ = _ + 1 + 3 * (_ + 0)
      omega
    | some a =>
      show 3 + _ = _ + 0 + 3 * (_ + 1)
      omega

theorem FieldName.flatMap_tokens_unlabelled (ns : List String) :
    (ns.map fun n => FieldName.mk n none).flatMap tokens = Token.names ns := by
  induction ns with
  | nil => rfl
  | cons n ns ih => rw [List.map_cons, List.flatMap_cons, ih]; rfl

theorem FieldName.widths_unlabelled (ns : List String) :
    widths (ns.map fun n => FieldName.mk n none) = ns.length := by
  rw [← length_flatMap_tokens, flatMap_tokens_unlabelled, Token.length_names]

theorem returnClause_eq (fs : List FieldName) :
    returnClause fs = if fs = [] then [] else FieldName.counted "RETURN" fs := by
  rw [returnClause, ← FieldName.widths_eq]
  rfl

namespace Projection

theorem listed_names (ns : List String) : listed ⟨ns, []⟩ = ns.map fun n => ⟨n, none⟩ :=
  List.append_nil _

/-- The two ways to write the clause do not differ: names alone are fields without labels. -/
theorem tokens_eq {p : Projection} (h : p.OfOneKind) : p.tokens = returnClause p.listed := by
  obtain ⟨names, fields⟩ := p
  rw [returnClause_eq]
  rcases h with h | h
  · obtain rfl : names = [] := h
    cases fields <;> rfl
  · obtain rfl : fields = [] := h
    rw [listed_names, FieldName.counted, FieldName.widths_unlabelled,
      FieldName.flatMap_tokens_unlabelled]
    cases names <;> rfl

theorem reading_eq {p : Projection} (h : p.OfOneKind) :
    p.reading = p.listed.flatMap FieldName.tokens := by
  obtain ⟨names, fields⟩ := p
  rcases h with h | h
  · obtain rfl : names = [] := h
    rfl
  · obtain rfl : fields = [] := h
    rw [listed_names, FieldName.flatMap_tokens_unlabelled]
    cases names <;> rfl

end Projection

namespace Query

/-! ## histories -/

/-- the projection that a call sets anew -/
def Call.replaces? : Call → Option Projection
  | .returnFields ns => some ⟨ns, []⟩
  | .returnFieldNames fs => some ⟨[], fs⟩
  | _ => none

/-- the field that a call adds to the projection -/
def Call.adds? : Call → Option FieldName
  | .returnField f => some f
  | _ => none

/-- what the last call that sets the projection anew has set, if there is such a call -/
def lastReplaced (cs : List Call) : Option Projection := (cs.filterMap Call.replaces?).getLast?

/-- the fields that are added after that call -/
def added (cs : List Call) : List FieldName :=
  (cs.rtakeWhile fun c => c.replaces?.isNone).filterMap Call.adds?

/-- The fields that a history asks for.  If none is added at last, they are those of the last call that
    sets the projection anew; if some are, they come behind those, unless these were given by their
    names alone: then they are dropped. -/
def returned (cs : List Call) : List FieldName :=
  match lastReplaced cs, added cs with
  | none, fs => fs
  | some p, [] => p.listed
  | some p, fs => p.fields ++ fs

theorem lastReplaced_concat (cs : List Call) (c : Call) :
    lastReplaced (cs ++ [c]) = c.replaces?.or (lastReplaced cs) := by
  rw [lastReplaced, List.filterMap_append]
  cases h : c.replaces? with
  | none =>
    rw [List.filterMap_cons_none h, List.filterMap_nil, List.append_nil]
    rfl
  | some p =>
    rw [List.filterMap_cons_some h, List.filterMap_nil, List.getLast?_concat]
    rfl

theorem added_concat (cs : List Call) (c : Call) :
    added (cs ++ [c]) = if c.replaces?.isNone then added cs ++ c.adds?.toList else [] := by
  rw [added, List.rtakeWhile_concat]
  split
  next =>
    have hc : [c].filterMap Call.adds? = c.adds?.toList := by cases c <;> rfl
    rw [List.filterMap_append, hc]
    rfl
  next => rfl

/-- what is set anew, and the fields that are added to it -/
def projectionOf (last : Option Projection) : List FieldName → Projection
  | [] => last.getD {}
  | f :: fs => ⟨[], (last.getD {}).fields ++ f :: fs⟩

theorem projectionOf_concat (last : Option Projection) (fs : List FieldName) (f : FieldName) :
    projectionOf last (fs ++ [f]) = ⟨[], (projectionOf last fs).fields ++ [f]⟩ := by
  cases fs with
  | nil => rfl
  | cons g gs =>
    show Projection.mk [] (_ ++ (g :: gs ++ [f])) = ⟨[], (_ ++ g :: gs) ++ [f]⟩
    rw [List.append_assoc]

theorem listed_projectionOf (cs : List Call) :
    (projectionOf (lastReplaced cs) (added cs)).listed = returned cs := by
  unfold returned
  cases lastReplaced cs <;> cases added cs <;> rfl

theorem projection_after_other {c : Call} (q : Query) (h : c.setting ≠ .projection) :
    (after call q c).projection = q.projection := by
  show ((after call q c).only .projection).projection = (q.only .projection).projection
  rw [only_other q c _ h.symm]

/-- The projection after a history: only its last part matters. -/
theorem projection_calls (text : String) (cs : List Call) :
    (calls { text := text } cs).projection = projectionOf (lastReplaced cs) (added cs) := by
  induction cs using List.reverseRecOn with
  | nil => rfl
  | append_singleton cs c ih =>
    rw [calls, run_append, lastReplaced_concat, added_concat]
    show (after call (calls { text := text } cs) c).projection = _
    cases c with
    | returnFields | returnFieldNames => rfl
    | returnField f =>
      show Projection.mk [] ((calls { text := text } cs).projection.fields ++ [f]) = _
      rw [ih]
      exact (projectionOf_concat _ _ f).symm
    | _ =>
      refine (projection_after_other _ fun h => by cases h).trans ?_
      rw [ih]
      exact congrArg _ (List.append_nil _).symm

/-- A call that sets fields of one kind clears those of the other, and no other call sets any. -/
theorem ofOneKind_after (q : Query) (c : Call) (h : q.projection.OfOneKind) :
    (after call q c).projection.OfOneKind := by
  cases c with
  | returnFields ns => exact .inr rfl
  | returnFieldNames fs => exact .inl rfl
  | returnField f => exact .inl rfl
  | _ =>
    rw [projection_after_other _ fun hs => by cases hs]
    exact h

theorem ofOneKind_calls (text : String) (cs : List Call) :
    (calls { text := text } cs).projection.OfOneKind :=
  run_induction (P := fun q : Query => q.projection.OfOneKind) ofOneKind_after (.inl rfl) cs

/-! ## the calls about other things -/

/-- the calls of a history that are not about the projection -/
def withoutProjection (cs : List Call) : List Call := cs.filter fun c => c.setting ≠ .projection

theorem calls_withoutProjection (text : String) (cs : List Call) :
    calls { text := text } (withoutProjection cs)
      = { calls { text := text } cs with projection := {} } := by
  have htext : (calls { text := text } cs).text = text := settings.text_run { text := text } cs
  refine settings.run_without ?_ fun g hg => ?_
  · show only _ .projection = only _ .projection
    rw [only, htext]
    rfl
  · show only _ g = only _ g
    cases g <;> first | rfl | exact absurd rfl hg

/-! ## the tokens around the returned fields -/

/-- the tokens in front of the returned fields, and those behind them -/
def around (q : Query) (default : Option Int) : Except Fault (List Token × List Token) :=
  (fun filters =>
      (q.head ++ filters ++ (q.highlight.map Highlight.tokens).getD []
        ++ (q.summary.map Summary.tokens).getD [] ++ Token.countedUnlessEmpty "INKEYS" q.inKeys,
      Params.tokens q.params ++ Dialect.tokens (Dialect.effective q.dialect default)
        ++ Token.option "SLOP" (q.slop.map .nat) ++ Token.option "TIMEOUT" (q.timeout.map .nat)
        ++ Token.flag "INORDER" q.inOrder ++ Token.option "EXPANDER" (q.expander.map .text)))
    <$> Filter.allTokens q.filters

theorem compile_around {q : Query} (h : q.projection.OfOneKind) (default : Option Int) :
    q.compile default = (fun t => t.1 ++ returnClause q.projection.listed ++ t.2)
      <$> q.around default := by
  rw [← Projection.tokens_eq h, compile, around]
  cases Filter.allTokens q.filters with
  | error f => rfl
  | ok filters =>
    show Except.ok _ = Except.ok _
    simp only [tail, List.append_assoc]

theorem around_calls (text : String) (cs : List Call) (default : Option Int) :
    (calls { text := text } (withoutProjection cs)).around default
      = (calls { text := text } cs).around default := by
  rw [calls_withoutProjection]
  rfl

theorem compile_calls (text : String) (cs : List Call) (default : Option Int) :
    (calls { text := text } cs).compile default
      = (fun t => t.1 ++ returnClause (returned cs) ++ t.2)
        <$> (calls { text := text } (withoutProjection cs)).around default := by
  rw [compile_around (ofOneKind_calls text cs), around_calls, projection_calls,
    listed_projectionOf]

/-! ## unlabelled fields -/

theorem lastReplaced_append_cons (cs ds : List Call) (c : Call) (hc : c.replaces?.isSome) :
    lastReplaced (cs ++ c :: ds) = (lastReplaced ds).or c.replaces? := by
  induction ds using List.reverseRecOn with
  | nil =>
    rw [lastReplaced_concat]
    cases h : c.replaces? with
    | none => rw [h] at hc; cases hc
    | some p => rfl
  | append_singleton ds d ih =>
    rw [← List.cons_append, ← List.append_assoc, lastReplaced_concat, lastReplaced_concat, ih,
      Option.or_assoc]

theorem added_append_cons (cs ds : List Call) (c : Call) (hc : c.replaces?.isSome) :
    added (cs ++ c :: ds) = added ds := by
  induction ds using List.reverseRecOn with
  | nil =>
    rw [added_concat, if_neg (by simpa [Option.isSome_iff_ne_none] using hc)]
    rfl
  | append_singleton ds d ih =>
    rw [← List.cons_append, ← List.append_assoc, added_concat, added_concat, ih]

theorem withoutProjection_append_cons (cs ds : List Call) (c : Call)
    (hc : c.setting = .projection) :
    withoutProjection (cs ++ c :: ds) = withoutProjection cs ++ withoutProjection ds := by
  rw [withoutProjection, List.filter_append, List.filter_cons_of_neg (by simpa using hc)]
  rfl

/-- fields without labels may be given either way, as long as none is added to them -/
theorem returned_unlabelled (cs ds : List Call) (ns : List String)
    (h : (lastReplaced ds).isSome ∨ added ds = []) :
    returned (cs ++ .returnFields ns :: ds)
      = returned (cs ++ .returnFieldNames (ns.map fun n => ⟨n, none⟩) :: ds) := by
  unfold returned
  rw [lastReplaced_append_cons cs ds _ rfl, lastReplaced_append_cons cs ds _ rfl,
    added_append_cons cs ds _ rfl, added_append_cons cs ds _ rfl]
  cases hl : lastReplaced ds with
  | some p => rfl
  | none =>
    rw [hl] at h
    rw [h.resolve_left nofun]
    exact Projection.listed_names ns

theorem lastReplaced_isSome {cs : List Call} {c : Call} (hc : c ∈ cs) (h : c.replaces?.isSome) :
    (lastReplaced cs).isSome := by
  obtain ⟨p, hp⟩ := Option.isSome_iff_exists.mp h
  have hmem : p ∈ cs.filterMap Call.replaces? := List.mem_filterMap.mpr ⟨c, hc, hp⟩
  exact List.getLast?_isSome.mpr (List.ne_nil_of_mem hmem)

theorem added_eq_nil {cs : List Call} (h : ∀ f, .returnField f ∉ cs) : added cs = [] := by
  rw [added, List.filterMap_eq_nil_iff]
  intro c hc
  have hmem : c ∈ cs := (List.rtakeWhile_suffix _ cs).subset hc
  cases c with
  | returnField f => exact absurd hmem (h f)
  | _ => rfl

/-! ## all histories -/

/-- what a history of calls makes of the returned fields -/
structure Returning (text : String) (cs : List Call) (default : Option Int) : Prop where
  /-- there are never fields of both kinds -/
  one_kind : (calls { text := text } cs).projection.OfOneKind
  /-- The tokens are those of the history without its calls about the projection, and the clause of the
      fields in one place; it says these fields, and nothing else is read in another way. -/
  clause : ∃ o : Except Fault (List Token × List Token),
    (calls { text := text } (withoutProjection cs)).compile default = (fun t => t.1 ++ t.2) <$> o
      ∧ (calls { text := text } cs).compile default
        = (fun t => t.1 ++ returnClause (returned cs) ++ t.2) <$> o
      ∧ ∀ t, o = .ok t → ∃ r : SearchReading, r.projection = []
        ∧ Reader.search (t.1 ++ t.2) = some (r, [])
        ∧ Reader.search (t.1 ++ returnClause (returned cs) ++ t.2)
          = some ({ r with projection := (returned cs).flatMap FieldName.tokens }, [])

theorem returning (text : String) (cs : List Call) (default : Option Int) :
    Returning text cs default where
  one_kind := ofOneKind_calls text cs
  clause := by
    let q := calls { text := text } cs
    have hplain : calls { text := text } (withoutProjection cs)
        = { q with projection := {} } := calls_withoutProjection text cs
    have hwithout : (calls { text := text } (withoutProjection cs)).compile default
        = (fun t => t.1 ++ t.2) <$> q.around default := by
      rw [compile_around (ofOneKind_calls text _), around_calls, hplain]
      show (fun t : List Token × List Token => t.1 ++ [] ++ t.2) <$> q.around default = _
      simp only [List.append_nil]
    have hwith : q.compile default
        = (fun t => t.1 ++ returnClause (returned cs) ++ t.2) <$> q.around default := by
      rw [compile_calls, around_calls]
    refine ⟨q.around default, hwithout, hwith, fun t ht => ?_⟩
    rw [ht] at hwithout hwith
    obtain ⟨fs, hfs, hr⟩ := Reader.search_compile hwithout
    obtain ⟨gs, hgs, hr'⟩ := Reader.search_compile hwith
    rw [hplain] at hfs hr
    -- both queries have the same filters
    obtain rfl : fs = gs := Except.ok.inj (hfs.symm.trans hgs)
    refine ⟨_, ?_, hr, ?_⟩
    · rfl
    · have hprojection : q.projection.reading = (returned cs).flatMap FieldName.tokens := by
        rw [Projection.reading_eq (ofOneKind_calls text cs), projection_calls, listed_projectionOf]
      rw [hr', ← hprojection]
      rfl

/-- Whatever calls have built a query: the returned fields are of one kind, and their clause is that of
    the fields that the history asks for.  Fields without labels may be given as names or as fields: the
    tokens are the same, unless a field is added to them. -/
theorem returns_history (text : String) (cs : List Call) (default : Option Int) :
    Returning text cs default
      ∧ ∀ (ns : List String) (ds : List Call),
        (∃ c ∈ ds, c.replaces?.isSome) ∨ (∀ f, .returnField f ∉ ds) →
        (calls { text := text } (cs ++ .returnFields ns :: ds)).compile default
          = (calls { text := text }
              (cs ++ .returnFieldNames (ns.map fun n => ⟨n, none⟩) :: ds)).compile default := by
  refine ⟨returning text cs default, fun ns ds h => ?_⟩
  have hds : (lastReplaced ds).isSome ∨ added ds = [] := by
    rcases h with ⟨c, hc, hr⟩ | h
    · exact .inl (lastReplaced_isSome hc hr)
    · exact .inr (added_eq_nil h)
  rw [compile_calls, compile_calls, returned_unlabelled cs ds ns hds,
    withoutProjection_append_cons cs ds _ rfl, withoutProjection_append_cons cs ds _ rfl]

/-- Unlabelled fields behind one with a label, a call that fails among the calls after them. -/
theorem returns_history_unlabelled :
    (calls { text := "*" } [.returnField ⟨"x", some "AS"⟩, .withScores true,
        .returnFieldNames [⟨"a", none⟩, ⟨"b", none⟩], .dialect 0, .verbatim true]).compile none
      = .ok [.text "*", .text "VERBATIM", .text "WITHSCORES", .text "RETURN", .nat 2, .text "a",
        .text "b"] := by
  have h := (returns_history "*" [.returnField ⟨"x", some "AS"⟩, .withScores true] none).2
    ["a", "b"] [.dialect 0, .verbatim true] (.inr nofun)
  exact h.symm

/-- Names alone are dropped when a field is added, and fields are kept. -/
example :
    returned [.returnFields ["a"], .returnField ⟨"b", some "c"⟩, .verbatim true] = [⟨"b", some "c"⟩]
      ∧ returned [.returnFields ["a"], .returnFieldNames [⟨"d", none⟩], .returnField ⟨"b", none⟩]
        = [⟨"d", none⟩, ⟨"b", none⟩] := by
  decide

end Query

end FullText

import FullText.Proofs.Building.Settings
import FullText.Proofs.Search.UniqueReading
import Mathlib.Data.List.Induction

/-!
# Highlights and summaries keep their fields, and nothing else

* `FieldChoice.said`     what a call says about the fields, if it says anything;
* `FieldChoice.kept`     the fields after several calls: what the last that says anything says;
* `Query.highlightsOf`, `Query.summariesOf`   what the calls of a history say about either;
* `Mark.after`           the fields and the other options that such calls leave;
* `Query.mark_calls`     a mark of a query is what the calls about it leave, and no others;
* `Sticky`               what a clause says if it is that of such calls;
* `Query.marks_stick`    both clauses of every query that compiles are sticky.

The two clauses are the same but for their options, so the history of either is a list of choices of
fields, each with the options of its call.
-/

namespace FullText

open Building

/-! ## fields -/

/-- what a call says about the fields: that all are meant, or which; an empty list says nothing -/
def FieldChoice.said : FieldChoice → Option (Option (List String))
  | .keep => none
  | .all => some none
  | .only fs => if fs.isEmpty then none else some (some fs)

/-- the fields that several calls leave, none if all are meant or nothing was said -/
def FieldChoice.kept (cs : List FieldChoice) : Option (List String) :=
  (cs.filterMap said).getLast?.join

theorem FieldChoice.apply_eq (c : FieldChoice) (before : Option (List String)) :
    c.apply before = c.said.getD before := by
  cases c with
  | keep => rfl
  | all => rfl
  | only fs => cases fs <;> rfl

theorem FieldChoice.kept_concat (cs : List FieldChoice) (c : FieldChoice) :
    kept (cs ++ [c]) = c.apply (kept cs) := by
  rw [apply_eq, kept, List.filterMap_append]
  cases h : c.said with
  | none =>
    rw [List.filterMap_cons_none h, List.filterMap_nil, List.append_nil]
    rfl
  | some v =>
    rw [List.filterMap_cons_some h, List.filterMap_nil, List.getLast?_concat]
    rfl

theorem FieldChoice.said_ne_nil (c : FieldChoice) : c.said ≠ some (some []) := by
  cases c with
  | keep => nofun
  | all => nofun
  | only fs => cases fs <;> nofun

theorem FieldChoice.kept_ne_nil (cs : List FieldChoice) : kept cs ≠ some [] := by
  intro h
  have hl : (cs.filterMap said).getLast? = some (some []) := Option.join_eq_some_iff.mp h
  obtain ⟨c, -, hc⟩ := List.mem_filterMap.mp (List.mem_of_getLast? hl)
  exact c.said_ne_nil hc

/-! ## marks -/

/-- a call about the fields and the options of a clause -/
abbrev Mark (α : Type) := FieldChoice × α

/-- the fields and the options that calls leave: the fields of the last that says some, the options
    of the very last -/
def Mark.after {α : Type} (ms : List (Mark α)) : Option (Option (List String) × α) :=
  ms.getLast?.map fun m => (FieldChoice.kept (ms.map Prod.fst), m.2)

theorem Mark.fields_after {α : Type} (ms : List (Mark α)) :
    (after ms).bind Prod.fst = FieldChoice.kept (ms.map Prod.fst) := by
  unfold after
  cases h : ms.getLast? with
  | none =>
    rw [List.getLast?_eq_none_iff.mp h]
    rfl
  | some m => rfl

theorem Mark.after_concat {α : Type} (ms : List (Mark α)) (m : Mark α) :
    after (ms ++ [m]) = some (m.1.apply ((after ms).bind Prod.fst), m.2) := by
  rw [fields_after, after, List.getLast?_concat, List.map_append]
  show some (FieldChoice.kept (ms.map Prod.fst ++ [m.1]), m.2) = _
  rw [FieldChoice.kept_concat]

namespace Query

/-- a call about the highlight -/
def Call.highlight? : Call → Option (Mark (Option HighlightTags))
  | .highlight fields tags => some (fields, tags)
  | .highlightPair fields openTag closeTag => some (fields, some ⟨openTag, closeTag⟩)
  | _ => none

/-- a call about the summary: fragments, length and separator -/
def Call.summary? : Call → Option (Mark (Option Int × Option Int × Option String))
  | .summarize fields length fragments separator => some (fields, fragments, length, separator)
  | _ => none

def highlightsOf (cs : List Call) : List (Mark (Option HighlightTags)) :=
  cs.filterMap Call.highlight?

def summariesOf (cs : List Call) : List (Mark (Option Int × Option Int × Option String)) :=
  cs.filterMap Call.summary?

/-- A part of a query that some calls make of its fields before them and of what they say, and that no
    other call touches, is what the calls about it leave. -/
theorem mark_calls {α β : Type} (part : Query → Option β) {mark? : Call → Option (Mark α)}
    (make : Option (List String) → α → β) (fields : β → Option (List String))
    (hfields : ∀ o a, fields (make o a) = o)
    (hother : ∀ (q : Query) c, mark? c = none → part (after call q c) = part q)
    (hcall : ∀ (q : Query) c m, mark? c = some m →
      part (after call q c) = some (make (m.1.apply ((part q).bind fields)) m.2))
    (q : Query) (hq : part q = none) (cs : List Call) :
    part (q.calls cs) = (Mark.after (cs.filterMap mark?)).map fun p => make p.1 p.2 := by
  -- the last call decides, given what the calls before it have left
  induction cs using List.reverseRecOn with
  | nil => exact hq
  | append_singleton cs c ih =>
    rw [calls, run_append, List.filterMap_append]
    show part (after call (q.calls cs) c) = _
    cases h : mark? c with
    | none =>
      rw [hother _ c h, ih, List.filterMap_cons_none h, List.filterMap_nil, List.append_nil]
    | some m =>
      have hbefore : (part (q.calls cs)).bind fields
          = (Mark.after (cs.filterMap mark?)).bind Prod.fst := by
        rw [ih]
        cases Mark.after (cs.filterMap mark?) with
        | none => rfl
        | some p => exact hfields p.1 p.2
      rw [hcall _ c m h, hbefore, List.filterMap_cons_some h, List.filterMap_nil, Mark.after_concat]
      rfl

theorem highlight_calls (text : String) (cs : List Call) :
    (calls { text := text } cs).highlight
      = (Mark.after (highlightsOf cs)).map fun p => ⟨p.1, p.2⟩ := by
  refine mark_calls Query.highlight Highlight.mk Highlight.fields (fun _ _ => rfl) ?_ ?_
    { text := text } rfl cs
  · intro q c h
    have hc : Setting.highlight ≠ c.setting := by
      cases c with
      | highlight | highlightPair => cases h
      | _ => nofun
    show ((after call q c).only .highlight).highlight = (q.only .highlight).highlight
    rw [only_other q c _ hc]
  · intro q c m h
    cases c with
    | highlight | highlightPair =>
      cases h
      rfl
    | _ => cases h

theorem summary_calls (text : String) (cs : List Call) :
    (calls { text := text } cs).summary
      = (Mark.after (summariesOf cs)).map fun p => ⟨p.1, p.2.1, p.2.2.1, p.2.2.2⟩ := by
  let make (fields : Option (List String)) (a : Option Int × Option Int × Option String) :=
    Summary.mk fields a.1 a.2.1 a.2.2
  refine mark_calls Query.summary make Summary.fields (fun _ _ => rfl) ?_ ?_ { text := text } rfl cs
  · intro q c h
    have hc : Setting.summary ≠ c.setting := by
      cases c with
      | summarize => cases h
      | _ => nofun
    show ((after call q c).only .summary).summary = (q.only .summary).summary
    rw [only_other q c _ hc]
  · intro q c m h
    cases c with
    | summarize =>
      cases h
      rfl
    | _ => cases h

/-- the call with its tags, if it gives any, as tags -/
def Call.withTags : Call → Call
  | .highlightPair fields openTag closeTag => .highlight fields (some ⟨openTag, closeTag⟩)
  | c => c

theorem call_withTags (c : Call) : call c.withTags = call c := by
  cases c <;> rfl

theorem calls_withTags (q : Query) (cs : List Call) :
    q.calls (cs.map Call.withTags) = q.calls cs := by
  have hafter (q : Query) (c : Call) : after call q c.withTags = after call q c := by
    rw [after, call_withTags, after]
  unfold calls run
  rw [List.foldl_map]
  simp only [hafter]

end Query

/-! ## clauses -/

/-- What a clause says if it is that of some calls: it is there if there was a call at all; it has the
    fields of the last call that says some, and the other options of the very last one. -/
structure Sticky {α β γ : Type} (ms : List (Mark α)) (clause : Option β)
    (fields : β → Option (List Token)) (options : β → γ) (written : α → γ) : Prop where
  called : clause.isSome ↔ ms ≠ []
  keeps : ∀ b, clause = some b →
    fields b = (FieldChoice.kept (ms.map Prod.fst)).map Token.names
  renews : ∀ b, clause = some b → ∃ m, ms.getLast? = some m ∧ options b = written m.2
  /-- no clause has a count of zero fields -/
  counts : ∀ b, clause = some b → fields b ≠ some []

theorem Sticky.of_after {α β γ : Type} {ms : List (Mark α)} {fields : β → Option (List Token)}
    {options : β → γ} {written : α → γ} {make : Option (List String) × α → β}
    (hfields : ∀ p, fields (make p) = p.1.map Token.names)
    (hoptions : ∀ p, options (make p) = written p.2) :
    Sticky ms ((Mark.after ms).map make) fields options written := by
  unfold Mark.after
  cases h : ms.getLast? with
  | none =>
    have hm : ms = [] := List.getLast?_eq_none_iff.mp h
    exact ⟨⟨nofun, fun hne => absurd hm hne⟩, nofun, nofun, nofun⟩
  | some m =>
    have hm : ms ≠ [] := by
      rintro rfl
      cases h
    refine ⟨⟨fun _ => hm, fun _ => rfl⟩, ?_, ?_, ?_⟩
    · intro b hb
      cases hb
      exact hfields _
    · intro b hb
      cases hb
      exact ⟨m, h, hoptions _⟩
    · intro b hb hnil
      cases hb
      rw [hfields] at hnil
      obtain ⟨fs, hfs, hn⟩ := Option.map_eq_some_iff.mp hnil
      have he : fs = [] := List.map_eq_nil_iff.mp hn
      exact FieldChoice.kept_ne_nil _ (he ▸ hfs)

/-- Whatever calls have built a query that compiles, the clauses of its highlight and of its summary,
    as they are read, are those of the calls about either; and a pair of texts is as good as tags. -/
theorem Query.marks_stick (text : String) (cs : List Call) (default : Option Int) (ts : List Token)
    (h : (calls { text := text } cs).compile default = .ok ts) :
    ∃ r, Reader.search ts = some (r, [])
      ∧ Sticky (highlightsOf cs) r.highlight HighlightReading.fields HighlightReading.tags
          (Option.map HighlightTags.reading)
      ∧ Sticky (summariesOf cs) r.summary SummaryReading.fields
          (fun s => (s.fragments, s.length, s.separator))
          (fun a => (a.1.map .int, a.2.1.map .int, a.2.2.map .text))
      ∧ (calls { text := text } (cs.map Call.withTags)).compile default = .ok ts := by
  obtain ⟨fs, -, hr⟩ := Reader.search_compile h
  refine ⟨_, hr, ?_, ?_, ?_⟩
  · show Sticky _ ((calls { text := text } cs).highlight.map Highlight.reading) _ _ _
    rw [highlight_calls, Option.map_map]
    exact Sticky.of_after (fun _ => rfl) (fun _ => rfl)
  · show Sticky _ ((calls { text := text } cs).summary.map Summary.reading) _ _ _
    rw [summary_calls, Option.map_map]
    exact Sticky.of_after (fun _ => rfl) (fun _ => rfl)
  · rw [calls_withTags, h]

/-- calls that give fields, keep them, and take them back, with other options each time -/
def Query.markingCalls : List Query.Call :=
  [.highlight (.only ["a", "b"]) (some ⟨"<", ">"⟩),
    .summarize (.only ["t"]) (some 5) none (some "-"), .highlight (.only []) none, .dialect 0,
    .summarize .all none (some 2) (some "LEN"), .highlightPair .keep "FIELDS" "TAGS",
    .summarize .keep (some 7) none none]

def Query.markingTokens : List Token :=
  [.text "*", .text "HIGHLIGHT", .text "FIELDS", .nat 2, .text "a", .text "b", .text "TAGS",
    .text "FIELDS", .text "TAGS", .text "SUMMARIZE", .text "LEN", .int 7]

theorem Query.marks_stick_renewed :
    (calls { text := "*" } markingCalls).compile none = .ok markingTokens
      ∧ ∃ r : SearchReading, Reader.search markingTokens = some (r, [])
        ∧ (∃ b, r.highlight = some b ∧ b.fields = some [.text "a", .text "b"]
            ∧ b.tags = some (.text "FIELDS", .text "TAGS"))
        ∧ ∃ b, r.summary = some b ∧ b.fields = none
            ∧ (b.fragments, b.length, b.separator) = (none, some (.int 7), none) := by
  refine ⟨rfl, ?_⟩
  obtain ⟨r, hr, hh, hs, -⟩ := marks_stick "*" markingCalls none markingTokens rfl
  refine ⟨r, hr, ?_, ?_⟩
  · obtain ⟨b, hb⟩ := Option.isSome_iff_exists.mp (hh.called.mpr nofun)
    obtain ⟨m, hm, ho⟩ := hh.renews b hb
    cases hm
    exact ⟨b, hb, hh.keeps b hb, ho⟩
  · obtain ⟨b, hb⟩ := Option.isSome_iff_exists.mp (hs.called.mpr nofun)
    obtain ⟨m, hm, ho⟩ := hs.renews b hb
    cases hm
    exact ⟨b, hb, hs.keeps b hb, ho⟩

end FullText

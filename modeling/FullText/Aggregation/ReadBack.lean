import FullText.Aggregation.Reading

/-!
# A compiled aggregation reads back

* `Reader.reducers_append`, `Reader.stage_append`, …  the reader of a clause takes it back;
* `Aggregation.read?_compile`  the whole request reads back as `Aggregation.reading` has it.

A stage ends where the keyword of the next clause stands, so behind a stage only the keywords of
`stageKeywords` and of the clauses after all stages may follow.
-/

namespace FullText

open Reader

/-! ## every clause has its keyword -/

theorem Load.isClause (l : Load) : IsClause "LOAD" l.tokens := by
  cases l with
  | all => exact .inr rfl
  | fields fs =>
    cases fs
    · exact .inl rfl
    · exact .inr rfl

theorem CursorOptions.isClause (c : Option CursorOptions) :
    IsClause "WITHCURSOR" ((c.map CursorOptions.tokens).getD []) := by
  cases c
  · exact .inl rfl
  · exact .inr rfl

/-- the keywords of the stages -/
def stageKeywords : List String := ["GROUPBY", "SORTBY", "APPLY", "FILTER", "LIMIT"]

theorem Stage.head?_tokens (s : Stage) : ∃ k ∈ stageKeywords, s.tokens.head? = some (.text k) := by
  cases s with
  | groupBy fields reducers => exact ⟨"GROUPBY", by decide, rfl⟩
  | sortBy keys max => exact ⟨"SORTBY", by decide, rfl⟩
  | apply expression label => exact ⟨"APPLY", by decide, rfl⟩
  | filter expression => exact ⟨"FILTER", by decide, rfl⟩
  | limit offset count => exact ⟨"LIMIT", by decide, rfl⟩

theorem Stage.starts {ks : List String} (s : Stage) (ts : List Token) :
    Starts (stageKeywords ++ ks) (s.tokens ++ ts) := by
  intro k hk
  obtain ⟨k', hk', hs⟩ := s.head?_tokens
  rw [List.head?_append, hs] at hk
  cases hk
  exact List.mem_append_left _ hk'

theorem Stage.starts_flatMap {ks : List String} {rest : List Token} (h : Starts ks rest)
    (ss : List Stage) : Starts (stageKeywords ++ ks) (ss.flatMap Stage.tokens ++ rest) := by
  cases ss with
  | nil => exact fun s hs => List.mem_append_right _ (h s hs)
  | cons s ss =>
    rw [List.flatMap_cons, List.append_assoc]
    exact s.starts _

/-! ## every clause reads back -/

namespace Reader

variable {ks : List String} {rest : List Token}

theorem load_append (l : Load) (h : Starts ks rest) (hk : "LOAD" ∉ ks) :
    ∃ o, behind "LOAD" load (l.tokens ++ rest) = some (o, rest)
      ∧ o.getD (.fields []) = l.reading := by
  cases l with
  | all => exact ⟨_, behind_cons rfl, rfl⟩
  | fields fs =>
    cases fs with
    | nil => exact ⟨none, behind_none h hk, rfl⟩
    | cons f fs =>
      have hc := count_append ((f :: fs).flatMap FieldName.tokens) rest
      rw [FieldName.length_flatMap_tokens] at hc
      refine ⟨_, behind_cons (a := LoadReading.fields ((f :: fs).flatMap FieldName.tokens)) ?_, rfl⟩
      rw [load, bind_eq (a := false) rfl]
      show (count >>= _) (.nat (FieldName.widths (f :: fs)) :: (_ ++ rest)) = _
      rw [bind_eq hc]
      rfl

theorem reducer_append (r : Reducer) (h : Starts ks rest) (hk : "AS" ∉ ks) :
    behind "REDUCE" reducer (r.tokens ++ rest) = some (some r.reading, rest) := by
  refine behind_cons ?_
  show reducer (.text r.function :: .nat r.args.length :: ((r.args ++ _) ++ rest)) = _
  rw [List.append_assoc, reducer, bind_eq (any_cons _ _), bind_eq (count_append _ _),
    bind_eq (option_append _ h hk)]
  rfl

theorem reducers_append (rs : List Reducer) (h : Starts ks rest) (ha : "AS" ∉ ks)
    (hk : "REDUCE" ∉ ks) :
    repeated (behind "REDUCE" reducer) (rs.flatMap Reducer.tokens ++ rest)
      = some (rs.map Reducer.reading, rest) := by
  have hks : "AS" ∉ "REDUCE" :: ks := by simpa using ha
  refine repeated_append (P := Starts ("REDUCE" :: ks)) (fun r ts ht => reducer_append r ht hks)
    ?_ (fun r => List.cons_ne_nil _ _) (behind_none h hk)
    (fun s hs => List.mem_cons_of_mem _ (h s hs)) rs
  intro r ts _ s hs
  cases hs
  exact List.mem_cons_self

theorem stage_none (h : Starts ks rest) (hk : ∀ k ∈ stageKeywords, k ∉ ks) :
    stage rest = some (none, rest) := by
  rw [stage, bind_eq (flag_none h (hk "GROUPBY" (by decide)))]
  simp only [Bool.false_eq_true, if_false]
  rw [bind_eq (flag_none h (hk "SORTBY" (by decide)))]
  simp only [Bool.false_eq_true, if_false]
  rw [bind_eq (flag_none h (hk "APPLY" (by decide)))]
  simp only [Bool.false_eq_true, if_false]
  rw [bind_eq (flag_none h (hk "FILTER" (by decide)))]
  simp only [Bool.false_eq_true, if_false]
  rw [bind_eq (flag_none h (hk "LIMIT" (by decide)))]
  rfl

/-- Behind a stage there is none of the keywords of its own parts. -/
theorem stage_append (s : Stage) (h : Starts ks rest) (hk : ∀ k ∈ ["AS", "REDUCE", "MAX"], k ∉ ks) :
    stage (s.tokens ++ rest) = some (some s.reading, rest) := by
  cases s with
  | apply expression label => rfl
  | filter expression => rfl
  | limit offset count => rfl
  | groupBy fields reducers =>
    have hc := count_append (Token.names fields) (reducers.flatMap Reducer.tokens ++ rest)
    rw [Token.length_names] at hc
    show stage (.text "GROUPBY" :: ((.nat fields.length :: Token.names fields) ++ _ ++ rest)) = _
    rw [stage, bind_eq (a := true) rfl]
    simp only [if_true, List.append_assoc]
    show (count >>= _) (.nat fields.length :: (Token.names fields ++ _)) = _
    rw [bind_eq hc, bind_eq (reducers_append reducers h (hk "AS" (by decide))
      (hk "REDUCE" (by decide)))]
    rfl
  | sortBy keys max =>
    have hc := count_append (keys.flatMap SortKey.tokens)
      (Token.option "MAX" (max.map .int) ++ rest)
    rw [SortKey.length_flatMap_tokens] at hc
    show stage (.text "SORTBY" :: .nat (SortKey.widths keys) :: (_ ++ _ ++ rest)) = _
    rw [List.append_assoc, stage, bind_eq (a := false) rfl]
    simp only [Bool.false_eq_true, if_false]
    rw [bind_eq (a := true) rfl]
    simp only [if_true]
    rw [bind_eq hc, bind_eq (option_append _ h (hk "MAX" (by decide)))]
    rfl

theorem stages_append (ss : List Stage) (h : Starts ks rest)
    (hk : ∀ k ∈ ["AS", "REDUCE", "MAX"], k ∉ ks) (hs : ∀ k ∈ stageKeywords, k ∉ ks) :
    repeated stage (ss.flatMap Stage.tokens ++ rest) = some (ss.map Stage.reading, rest) := by
  have hks : ∀ k ∈ ["AS", "REDUCE", "MAX"], k ∉ stageKeywords ++ ks := by
    intro k hm
    have hd : ∀ k ∈ ["AS", "REDUCE", "MAX"], k ∉ stageKeywords := by decide
    exact fun he => (List.mem_append.mp he).elim (hd k hm) (hk k hm)
  refine repeated_append (P := Starts (stageKeywords ++ ks)) (fun s ts ht => stage_append s ht hks)
    (fun s ts _ => s.starts ts) ?_ (stage_none h hs)
    (fun s hs => List.mem_append_right _ (h s hs)) ss
  intro s hn
  obtain ⟨k, _, hh⟩ := s.head?_tokens
  rw [hn] at hh
  cases hh

theorem cursor_append (c : Option CursorOptions) (h : Starts ks rest) (hw : "WITHCURSOR" ∉ ks)
    (hc : "COUNT" ∉ ks) (hm : "MAXIDLE" ∉ ks) :
    behind "WITHCURSOR" cursor ((c.map CursorOptions.tokens).getD [] ++ rest)
      = some (c.map CursorOptions.reading, rest) := by
  cases c with
  | none => exact behind_none h hw
  | some c =>
    refine behind_cons ?_
    have h1 := h.append (Token.isClause_option "MAXIDLE" (c.maxIdle.map .int))
    show cursor ((_ ++ _) ++ rest) = _
    rw [List.append_assoc, cursor, bind_eq (option_append _ h1 (by simpa using hc)),
      bind_eq (option_append _ h hm)]
    rfl

end Reader

/-! ## the whole request -/

theorem Reader.aggregate_append (a : Aggregation) (default : Option Int) :
    aggregate (a.compile default) = some (a.reading default, []) := by
  simp only [Aggregation.compile, List.append_assoc]
  have h1 := (Starts.nil []).append (Dialect.isClause (Dialect.effective a.dialect default))
  have h2 := h1.append (Params.isClause a.params)
  have h3 := h2.append (CursorOptions.isClause a.cursor)
  have h4 := Stage.starts_flatMap h3 a.stages
  have h5 := h4.append (Token.isClause_option "TIMEOUT" (a.timeout.map .int))
  have h6 := h5.append (Load.isClause a.load)
  have hd := dialect_append (Dialect.effective a.dialect default) (Starts.nil []) (by decide)
  obtain ⟨load, hl, hle⟩ := load_append a.load h5 (by decide)
  simp only [List.append_nil] at *
  rw [aggregate, bind_eq (any_cons _ _), bind_eq (flag_append a.verbatim h6 (by decide)),
    bind_eq hl,
    bind_eq (option_append _ h4 (by decide)),
    bind_eq (stages_append a.stages h3 (by decide) (by decide)),
    bind_eq (cursor_append a.cursor h2 (by decide) (by decide) (by decide)),
    bind_eq (params_append a.params h1 (by decide)),
    bind_eq hd, hle]
  rfl

/-- A compiled aggregation reads back as what it has to say. -/
theorem Aggregation.read?_compile (a : Aggregation) (default : Option Int) :
    AggregateReading.read? (a.compile default) = some (a.reading default) := by
  rw [AggregateReading.read?, Reader.whole, StateT.run, Reader.aggregate_append a default]

end FullText

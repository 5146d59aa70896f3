import FullText.Query.Reading

/-!
# A compiled query reads back

* `Query.isClause_sort`, `Paging.isClause`, …  a clause is left out or starts with its keyword;
* `Reader.sort_append`, `Reader.highlight_append`, …  its reader takes it back;
* `Reader.search_append`     the whole query reads back as `Query.readingWith` has it.
-/

namespace FullText

open Reader

/-! ## every clause has its keyword -/

theorem Paging.isClause (p : Paging) : IsClause "LIMIT" p.tokens := by
  unfold Paging.tokens
  split
  · exact .inl rfl
  · exact .inr rfl

theorem Query.isClause_sort (q : Query) : IsClause "SORTBY" q.sortTokens := by
  unfold Query.sortTokens
  split
  · exact .inl rfl
  · exact .inr rfl

theorem Highlight.isClause (h : Option Highlight) :
    IsClause "HIGHLIGHT" ((h.map Highlight.tokens).getD []) := by
  cases h
  · exact .inl rfl
  · exact .inr rfl

theorem HighlightTags.isClause (t : Option HighlightTags) :
    IsClause "TAGS" ((t.map HighlightTags.tokens).getD []) := by
  cases t
  · exact .inl rfl
  · exact .inr rfl

theorem Summary.isClause (s : Option Summary) :
    IsClause "SUMMARIZE" ((s.map Summary.tokens).getD []) := by
  cases s
  · exact .inl rfl
  · exact .inr rfl

theorem Projection.isClause (p : Projection) : IsClause "RETURN" p.tokens := by
  obtain ⟨names, fields⟩ := p
  cases names with
  | cons n ns => exact .inr rfl
  | nil =>
    cases fields
    · exact .inl rfl
    · exact .inr rfl

/-! ## every clause reads back -/

namespace Reader

variable {ks : List String} {rest : List Token}

theorem paging_append (p : Paging) (h : Starts ks rest) (hk : "LIMIT" ∉ ks) :
    ∃ o, behind "LIMIT" pair (p.tokens ++ rest) = some (o, rest)
      ∧ o.getD (.int 0, .int 10) = (.int p.offset, .int p.count) := by
  unfold Paging.tokens
  split
  · rename_i hp
    subst hp
    exact ⟨none, behind_none h hk, rfl⟩
  · exact ⟨_, behind_cons rfl, rfl⟩

theorem sort_append (q : Query) (h : Starts ks rest) (hk : "SORTBY" ∉ ks) (ha : "ASC" ∉ ks)
    (hd : "DESC" ∉ ks) :
    behind "SORTBY" sort (q.sortTokens ++ rest) = some (q.sort.map SortKey.reading, rest) := by
  unfold Query.sortTokens
  cases hs : q.sort with
  | none => exact behind_none h hk
  | some k =>
    refine behind_cons ?_
    obtain ⟨field, direction⟩ := k
    cases direction with
    | none =>
      show sort (.text field :: rest) = _
      have hn : either "ASC" "DESC" rest = some (none, rest) := by
        rw [either, bind_eq (flag_none h ha)]
        simp only [Bool.false_eq_true, if_false]
        rw [bind_eq (flag_none h hd)]
        rfl
      rw [sort, bind_eq (any_cons _ _), bind_eq hn]
      rfl
    | some d => cases d <;> rfl

theorem fields_append (o : Option (List String)) (h : Starts ks rest) (hk : "FIELDS" ∉ ks) :
    counted "FIELDS" (fieldsTokens o ++ rest) = some (o.map Token.names, rest) := by
  cases o with
  | none => exact behind_none h hk
  | some fs => exact counted_append "FIELDS" fs rest

theorem tags_append (o : Option HighlightTags) (h : Starts ks rest) (hk : "TAGS" ∉ ks) :
    behind "TAGS" pair ((o.map HighlightTags.tokens).getD [] ++ rest)
      = some (o.map HighlightTags.reading, rest) := by
  cases o with
  | none => exact behind_none h hk
  | some t => exact behind_cons rfl

theorem highlight_append (o : Option Highlight) (h : Starts ks rest) (hk : "HIGHLIGHT" ∉ ks)
    (hf : "FIELDS" ∉ ks) (ht : "TAGS" ∉ ks) :
    behind "HIGHLIGHT" highlight ((o.map Highlight.tokens).getD [] ++ rest)
      = some (o.map Highlight.reading, rest) := by
  cases o with
  | none => exact behind_none h hk
  | some x =>
    refine behind_cons ?_
    show highlight ((_ ++ _) ++ rest) = _
    rw [List.append_assoc, highlight,
      bind_eq (fields_append x.fields (h.append (HighlightTags.isClause x.tags))
        (by simpa using hf)),
      bind_eq (tags_append x.tags h ht)]
    rfl

theorem summary_append (o : Option Summary) (h : Starts ks rest) (hk : "SUMMARIZE" ∉ ks)
    (hs : ∀ k ∈ ["FIELDS", "FRAGS", "LEN", "SEPARATOR"], k ∉ ks) :
    behind "SUMMARIZE" summary ((o.map Summary.tokens).getD [] ++ rest)
      = some (o.map Summary.reading, rest) := by
  have hf := hs "FIELDS" (by decide)
  have hr := hs "FRAGS" (by decide)
  have hl := hs "LEN" (by decide)
  have hp := hs "SEPARATOR" (by decide)
  cases o with
  | none => exact behind_none h hk
  | some x =>
    refine behind_cons ?_
    have h1 := h.append (Token.isClause_option "SEPARATOR" (x.separator.map .text))
    have h2 := h1.append (Token.isClause_option "LEN" (x.length.map .int))
    have h3 := h2.append (Token.isClause_option "FRAGS" (x.fragments.map .int))
    show summary ((_ ++ _ ++ _ ++ _) ++ rest) = _
    simp only [List.append_assoc]
    rw [summary, bind_eq (fields_append x.fields h3 (by simpa using hf)),
      bind_eq (option_append _ h2 (by simpa using hr)),
      bind_eq (option_append _ h1 (by simpa using hl)),
      bind_eq (option_append _ h hp)]
    rfl

theorem projection_append (p : Projection) (h : Starts ks rest) (hk : "RETURN" ∉ ks) :
    countedOrEmpty "RETURN" (p.tokens ++ rest) = some (p.reading, rest) := by
  obtain ⟨names, fields⟩ := p
  cases names with
  | cons n ns => exact countedOrEmpty_append (n :: ns) h hk
  | nil =>
    cases fields with
    | nil => exact countedOrEmpty_eq (o := none) (behind_none h hk)
    | cons f fs =>
      have hc := count_append ((f :: fs).flatMap FieldName.tokens) rest
      rw [FieldName.length_flatMap_tokens] at hc
      exact countedOrEmpty_eq (o := some _) (behind_cons hc)

theorem filter_append (f : FilterReading) (ts : List Token) :
    filter (f.tokens ++ ts) = some (some f, ts) := by
  cases f <;> rfl

theorem filter_none (h : Starts ks rest) (hf : "FILTER" ∉ ks) (hg : "GEOFILTER" ∉ ks) :
    filter rest = some (none, rest) := by
  rw [filter, bind_eq (flag_none h hf)]
  simp only [Bool.false_eq_true, if_false]
  rw [bind_eq (flag_none h hg)]
  rfl

theorem filters_append (fs : List FilterReading) (h : Starts ks rest) (hf : "FILTER" ∉ ks)
    (hg : "GEOFILTER" ∉ ks) :
    repeated filter (fs.flatMap FilterReading.tokens ++ rest) = some (fs, rest) := by
  have hr : repeated filter (fs.flatMap FilterReading.tokens ++ rest) = some (fs.map id, rest) :=
    repeated_append (P := fun _ => True) (fun f ts _ => filter_append f ts)
      (fun _ _ _ => trivial) (fun f => by cases f <;> simp [FilterReading.tokens])
      (filter_none h hf hg) trivial fs
  rw [hr, List.map_id]

end Reader

theorem Filter.tokens_eq (f : Filter) : f.tokens = f.reading.map FilterReading.tokens := by
  cases f with
  | geo f => rfl
  | numeric f =>
    simp only [Filter.tokens, Filter.reading, NumericFilter.tokens]
    cases (f.minimum.formatBound f.exclusiveMin).mapError Fault.badNumeral with
    | error e => rfl
    | ok low =>
      cases (f.maximum.formatBound f.exclusiveMax).mapError Fault.badNumeral with
      | error e => rfl
      | ok high => rfl

theorem Filter.mapM_tokens (fs : List Filter) :
    fs.mapM Filter.tokens = (fs.mapM Filter.reading).map (List.map FilterReading.tokens) := by
  induction fs with
  | nil => rfl
  | cons f fs ih =>
    rw [List.mapM_cons, List.mapM_cons, Filter.tokens_eq, ih]
    cases f.reading with
    | error e => rfl
    | ok r => cases fs.mapM Filter.reading <;> rfl

theorem Filter.allTokens_eq (fs : List Filter) :
    Filter.allTokens fs
      = (fs.mapM Filter.reading).map fun rs => rs.flatMap FilterReading.tokens := by
  rw [Filter.allTokens, Filter.mapM_tokens]
  cases fs.mapM Filter.reading <;> rfl

theorem FilterReading.starts {ks : List String} {rest : List Token} (h : Starts ks rest)
    (fs : List FilterReading) :
    Starts ("FILTER" :: "GEOFILTER" :: ks) (fs.flatMap FilterReading.tokens ++ rest) := by
  intro s hs
  cases fs with
  | nil => exact List.mem_cons_of_mem _ (List.mem_cons_of_mem _ (h s hs))
  | cons f fs =>
    cases f with
    | numeric => cases hs; exact List.mem_cons_self
    | geo => cases hs; exact List.mem_cons_of_mem _ List.mem_cons_self

/-! ## the whole query -/

theorem Reader.search_append (q : Query) (default : Option Int) (fs : List FilterReading) :
    search (q.head ++ fs.flatMap FilterReading.tokens ++ q.tail default)
      = some (q.readingWith default fs, []) := by
  simp only [Query.head, Query.tail, List.cons_append, List.append_assoc]
  have h0 := Starts.nil []
  have h1 := h0.append (Token.isClause_option "EXPANDER" (q.expander.map .text))
  have h2 := h1.append (Token.isClause_flag "INORDER" q.inOrder)
  have h3 := h2.append (Token.isClause_option "TIMEOUT" (q.timeout.map .nat))
  have h4 := h3.append (Token.isClause_option "SLOP" (q.slop.map .nat))
  have h5 := h4.append (Dialect.isClause (Dialect.effective q.dialect default))
  have h6 := h5.append (Params.isClause q.params)
  have h7 := h6.append (Projection.isClause q.projection)
  have h8 := h7.append (Token.isClause_counted "INKEYS" q.inKeys)
  have h9 := h8.append (Summary.isClause q.summary)
  have h10 := h9.append (Highlight.isClause q.highlight)
  have h11 := FilterReading.starts h10 fs
  have h12 := h11.append (Paging.isClause q.paging)
  have h13 := h12.append (Token.isClause_option "PAYLOAD" (q.payload.map .text))
  have h14 := h13.append (Query.isClause_sort q)
  have h15 := h14.append (Token.isClause_counted "INFIELDS" q.inFields)
  have h16 := h15.append (Token.isClause_option "SCORER" (q.scorer.map .text))
  have h17 := h16.append (Token.isClause_option "LANGUAGE" (q.language.map .text))
  have h18 := h17.append (Token.isClause_flag "WITHPAYLOADS" q.withPayloads)
  have h19 := h18.append (Token.isClause_flag "WITHSCORES" q.withScores)
  have h20 := h19.append (Token.isClause_flag "NOSTOPWORDS" q.noStopwords)
  have h21 := h20.append (Token.isClause_flag "NOCONTENT" q.noContent)
  have he := option_append (q.expander.map .text) h0 (k := "EXPANDER") (by decide)
  obtain ⟨paging, hp, hpe⟩ := paging_append q.paging h11 (by decide)
  simp only [List.append_nil] at *
  rw [search, bind_eq (any_cons _ _), bind_eq (flag_append q.verbatim h21 (by decide)),
    bind_eq (flag_append q.noContent h20 (by decide)),
    bind_eq (flag_append q.noStopwords h19 (by decide)),
    bind_eq (flag_append q.withScores h18 (by decide)),
    bind_eq (flag_append q.withPayloads h17 (by decide)),
    bind_eq (option_append _ h16 (by decide)),
    bind_eq (option_append _ h15 (by decide)),
    bind_eq (countedOrEmpty_append _ h14 (by decide)),
    bind_eq (sort_append q h13 (by decide) (by decide) (by decide)),
    bind_eq (option_append _ h12 (by decide)),
    bind_eq hp,
    bind_eq (filters_append fs h10 (by decide) (by decide)),
    bind_eq (highlight_append _ h9 (by decide) (by decide) (by decide)),
    bind_eq (summary_append _ h8 (by decide) (by decide)),
    bind_eq (countedOrEmpty_append _ h7 (by decide)),
    bind_eq (projection_append _ h6 (by decide)),
    bind_eq (params_append _ h5 (by decide)),
    bind_eq (dialect_append _ h4 (by decide)),
    bind_eq (option_append _ h3 (by decide)),
    bind_eq (option_append _ h2 (by decide)),
    bind_eq (flag_append _ h1 (by decide)),
    bind_eq he, hpe]
  rfl

end FullText

import FullText.Query.Call
import FullText.Query.ReadBack

/-!
# Search commands can be read in one way only

* `Reader.search_compile`    the tokens of a query are read to their end, and give its reading;
* `Query.uniquely_readable`  so it is for every query that calls can build, and no query with
                             another reading has the same tokens.

The reader knows nothing of the query: it takes every count at face value, and a text for a keyword
only because of where it stands.  So a text of the caller may spell any keyword.
-/

namespace FullText

theorem Query.reading_of_filters {q : Query} (default : Option Int) {fs : List FilterReading}
    (h : q.filters.mapM Filter.reading = .ok fs) :
    q.reading default = .ok (q.readingWith default fs) := by
  rw [Query.reading, h]
  rfl

theorem Reader.search_compile {q : Query} {default : Option Int} {ts : List Token}
    (h : q.compile default = .ok ts) :
    ∃ fs, q.filters.mapM Filter.reading = .ok fs
      ∧ search ts = some (q.readingWith default fs, []) := by
  rw [Query.compile, Filter.allTokens_eq] at h
  cases hf : q.filters.mapM Filter.reading with
  | error e =>
    rw [hf] at h
    cases h
  | ok fs =>
    rw [hf] at h
    cases h
    exact ⟨fs, rfl, search_append q default fs⟩

/-- Whatever calls have built a query, its tokens are read to their end and give back every option
    of it, and no query with another reading has the same tokens. -/
theorem Query.uniquely_readable (text : String) (cs : List Query.Call) (default : Option Int)
    (ts : List Token) (h : (Query.calls { text := text } cs).compile default = .ok ts) :
    ∃ fs, (Query.calls { text := text } cs).filters.mapM Filter.reading = .ok fs
      ∧ Reader.search ts = some ((Query.calls { text := text } cs).readingWith default fs, [])
      ∧ ∀ (q : Query) (d : Option Int), q.compile d = .ok ts →
          q.reading d = .ok ((Query.calls { text := text } cs).readingWith default fs) := by
  obtain ⟨fs, hf, hs⟩ := Reader.search_compile h
  refine ⟨fs, hf, hs, fun q d hq => ?_⟩
  obtain ⟨fs', hf', hs'⟩ := Reader.search_compile hq
  have he := Option.some.inj (hs.symm.trans hs')
  rw [Query.reading_of_filters d hf', (Prod.mk.inj he).1]

/-- calls whose texts are keywords of the clauses around them -/
def Query.keywordCalls : List Query.Call :=
  [.verbatim true, .language "NOCONTENT", .scorer "WITHSCORES", .limitFields ["SORTBY", "LIMIT"],
    .sortBy ⟨"PAYLOAD", none⟩, .payload "ASC", .limit 0 3,
    .numericFilter ⟨"GEOFILTER", .int 1, .int 2, true, false⟩,
    .highlight .all (some ⟨"TAGS", "FIELDS"⟩),
    .summarize (.only ["LEN"]) (some 3) none (some "INKEYS"), .returnField ⟨"AS", some "RETURN"⟩,
    .returnField ⟨"PARAMS", none⟩, .param "DIALECT" (.text "SLOP"), .dialect 0, .slop (-2),
    .timeout 0, .expander "INORDER"]

/-- the tokens of those calls under the default dialect 3 -/
def Query.keywordTokens : List Token :=
  [.text "VERBATIM", .text "VERBATIM", .text "LANGUAGE", .text "NOCONTENT", .text "SCORER",
    .text "WITHSCORES", .text "INFIELDS", .nat 2, .text "SORTBY", .text "LIMIT", .text "SORTBY",
    .text "PAYLOAD", .text "PAYLOAD", .text "ASC", .text "LIMIT", .int 0, .int 3, .text "FILTER",
    .text "GEOFILTER", .text "(1", .text "2", .text "HIGHLIGHT", .text "TAGS", .text "TAGS",
    .text "FIELDS", .text "SUMMARIZE", .text "FIELDS", .nat 1, .text "LEN", .text "LEN", .int 3,
    .text "SEPARATOR", .text "INKEYS", .text "RETURN", .nat 4, .text "AS", .text "AS",
    .text "RETURN", .text "PARAMS", .text "PARAMS", .nat 2, .text "DIALECT", .text "SLOP",
    .text "DIALECT", .int 3, .text "TIMEOUT", .nat 0, .text "EXPANDER", .text "INORDER"]

theorem Query.compile_keywordCalls :
    (Query.calls { text := "VERBATIM" } keywordCalls).compile (some 3) = .ok keywordTokens := by
  rfl

theorem Query.uniquely_readable_keywords :
    (Query.calls { text := "VERBATIM" } keywordCalls).compile (some 3) = .ok keywordTokens
      ∧ ∃ r, Reader.search keywordTokens = some (r, []) ∧ r.language = some (.text "NOCONTENT")
        ∧ r.noContent = false ∧ r.withScores = false := by
  refine ⟨compile_keywordCalls, ?_⟩
  obtain ⟨fs, _, hs, _⟩ :=
    uniquely_readable "VERBATIM" keywordCalls (some 3) keywordTokens compile_keywordCalls
  exact ⟨_, hs, rfl, rfl, rfl⟩

end FullText

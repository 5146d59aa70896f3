import FullText.Proofs.Iteration
import FullText.Proofs.Search.Engine
import FullText.Proofs.Search.UniqueReading

/-!
# Searches from end to end

* `AnswersSearches t found`   the other side of `t` reads a search by its grammar alone, and lays out
                              what it finds by the options that it has read;
* `Query.shape_readingWith`   the options that are read are those that the decoder goes by;
* `Client.search_answered`    a search gives the documents of the hits that the engine has found.

What the engine finds is arbitrary: it may depend on the whole command and on its own state.
-/

namespace FullText

/-- The other side of a transport answers searches: it reads the command by its grammar, and lays
    out the total and the hits that it finds by the options that it has read. -/
def AnswersSearches {σ : Type} (t : Transport σ) (found : List Token → σ → Int × List Hit) : Prop :=
  ∀ command r x, SearchReading.ofCommand? command = some r →
    ∃ reply, (t command x).1 = .ok reply ∧ Answers r (found command x).1 (found command x).2 reply

/-- The flags in the tokens and the shape that the decoder gets are the same options. -/
theorem Query.shape_readingWith (q : Query) (default : Option Int) (fs : List FilterReading) :
    (q.readingWith default fs).shape = q.shape := rfl

theorem Client.search_of_compile {q : Query} {default : Option Int} {ts : List Token}
    (index : String) (h : q.compile default = .ok ts) :
    search index q default
      = .asking (.text "FT.SEARCH" :: .text index :: ts) (SearchResult.decode q.shape) := by
  refine search_of_ok ?_
  rw [Command.search, h]
  rfl

theorem SearchReading.ofCommand?_search {q : Query} {default : Option Int} {ts : List Token}
    (index : String) (h : q.compile default = .ok ts) :
    ∃ r, ofCommand? (.text "FT.SEARCH" :: .text index :: ts) = some r ∧ r.shape = q.shape := by
  obtain ⟨fs, _, hs⟩ := Reader.search_compile h
  refine ⟨q.readingWith default fs, ?_, q.shape_readingWith default fs⟩
  rw [ofCommand?, if_pos rfl, read?, Reader.whole, StateT.run, hs]

/-- Whatever calls have built a query, and whatever an engine finds for it: the search sends one
    command, and gives the total, and for every hit its document in the order of the hits. -/
theorem Client.search_answered {σ : Type} {t : Transport σ}
    {found : List Token → σ → Int × List Hit} (ht : AnswersSearches t found) (x : σ)
    (index text : String) (cs : List Query.Call) (default : Option Int) (ts : List Token)
    (h : (Query.calls { text := text } cs).compile default = .ok ts) :
    ∃ command r, command = .text "FT.SEARCH" :: .text index :: ts
      ∧ SearchReading.ofCommand? command = some r
      ∧ r.shape = (Query.calls { text := text } cs).shape
      ∧ (search index (Query.calls { text := text } cs) default).run t x
          = ⟨.ok ⟨(found command x).1, (found command x).2.map (Hit.document r), !r.noContent⟩,
              [command], (t command x).2⟩ := by
  obtain ⟨r, hr, hshape⟩ := SearchReading.ofCommand?_search index h
  obtain ⟨reply, hreply, ha⟩ := ht _ r x hr
  refine ⟨_, r, rfl, hr, hshape, ?_⟩
  rw [search_of_compile index h, ← hshape, Exchange.run_asking, hreply]
  show Run.mk (SearchResult.decode r.shape reply) _ _ = _
  rw [decode_answers ha]

/-! ## an engine with two hits -/

/-- a hit with a payload, and with a field that has two values -/
def Hit.twice : Hit where
  id := "doc:1"
  scoreText := " 1e1 "
  score := .ofRatio false 10 1
  payload := some "LIMIT"
  fields := some [("a", .text "1"), ("b", .int 2), ("a", .text "3")]
  score_reads := by decide +kernel

/-- a hit without a payload and without fields -/
def Hit.bare : Hit where
  id := "é"
  scoreText := "-inf"
  score := .infinite true
  payload := none
  fields := none
  score_reads := by decide +kernel

/-- the elements of the two hits for a command that reads as `r`, some of the texts as bytes -/
def twoHits (r : SearchReading) : List (List Value) :=
  [.text "doc:1" :: ((if r.withScores then [.bytes (Text.Utf8.encode " 1e1 ")] else [])
      ++ (if r.withPayloads then [.bytes (Text.Utf8.encode "LIMIT")] else [])
      ++ (if r.noContent then [] else
          [.tuple [.text "a", .text "1", .bytes (Text.Utf8.encode "b"), .int 2, .text "a",
            .bytes (Text.Utf8.encode "3")]])),
    .bytes (Text.Utf8.encode "é") :: ((if r.withScores then [.text "-inf"] else [])
      ++ (if r.withPayloads then [.nil] else []) ++ (if r.noContent then [] else [.nil]))]

/-- an engine that has the two hits for every search, out of nine -/
def twoHitsEngine : Transport Unit := fun command x =>
  match SearchReading.ofCommand? command with
  | some r => (.ok (.array (.int 9 :: (twoHits r).flatten)), x)
  | none => (.error "syntax error", x)

theorem answersSearches_twoHitsEngine :
    AnswersSearches twoHitsEngine fun _ _ => (9, [Hit.twice, Hit.bare]) := by
  intro command r x h
  refine ⟨.array (.int 9 :: (twoHits r).flatten), by rw [twoHitsEngine, h], twoHits r, ?_, rfl⟩
  refine .cons (.intro (.text _) (.bytes _) (.bytes _) (.array rfl ?_))
    (.cons (.intro (.bytes _) (.text _) .nil .nil) .nil)
  exact .cons (.text _) (.cons (.text _) (.cons (.bytes _) (.cons (.int _) (.cons (.text _)
    (.cons (.bytes _) .nil)))))

/-- calls that ask for scores and payloads, and name a language like another option -/
def Query.scoredCalls : List Query.Call :=
  [.noContent true, .withScores true, .language "NOCONTENT", .withPayloads true, .noContent false]

theorem Client.search_answered_twice :
    (search "idx" (Query.calls { text := "NOCONTENT" } Query.scoredCalls) none).run twoHitsEngine ()
      = ⟨.ok ⟨9, [⟨"doc:1", some Hit.twice.score, some "LIMIT",
              ⟨[("a", .text "3"), ("b", .int 2)]⟩⟩, ⟨"é", some (.infinite true), none, ⟨[]⟩⟩], true⟩,
          [[.text "FT.SEARCH", .text "idx", .text "NOCONTENT", .text "WITHSCORES",
            .text "WITHPAYLOADS", .text "LANGUAGE", .text "NOCONTENT"]], ()⟩ := by
  obtain ⟨_, r, rfl, _, hs, hrun⟩ := search_answered answersSearches_twoHitsEngine () "idx"
    "NOCONTENT" Query.scoredCalls none _ rfl
  have hn : r.noContent = false := congrArg ReplyShape.noContent hs
  have hw : r.withScores = true := congrArg ReplyShape.withScores hs
  have hp : r.withPayloads = true := congrArg ReplyShape.withPayloads hs
  rw [hrun]
  simp only [List.map_cons, List.map_nil, Hit.document, hn, hw, hp, if_true]
  rfl

end FullText

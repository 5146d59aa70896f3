import FullText.Grammar.Search
import FullText.Grammar.Shared
import FullText.Query

/-!
# What the tokens of a query say

* `Query.reading`  what the command of a query has to say under a default dialect.

This is the meaning of the options of a query without regard to how they are written.
-/

namespace FullText

/-- what the clause of a filter says; its bounds are texts, the numbers of a circle stay numbers -/
def Filter.reading : Filter → Except Fault FilterReading
  | .numeric f => do
    let low ← (f.minimum.formatBound f.exclusiveMin).mapError .badNumeral
    let high ← (f.maximum.formatBound f.exclusiveMax).mapError .badNumeral
    return .numeric (.text f.property) (.text low) (.text high)
  | .geo f => .ok (.geo (.text f.property) (.number f.longitude) (.number f.latitude)
      (.number f.radius) (.text f.unit.name))

def HighlightTags.reading (t : HighlightTags) : Token × Token := (.text t.openTag, .text t.closeTag)

def Highlight.reading (h : Highlight) : HighlightReading :=
  ⟨h.fields.map Token.names, h.tags.map HighlightTags.reading⟩

def Summary.reading (s : Summary) : SummaryReading :=
  ⟨s.fields.map Token.names, s.fragments.map .int, s.length.map .int, s.separator.map .text⟩

def SortKey.reading (k : SortKey) : Token × Option Token :=
  (.text k.field, k.direction.map fun d => .text d.keyword)

/-- the tokens of the returned fields: the names alone if there are any -/
def Projection.reading (p : Projection) : List Token :=
  if p.names = [] then p.fields.flatMap FieldName.tokens else Token.names p.names

namespace Query

/-- what the command of a query has to say, given what its filters say -/
def readingWith (q : Query) (default : Option Int) (filters : List FilterReading) :
    SearchReading where
  text := .text q.text
  verbatim := q.verbatim
  noContent := q.noContent
  noStopwords := q.noStopwords
  withScores := q.withScores
  withPayloads := q.withPayloads
  language := q.language.map .text
  scorer := q.scorer.map .text
  inFields := Token.names q.inFields
  sort := q.sort.map SortKey.reading
  payload := q.payload.map .text
  paging := (.int q.paging.offset, .int q.paging.count)
  filters := filters
  highlight := q.highlight.map Highlight.reading
  summary := q.summary.map Summary.reading
  inKeys := Token.names q.inKeys
  projection := q.projection.reading
  params := Params.reading q.params
  dialect := Dialect.reading (Dialect.effective q.dialect default)
  slop := q.slop.map .nat
  timeout := q.timeout.map .nat
  inOrder := q.inOrder
  expander := q.expander.map .text

def reading (q : Query) (default : Option Int) : Except Fault SearchReading :=
  q.readingWith default <$> q.filters.mapM Filter.reading

end Query

end FullText

import FullText.Grammar.Reader

/-!
# The grammar of search commands

* `SearchReading`        what the tokens of a search say, clause by clause;
* `SearchReading.read?`  the reading of a list of tokens, none if it is not of the grammar.

The clauses come in one order, each at most once, but for the filters, of which there may be many.
-/

namespace FullText

/-- what the clause of a filter says -/
inductive FilterReading where
  | numeric (property low high : Token)
  | geo (property longitude latitude radius unit : Token)
  deriving DecidableEq, Repr

/-- the clause that says so -/
def FilterReading.tokens : FilterReading → List Token
  | .numeric property low high => [.text "FILTER", property, low, high]
  | .geo property longitude latitude radius unit =>
    [.text "GEOFILTER", property, longitude, latitude, radius, unit]

/-- what the clause of a highlight says -/
structure HighlightReading where
  fields : Option (List Token)
  tags : Option (Token × Token)
  deriving DecidableEq, Repr

/-- what the clause of a summary says -/
structure SummaryReading where
  fields : Option (List Token)
  fragments : Option Token
  length : Option Token
  separator : Option Token
  deriving DecidableEq, Repr

structure SearchReading where
  text : Token
  verbatim : Bool
  noContent : Bool
  noStopwords : Bool
  withScores : Bool
  withPayloads : Bool
  language : Option Token
  scorer : Option Token
  inFields : List Token
  sort : Option (Token × Option Token)
  payload : Option Token
  paging : Token × Token
  filters : List FilterReading
  highlight : Option HighlightReading
  summary : Option SummaryReading
  inKeys : List Token
  projection : List Token
  params : List (Token × Token)
  dialect : Option Token
  slop : Option Token
  timeout : Option Token
  inOrder : Bool
  expander : Option Token
  deriving DecidableEq, Repr

namespace Reader

/-- a filter, if the next token is the keyword of one -/
def filter : Reader (Option FilterReading) := do
  if ← flag "FILTER" then
    let property ← any
    let low ← any
    let high ← any
    return some (.numeric property low high)
  else if ← flag "GEOFILTER" then
    let property ← any
    let longitude ← any
    let latitude ← any
    let radius ← any
    let unit ← any
    return some (.geo property longitude latitude radius unit)
  else return none

/-- the field to sort by, and a direction if there is one -/
def sort : Reader (Token × Option Token) := do
  let field ← any
  let direction ← either "ASC" "DESC"
  return (field, direction)

def highlight : Reader HighlightReading := do
  let fields ← counted "FIELDS"
  let tags ← behind "TAGS" pair
  return ⟨fields, tags⟩

def summary : Reader SummaryReading := do
  let fields ← counted "FIELDS"
  let fragments ← option "FRAGS"
  let length ← option "LEN"
  let separator ← option "SEPARATOR"
  return ⟨fields, fragments, length, separator⟩

/-- the whole of a search behind its index -/
def search : Reader SearchReading := do
  let text ← any
  let verbatim ← flag "VERBATIM"
  let noContent ← flag "NOCONTENT"
  let noStopwords ← flag "NOSTOPWORDS"
  let withScores ← flag "WITHSCORES"
  let withPayloads ← flag "WITHPAYLOADS"
  let language ← option "LANGUAGE"
  let scorer ← option "SCORER"
  let inFields ← countedOrEmpty "INFIELDS"
  let sort ← behind "SORTBY" sort
  let payload ← option "PAYLOAD"
  let paging ← behind "LIMIT" pair
  let filters ← repeated filter
  let highlight ← behind "HIGHLIGHT" highlight
  let summary ← behind "SUMMARIZE" summary
  let inKeys ← countedOrEmpty "INKEYS"
  let projection ← countedOrEmpty "RETURN"
  let params ← params
  let dialect ← option "DIALECT"
  let slop ← option "SLOP"
  let timeout ← option "TIMEOUT"
  let inOrder ← flag "INORDER"
  let expander ← option "EXPANDER"
  return {
    text, verbatim, noContent, noStopwords, withScores, withPayloads, language, scorer, inFields
    sort, payload, paging := paging.getD (.int 0, .int 10), filters, highlight, summary, inKeys
    projection, params, dialect, slop, timeout, inOrder, expander }

end Reader

namespace SearchReading

/-- the reading of the tokens behind the index, none if they are not of the grammar -/
def read? (ts : List Token) : Option SearchReading := Reader.search.whole ts

/-- the reading of a complete search command -/
def ofCommand? : List Token → Option SearchReading
  | name :: _ :: ts => if name = .text "FT.SEARCH" then read? ts else none
  | _ => none

end SearchReading

end FullText

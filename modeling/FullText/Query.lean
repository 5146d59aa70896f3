import FullText.Dialect
import FullText.Field
import FullText.Filter
import FullText.Params
import FullText.ReplyShape

/-!
# Search queries and their compilation

* `Query`          a search request: its text and every option that a caller can set;
* `Query.shape`    the options that decide how the reply is laid out;
* `Query.compile`  the tokens of the request, its clauses in the order that the engine asks for;
* `Query.literal`  the query on one line.

A clause appears only if its option is set.  Compiling fails only if a bound of a numeric filter
has no text.
-/

namespace FullText

/-- the page of the result: how many documents are skipped and how many are wanted -/
structure Paging where
  offset : Int := 0
  count : Int := 10
  deriving DecidableEq, Repr

/-- the texts around a highlighted term -/
structure HighlightTags where
  openTag : String
  closeTag : String
  deriving DecidableEq, Repr

/-- terms of the query are marked in the given fields, or in all of them -/
structure Highlight where
  fields : Option (List String) := none
  tags : Option HighlightTags := none
  deriving DecidableEq, Repr

/-- fragments around the terms of the query, in the given fields or in all of them -/
structure Summary where
  fields : Option (List String) := none
  fragments : Option Int := none
  length : Option Int := none
  separator : Option String := none
  deriving DecidableEq, Repr

/-- the fields that are returned: those given by their names alone, and those that may have a label -/
structure Projection where
  names : List String := []
  fields : List FieldName := []
  deriving DecidableEq, Repr

/-- a search request -/
structure Query where
  text : String := "*"
  verbatim : Bool := false
  noContent : Bool := false
  noStopwords : Bool := false
  withScores : Bool := false
  withPayloads : Bool := false
  language : Option String := none
  scorer : Option String := none
  inFields : List String := []
  sort : Option SortKey := none
  payload : Option String := none
  paging : Paging := {}
  filters : List Filter := []
  highlight : Option Highlight := none
  summary : Option Summary := none
  inKeys : List String := []
  projection : Projection := {}
  params : Params := {}
  dialect : Option Int := none
  slop : Option Nat := none
  timeout : Option Nat := none
  inOrder : Bool := false
  expander : Option String := none
  deriving DecidableEq, Repr

/-! ## clauses -/

/-- the page, left out if it is the first ten documents -/
def Paging.tokens (p : Paging) : List Token :=
  if p = {} then [] else [.text "LIMIT", .int p.offset, .int p.count]

/-- the fields of a highlight or a summary, left out if all fields are meant -/
def fieldsTokens : Option (List String) → List Token
  | none => []
  | some fs => Token.counted "FIELDS" fs

def HighlightTags.tokens (t : HighlightTags) : List Token :=
  [.text "TAGS", .text t.openTag, .text t.closeTag]

def Highlight.tokens (h : Highlight) : List Token :=
  .text "HIGHLIGHT" :: (fieldsTokens h.fields ++ (h.tags.map HighlightTags.tokens).getD [])

def Summary.tokens (s : Summary) : List Token :=
  .text "SUMMARIZE" :: (fieldsTokens s.fields
    ++ Token.option "FRAGS" (s.fragments.map .int)
    ++ Token.option "LEN" (s.length.map .int)
    ++ Token.option "SEPARATOR" (s.separator.map .text))

/-- the returned fields, left out if none is given; names alone go before the others -/
def Projection.tokens (p : Projection) : List Token :=
  if !p.names.isEmpty then Token.counted "RETURN" p.names
  else if !p.fields.isEmpty then FieldName.counted "RETURN" p.fields
  else []

namespace Query

/-- the field to sort by, and the direction if there is one -/
def sortTokens (q : Query) : List Token :=
  match q.sort with
  | none => []
  | some k => .text "SORTBY" :: k.tokens

/-- the clauses before the filters -/
def head (q : Query) : List Token :=
  .text q.text :: (Token.flag "VERBATIM" q.verbatim
    ++ Token.flag "NOCONTENT" q.noContent
    ++ Token.flag "NOSTOPWORDS" q.noStopwords
    ++ Token.flag "WITHSCORES" q.withScores
    ++ Token.flag "WITHPAYLOADS" q.withPayloads
    ++ Token.option "LANGUAGE" (q.language.map .text)
    ++ Token.option "SCORER" (q.scorer.map .text)
    ++ Token.countedUnlessEmpty "INFIELDS" q.inFields
    ++ q.sortTokens
    ++ Token.option "PAYLOAD" (q.payload.map .text)
    ++ q.paging.tokens)

/-- the clauses behind the filters, under the given default dialect -/
def tail (q : Query) (default : Option Int) : List Token :=
  (q.highlight.map Highlight.tokens).getD []
    ++ (q.summary.map Summary.tokens).getD []
    ++ Token.countedUnlessEmpty "INKEYS" q.inKeys
    ++ q.projection.tokens
    ++ Params.tokens q.params
    ++ Dialect.tokens (Dialect.effective q.dialect default)
    ++ Token.option "SLOP" (q.slop.map .nat)
    ++ Token.option "TIMEOUT" (q.timeout.map .nat)
    ++ Token.flag "INORDER" q.inOrder
    ++ Token.option "EXPANDER" (q.expander.map .text)

/-- the tokens of the request, under the given default dialect -/
def compile (q : Query) (default : Option Int) : Except Fault (List Token) :=
  (fun filters => q.head ++ filters ++ q.tail default) <$> Filter.allTokens q.filters

def shape (q : Query) : ReplyShape := ⟨q.noContent, q.withScores, q.withPayloads, false⟩

def literal (q : Query) : String := "Query(" ++ Text.quoted q.text ++ ")"

end Query

end FullText

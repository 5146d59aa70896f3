import FullText.Building
import FullText.Query

/-!
# Building a search query call by call

* `FieldChoice`    what a call says about the fields of a highlight or a summary;
* `Query.Call`     the calls that a caller can make on a query;
* `Query.call`     what each of them does, its checks and assignments in turn;
* `Query.calls`    the query after several calls.
-/

namespace FullText

/-- What a call says about the fields of a highlight or a summary: nothing, all of them, or these.
    An empty list says nothing. -/
inductive FieldChoice where
  | keep
  | all
  | only (fs : List String)
  deriving DecidableEq, Repr

/-- the fields after a call that had `before` as the fields -/
def FieldChoice.apply (c : FieldChoice) (before : Option (List String)) : Option (List String) :=
  match c with
  | .keep => before
  | .all => none
  | .only fs => if fs.isEmpty then before else some fs

namespace Query

/-- a call on a query -/
inductive Call where
  | limit (offset count : Int)
  | numericFilter (f : NumericFilter)
  | geoFilter (property : String) (longitude latitude radius : Number) (unit : Option String)
  | verbatim (on : Bool)
  | noContent (on : Bool)
  | noStopwords (on : Bool)
  | withScores (on : Bool)
  | withPayloads (on : Bool)
  | language (name : String)
  | scorer (name : String)
  | payload (value : String)
  | expander (name : String)
  | limitFields (fs : List String)
  | limitKeys (ks : List String)
  | returnFields (fs : List String)
  | returnFieldNames (fs : List FieldName)
  | returnField (f : FieldName)
  | highlight (fields : FieldChoice) (tags : Option HighlightTags)
  /-- a highlight whose tags are given as a pair of texts -/
  | highlightPair (fields : FieldChoice) (openTag closeTag : String)
  | summarize (fields : FieldChoice) (length fragments : Option Int) (separator : Option String)
  | sortBy (key : SortKey)
  | param (name : String) (value : Token)
  | params (pairs : List (String × Token))
  | dialect (d : Int)
  | slop (n : Int)
  | timeout (milliseconds : Int)
  | inOrder
  deriving DecidableEq, Repr

/-- the highlight after a call: the fields stay unless the call gives some, the tags are its own -/
def highlighted (before : Option Highlight) (fields : FieldChoice) (tags : Option HighlightTags) :
    Highlight :=
  ⟨fields.apply (before.bind Highlight.fields), tags⟩

/-- the summary after a call: the fields stay unless the call gives some, the rest is its own -/
def summarized (before : Option Summary) (fields : FieldChoice) (length fragments : Option Int)
    (separator : Option String) : Summary :=
  ⟨fields.apply (before.bind Summary.fields), fragments, length, separator⟩

def addFilter (f : Filter) : Method Query Unit :=
  modify fun q => { q with filters := q.filters ++ [f] }

def addParam (name : String) (value : Token) : Method Query Unit :=
  modify fun q => { q with params := q.params.put name value }

/-- What a call does.  A dialect of zero and an unknown unit of length are faults; a negative slop or
    timeout is none at all. -/
def call : Call → Method Query Unit
  | .limit offset count => modify fun q => { q with paging := ⟨offset, count⟩ }
  | .numericFilter f => addFilter (.numeric f)
  | .geoFilter property longitude latitude radius unit => do
    let f ← GeoFilter.make property longitude latitude radius unit
    addFilter (.geo f)
  | .verbatim on => modify fun q => { q with verbatim := on }
  | .noContent on => modify fun q => { q with noContent := on }
  | .noStopwords on => modify fun q => { q with noStopwords := on }
  | .withScores on => modify fun q => { q with withScores := on }
  | .withPayloads on => modify fun q => { q with withPayloads := on }
  | .language name => modify fun q => { q with language := some name }
  | .scorer name => modify fun q => { q with scorer := some name }
  | .payload value => modify fun q => { q with payload := some value }
  | .expander name => modify fun q => { q with expander := some name }
  | .limitFields fs => modify fun q => { q with inFields := fs }
  | .limitKeys ks => modify fun q => { q with inKeys := ks }
  | .returnFields fs => do
    modify fun q => { q with projection.names := fs }
    modify fun q => { q with projection.fields := [] }
  | .returnFieldNames fs => do
    modify fun q => { q with projection.names := [] }
    modify fun q => { q with projection.fields := fs }
  | .returnField f => do
    modify fun q => { q with projection.names := [] }
    modify fun q => { q with projection.fields := q.projection.fields ++ [f] }
  | .highlight fields tags =>
    modify fun q => { q with highlight := some (highlighted q.highlight fields tags) }
  | .highlightPair fields openTag closeTag =>
    modify fun q =>
      { q with highlight := some (highlighted q.highlight fields (some ⟨openTag, closeTag⟩)) }
  | .summarize fields length fragments separator =>
    modify fun q =>
      { q with summary := some (summarized q.summary fields length fragments separator) }
  | .sortBy key => modify fun q => { q with sort := some key }
  | .param name value => addParam name value
  | .params pairs => pairs.forM fun p => addParam p.1 p.2
  | .dialect d => do
    let d ← Dialect.check d
    modify fun q => { q with dialect := some d }
  | .slop n => modify fun q => { q with slop := n.toNat? }
  | .timeout milliseconds => modify fun q => { q with timeout := milliseconds.toNat? }
  | .inOrder => modify fun q => { q with inOrder := true }

/-- the query after several calls -/
def calls (q : Query) (cs : List Call) : Query := Building.run call q cs

/-- a new query after several calls, or the fault of the first one that fails -/
def build (text : String) (cs : List Call) : Except Fault Query :=
  Building.build call { text := text } cs

end Query

end FullText

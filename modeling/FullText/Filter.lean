import FullText.Fault
import FullText.Token

/-!
# Filters: ranges of numbers and circles on the map

* `NumericFilter`    a range of a numeric field, each bound included or not;
* `GeoUnit.parse`    a unit of length from its name, in any case and with space around it;
* `GeoFilter.make`   a circle, with a unit that is given by its name;
* `Filter.tokens`    the clause of a filter.
-/

namespace FullText

/-- A range of a numeric field.  That it is not empty is the caller's business. -/
structure NumericFilter where
  property : String
  minimum : Number
  maximum : Number
  exclusiveMin : Bool := false
  exclusiveMax : Bool := false
  deriving DecidableEq, Repr

/-- the clause of a range, whose bounds are texts -/
def NumericFilter.tokens (f : NumericFilter) : Except Fault (List Token) := do
  let low ← (f.minimum.formatBound f.exclusiveMin).mapError .badNumeral
  let high ← (f.maximum.formatBound f.exclusiveMax).mapError .badNumeral
  return [.text "FILTER", .text f.property, .text low, .text high]

/-! ## circles -/

/-- a unit of length -/
inductive GeoUnit where
  | kilometers
  | meters
  | feet
  | miles
  deriving DecidableEq, Repr

namespace GeoUnit

/-- the name of a unit in a command -/
def name : GeoUnit → String
  | .kilometers => "km"
  | .meters => "m"
  | .feet => "ft"
  | .miles => "mi"

/-- the unit of a name, in any case and with space around it -/
def parse (s : String) : Except Fault GeoUnit :=
  match (Text.trim Text.isSpace s.toList).map Text.foldCase with
  | ['k', 'm'] => .ok .kilometers
  | ['m'] => .ok .meters
  | ['f', 't'] => .ok .feet
  | ['m', 'i'] => .ok .miles
  | _ => .error (.unsupportedUnit s)

end GeoUnit

/-- a circle around a point of the map, for a geo field -/
structure GeoFilter where
  property : String
  longitude : Number
  latitude : Number
  radius : Number
  unit : GeoUnit := .kilometers
  deriving DecidableEq, Repr

namespace GeoFilter

/-- a circle whose unit is given by its name, kilometers if it is not given -/
def make (property : String) (longitude latitude radius : Number) (unit : Option String) :
    Except Fault GeoFilter :=
  match unit with
  | none => .ok ⟨property, longitude, latitude, radius, .kilometers⟩
  | some name => (GeoFilter.mk property longitude latitude radius ·) <$> GeoUnit.parse name

/-- the clause of a circle, whose numbers stay numbers -/
def tokens (f : GeoFilter) : List Token :=
  [.text "GEOFILTER", .text f.property, .number f.longitude, .number f.latitude,
    .number f.radius, .text f.unit.name]

end GeoFilter

/-! ## filters of both kinds -/

/-- a condition on the documents of a query -/
inductive Filter where
  | numeric (f : NumericFilter)
  | geo (f : GeoFilter)
  deriving DecidableEq, Repr

namespace Filter

def tokens : Filter → Except Fault (List Token)
  | .numeric f => f.tokens
  | .geo f => .ok f.tokens

/-- the clauses of several filters, one after another -/
def allTokens (fs : List Filter) : Except Fault (List Token) := List.flatten <$> fs.mapM tokens

end Filter

end FullText

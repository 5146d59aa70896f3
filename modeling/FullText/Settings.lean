import FullText.Fault
import FullText.Number

/-!
# Settings from the environment

* `Environment.number?`   a number that a variable spells, none if it spells none;
* `Settings`              where to connect, how long to wait, and the default dialect;
* `Settings.read`         the settings of an environment;
* `Link.make`             the connection of a client, or the client that a caller brings along;
* `Link.unsaidTimeout`    the timeout of a connection if a caller says nothing about it.
-/

namespace FullText

/-- the values of the variables that are set -/
abbrev Environment := String → Option String

/-- The number that a variable spells.  A variable that is unset or blank spells none, and space
    around the number does not matter. -/
def Environment.number? {α : Type} (read : String → Option α) (raw : Option String) : Option α :=
  raw.bind fun s => if Text.isBlankText s then none else read (Text.strip s)

/-- an integer that a variable spells -/
def Environment.int? (raw : Option String) : Option Int :=
  Environment.number? (fun s => (Numeral.readInt s).toOption) raw

/-- a binary64 that a variable spells -/
def Environment.float? (raw : Option String) : Option Binary64 :=
  Environment.number? Numeral.readFloat? raw

/-! ## settings -/

/-- the timeout of a connection if none is given, in seconds -/
def defaultTimeout : Binary64 := .ofRatio false 30 1

/-- where to connect, how long to wait in seconds, and the default dialect -/
structure Settings where
  url : String := "redis://localhost:6379/0"
  timeout : Binary64 := defaultTimeout
  dialect : Option Int := none
  deriving DecidableEq, Repr

namespace Settings

def urlVariable : String := "SEARCH_WIRE_URL"
def timeoutVariable : String := "SEARCH_WIRE_TIMEOUT_S"
def dialectVariable : String := "SEARCH_WIRE_DEFAULT_DIALECT"

/-- The settings of an environment.  A number that cannot be read counts as not given, and only a
    dialect of zero is a fault. -/
def read (env : Environment) : Except Fault Settings :=
  let settings : Settings :=
    { url := (env urlVariable).getD ({} : Settings).url
      timeout := (Environment.float? (env timeoutVariable)).getD defaultTimeout
      dialect := Environment.int? (env dialectVariable) }
  if settings.dialect = some 0 then .error .zeroDialect else .ok settings

end Settings

/-! ## connections -/

/-- A connection that is made: its address, and the options in the order of their names.  An option
    without a value is given all the same. -/
structure Connection where
  url : String
  options : List (String × Option Number)
  deriving DecidableEq, Repr

/-- what commands are sent through: the client of a caller, or a connection of our own -/
inductive Link where
  | given
  | opened (c : Connection)
  deriving DecidableEq, Repr

namespace Link

/-- the name of the only kind of link -/
def name : String := "redis"

/-- the timeout of a caller who says nothing about it -/
def unsaidTimeout : Option Number := some (.float defaultTimeout)

/-- The client of a caller if there is one, otherwise a connection to the given address, for which
    the client library has to be installed.  Without a timeout the connection waits forever. -/
def make (client : Bool) (url : Option String) (timeout : Option Number) (installed : Bool) :
    Except Fault Link :=
  if client then .ok .given
  else match url with
    | none => .error .missingUrl
    | some url =>
      if installed then
        .ok (.opened ⟨url, [("protocol", some (.int 2)), ("socket_timeout", timeout)]⟩)
      else .error .missingClient

end Link

end FullText

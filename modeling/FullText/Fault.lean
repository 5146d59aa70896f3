import FullText.Number.Numeral
import FullText.Text.Quoted

/-!
# Faults: why an operation gives no answer

* `Expected`       the part of a reply that a decoder was looking for;
* `Fault`          the causes, one constructor each;
* `Fault.of?`      the fault of an outcome, none if it is no failure;
* `Fault.message?` the text of a fault, none for those that say nothing beyond their kind.

A fault that shows a value holds its literal, which is written when the fault arises.
-/

namespace FullText

inductive Expected where
  | pairs
  | searchReply
  | resultTotal
  | documentScore
  | aggregationReply
  | aggregationTotal
  | cursorReply
  | cursorId
  | explainReply
  deriving DecidableEq, Repr

/-- why an operation gives no answer -/
inductive Fault where
  /-- a dialect of zero -/
  | zeroDialect
  /-- a unit of length that is none of the four -/
  | unsupportedUnit (unit : String)
  /-- a part of a reply is not what the request implies -/
  | unexpected (expected : Expected) (found : String)
  /-- the documents of a search reply do not come out even -/
  | uneven (elements stride : Nat)
  /-- the payload of a document is neither a text nor nil -/
  | payloadNotText
  /-- bytes that are not UTF-8 -/
  | notUtf8 (fault : Text.Utf8.Fault)
  /-- a text that is no integer, or an integer with too many digits -/
  | badNumeral (fault : Numeral.Fault)
  /-- not-a-number, where an integer is needed -/
  | nanToInteger
  /-- a number beyond the range of the type that it is converted to -/
  | outOfRange
  /-- a value that has no number -/
  | notNumeric
  /-- a name that nothing is bound to -/
  | missingName (name : String)
  /-- the connection failed while a command was under way -/
  | connection (text : String)
  /-- neither a client nor an address to connect to -/
  | missingUrl
  /-- the client library is not installed -/
  | missingClient
  deriving DecidableEq, Repr

/-- the fault of an outcome, if it is one -/
def Fault.of? {α : Type} : Except Fault α → Option Fault
  | .ok _ => none
  | .error f => some f

/-- what was expected, in words -/
def Expected.words : Expected → String
  | .pairs => "a flat key/value array"
  | .searchReply => "a non-empty search reply array"
  | .resultTotal => "an integer result total"
  | .documentScore => "a numeric document score"
  | .aggregationReply => "a non-empty aggregation reply array"
  | .aggregationTotal => "an integer aggregation total"
  | .cursorReply => "a [rows, cursor_id] cursor reply"
  | .cursorId => "an integer cursor id"
  | .explainReply => "an array explain reply"

/-- Only the start of a long text is shown. -/
def Numeral.Fault.message : Numeral.Fault → String
  | .malformed text =>
    "invalid literal for int() with base 10: "
      ++ String.ofList ((Text.quoted text).toList.take 200)
  | .tooManyDigits count =>
    "Exceeds the limit (" ++ digitLimit.repr ++ " digits) for integer string conversion: value has "
      ++ count.repr ++ " digits; use sys.set_int_max_str_digits() to increase the limit"
  | .tooLongToWrite =>
    "Exceeds the limit (" ++ digitLimit.repr ++ " digits) for integer string conversion; "
      ++ "use sys.set_int_max_str_digits() to increase the limit"

def Fault.message? : Fault → Option String
  | .zeroDialect => some "DIALECT=0 cannot be set; use an unset dialect or a value >= 1."
  | .unsupportedUnit unit =>
    some ("Unsupported geo unit '" ++ unit ++ "'. Supported values: km, m, ft, mi.")
  | .unexpected expected found => some ("Expected " ++ expected.words ++ ", got " ++ found ++ ".")
  | .uneven elements stride =>
    some ("Search reply has " ++ elements.repr ++ " elements after the total, not a multiple of "
      ++ stride.repr ++ ".")
  | .payloadNotText => none
  | .notUtf8 fault => some fault.message
  | .badNumeral fault => some fault.message
  | .nanToInteger => some "cannot convert float NaN to integer"
  | .outOfRange => none
  | .notNumeric => none
  | .missingName name => some (Text.quoted name)
  | .connection text => some text
  | .missingUrl => some "Connection URL is required when no client instance is provided."
  | .missingClient => some "Install the optional dependency group 'redis' to use this transport."

end FullText

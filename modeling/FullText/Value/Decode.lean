import FullText.Value.Literal

/-!
# Decoding values: bytes become text

* `Value.asText`   bytes as text, any other value as it is;
* `Value.decode`   the same for every element that is reached through arrays;
* `Value.name`     the text of a value: text as it is, anything else as its literal;
* `Value.toInt`    the integer of a value, `Value.toFloat` its binary64;
* `Value.expectInt`, `Value.expectFloat`  the same as parts of a reply, which refuse the value.
-/

namespace FullText.Value

/-! ## text -/

/-- the text of a byte string -/
def bytesToText (bs : List UInt8) : Except Fault String := (Text.Utf8.decode bs).mapError .notUtf8

def asText : Value → Except Fault Value
  | .bytes bs => .text <$> bytesToText bs
  | v => .ok v

mutual

/-- All bytes that are reached through arrays as text, and those arrays as arrays of one kind.
    Mappings stay as they are. -/
def decode : Value → Except Fault Value
  | .bytes bs => .text <$> bytesToText bs
  | .array vs => .array <$> decodeAll vs
  | .tuple vs => .array <$> decodeAll vs
  | v => .ok v

/-- the decoded elements of an array, from left to right -/
def decodeAll : List Value → Except Fault (List Value)
  | [] => .ok []
  | v :: vs => do
    let first ← v.decode
    let others ← decodeAll vs
    return first :: others

end

/-- the text of a value: text and bytes as they are, anything else as its literal -/
def name (v : Value) : Except Fault String := do
  match ← v.asText with
  | .text s => return s
  | v => v.literal

/-! ## numbers -/

/-- The integer of a value: a truth value is zero or one, a float is truncated, a text is read. -/
def toInt : Value → Except Fault Int
  | .bool b => .ok (if b then 1 else 0)
  | .int n => .ok n
  | .float .nan => .error .nanToInteger
  | .float (.infinite _) => .error .outOfRange
  | .float (.finite negative u _) => .ok (Binary64.truncUlps negative u)
  | .text s => numeral (Numeral.readInt s)
  | .bytes bs => do numeral (Numeral.readInt (← bytesToText bs))
  | _ => .error .notNumeric

/-- the binary64 of an integer -/
def intToFloat (n : Int) : Except Fault Binary64 :=
  match Binary64.ofInt n with
  | some x => .ok x
  | none => .error .outOfRange

/-- the binary64 that a text spells -/
def textToFloat (s : String) : Except Fault Binary64 :=
  match Numeral.readFloat? s with
  | some x => .ok x
  | none => .error .notNumeric

/-- The binary64 of a value: a truth value is zero or one, an integer is rounded, a text is
    read. -/
def toFloat : Value → Except Fault Binary64
  | .bool b => intToFloat (if b then 1 else 0)
  | .int n => intToFloat n
  | .float x => .ok x
  | .text s => textToFloat s
  | .bytes bs => do textToFloat (← bytesToText bs)
  | _ => .error .notNumeric

/-- The outcome of a conversion as a part of a reply: a value that cannot be converted is refused,
    and a number that is out of range stays that fault. -/
def orRefuse {α : Type} (v : Value) (expected : Expected) (outcome : Except Fault α) :
    Except Fault α :=
  match outcome with
  | .ok a => .ok a
  | .error .outOfRange => .error .outOfRange
  | .error _ => v.refuse expected

/-- the integer that a reply holds at some place; truth values are refused -/
def expectInt (expected : Expected) (v : Value) : Except Fault Int :=
  match v with
  | .bool _ => v.refuse expected
  | v => v.orRefuse expected v.toInt

/-- the number that a reply holds at some place -/
def expectFloat (expected : Expected) (v : Value) : Except Fault Binary64 :=
  v.orRefuse expected v.toFloat

end FullText.Value

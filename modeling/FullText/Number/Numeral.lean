import FullText.Number.Decimal
import FullText.Text.Blank
import FullText.Text.DecimalDigit

/-!
# Numerals: reading and writing numbers as text

White space around a numeral is skipped, digits of every script count, and a single `_` may stand
between two digits.  A numeral of an integer has at most 4300 digits, when it is read and when it
is written.

* `Numeral.Fault`        why a text is no integer, or an integer has no text;
* `readInt`, `writeInt`  integers;
* `readFloat?`           binary64 numbers, correctly rounded;
* `digitRun`             the grammar `digit (_? digit)*` that both readers share.
-/

namespace FullText.Numeral

/-- the most digits that the numeral of an integer may have -/
def digitLimit : Nat := 4300

inductive Fault where
  | malformed (text : String)
  | tooManyDigits (count : Nat)
  | tooLongToWrite
  deriving DecidableEq, Repr

/-! ## the parts of a numeral -/

/-- the value of a list of digit values, the first one the most significant -/
def ofDigits (ds : List Nat) : Nat := ds.foldl (fun n d => 10 * n + d) 0

/-- Digits up to the first character that is neither a digit nor a `_` before a digit; `after` says
    whether a digit has just been read, as it must have been before a `_`. -/
def digitsFrom (after : Bool) : List Char → List Nat × List Char
  | [] => ([], [])
  | c :: cs =>
    match Text.digitValue? c with
    | some d =>
      let (ds, rest) := digitsFrom true cs
      (d :: ds, rest)
    | none =>
      if c = '_' && after && (cs.head?.bind Text.digitValue?).isSome then
        digitsFrom false cs
      else ([], c :: cs)

/-- the longest run `digit (_? digit)*` at the start, and what follows it -/
def digitRun (cs : List Char) : List Nat × List Char := digitsFrom false cs

/-- an optional sign: is it a minus, and what follows it -/
def sign : List Char → Bool × List Char
  | '-' :: cs => (true, cs)
  | '+' :: cs => (false, cs)
  | cs => (false, cs)

/-! ## integers -/

/-- Read `sign? digit (_? digit)*` between white space.  A misplaced `_` is found before the digits
    are counted, and any other character that does not belong after they are counted. -/
def readInt (s : String) : Except Fault Int :=
  let (negative, body) := sign (Text.trim Text.isWhite s.toList)
  let (digits, rest) := digitRun body
  if digits.isEmpty || rest.head? = some '_' then .error (.malformed s)
  else if digitLimit < digits.length then .error (.tooManyDigits digits.length)
  else if !rest.isEmpty then .error (.malformed s)
  else
    let n : Int := ofDigits digits
    .ok (if negative then -n else n)

/-- the decimal numeral of an integer -/
def writeInt (n : Int) : Except Fault String :=
  let digits := decimalDigits n.natAbs
  if digitLimit < digits.length then .error .tooLongToWrite
  else .ok (String.ofList (if n < 0 then '-' :: digits else digits))

/-! ## binary64 numbers -/

/-- the words for numbers that are not finite, in small letters -/
def word? (negative : Bool) : List Char → Option Binary64
  | ['i', 'n', 'f'] => some (.infinite negative)
  | ['i', 'n', 'f', 'i', 'n', 'i', 't', 'y'] => some (.infinite negative)
  | ['n', 'a', 'n'] => some .nan
  | _ => none

/-- the fraction after the whole part, if there is a point -/
def fraction : List Char → List Nat × List Char
  | '.' :: cs => digitRun cs
  | cs => ([], cs)

/-- the exponent at the end, zero if there is none; nothing may follow it -/
def exponent? : List Char → Option Int
  | [] => some 0
  | c :: cs =>
    if c = 'e' ∨ c = 'E' then
      let (negative, body) := sign cs
      match digitRun body with
      | ([], _) => none
      | (ds, []) => some (if negative then -(ofDigits ds : Int) else ofDigits ds)
      | _ => none
    else none

/-- Read `sign? digits? (. digits?)? (e sign? digits)?` with a digit before the exponent, or one of
    the words for infinity and not-a-number in any case, between white space. -/
def readFloat? (s : String) : Option Binary64 :=
  let (negative, body) := sign (Text.trim Text.isWhite s.toList)
  match word? negative (body.map Char.toLower) with
  | some x => some x
  | none =>
    let (whole, rest) := digitRun body
    let (part, rest) := fraction rest
    if whole.isEmpty && part.isEmpty then none
    else (exponent? rest).map fun e =>
      Decimal.toBinary64 negative ⟨ofDigits (whole ++ part), e - part.length⟩

end FullText.Numeral

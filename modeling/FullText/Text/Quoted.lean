import FullText.Text.Printable
import FullText.Text.Utf8

/-!
# Quoted text and quoted bytes

* `quoted s`       a text as a literal;
* `quotedBytes b`  a byte string as a literal, marked with a `b`;
* `quoteFor cs`    the quotation mark: the single one, unless only that one occurs.

A literal is one line of visible characters: the quotation mark and the backslash are escaped, and
so is whatever has no visible form.
-/

namespace FullText.Text

/-- the quotation mark of a literal: `"` if there is a `'` and no `"` in it, otherwise `'` -/
def quoteFor (cs : List Char) : Char :=
  if cs.contains '\'' && !cs.contains '"' then '"' else '\''

/-- `n` with `width` hexadecimal digits -/
def hex (width n : Nat) : List Char :=
  let digits := Nat.toDigits 16 n
  List.replicate (width - digits.length) '0' ++ digits

/-- The escape of a character that every kind of literal escapes: the quotation mark, the
    backslash, tab, line feed and carriage return. -/
def shortEscape? (quote c : Char) : Option (List Char) :=
  if c = quote ∨ c = '\\' then some ['\\', c]
  else if c = '\t' then some ['\\', 't']
  else if c = '\n' then some ['\\', 'n']
  else if c = '\r' then some ['\\', 'r']
  else none

/-- the escape of a character by its number, as short as its size allows -/
def numericEscape (n : Nat) : List Char :=
  if n < 0x100 then '\\' :: 'x' :: hex 2 n
  else if n < 0x10000 then '\\' :: 'u' :: hex 4 n
  else '\\' :: 'U' :: hex 8 n

/-- a character inside a literal of a text -/
def escape (quote c : Char) : List Char :=
  (shortEscape? quote c).getD (if isPrintable c then [c] else numericEscape c.toNat)

/-- a byte inside a literal of a byte string: only ASCII is visible -/
def escapeByte (quote : Char) (b : UInt8) : List Char :=
  let c := Char.ofNat b.toNat
  (shortEscape? quote c).getD
    (if 0x20 ≤ b.toNat ∧ b.toNat < 0x7F then [c] else numericEscape b.toNat)

def quoted (s : String) : String :=
  let quote := quoteFor s.toList
  String.ofList (quote :: (s.toList.flatMap (escape quote) ++ [quote]))

def quotedBytes (bs : List UInt8) : String :=
  let quote := quoteFor (bs.map fun b => Char.ofNat b.toNat)
  String.ofList ('b' :: quote :: (bs.flatMap (escapeByte quote) ++ [quote]))

end FullText.Text

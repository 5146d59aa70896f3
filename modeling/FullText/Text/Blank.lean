/-!
# Blanks and the letters of unit names

* `isWhite c`     `c` has the Unicode property `White_Space` (25 characters);
* `isSpace c`     `c` is white or one of the four information separators (29 characters);
* `trim p cs`     `cs` without the characters of `p` at its two ends, `strip` a text without space;
* `foldCase c`    the small letter of `c`, for the letters whose small letter is in ASCII.
-/

namespace FullText.Text

/-- the Unicode property `White_Space` -/
def isWhite (c : Char) : Bool :=
  let n := c.toNat
  (9 ≤ n && n ≤ 13) || n == 0x20 || n == 0x85 || n == 0xA0 || n == 0x1680
    || (0x2000 ≤ n && n ≤ 0x200A) || n == 0x2028 || n == 0x2029 || n == 0x202F || n == 0x205F
    || n == 0x3000

/-- white space, or one of the separators `U+001C` to `U+001F` -/
def isSpace (c : Char) : Bool :=
  isWhite c || (0x1C ≤ c.toNat && c.toNat ≤ 0x1F)

/-- the list without the characters of `p` at its two ends -/
def trim (p : Char → Bool) (cs : List Char) : List Char :=
  ((cs.dropWhile p).reverse.dropWhile p).reverse

/-- a text without the space at its two ends -/
def strip (s : String) : String := String.ofList (trim isSpace s.toList)

/-- nothing but space -/
def isBlankText (s : String) : Bool := s.toList.all isSpace

/-- The small letter of a capital letter of ASCII, and `k` for the Kelvin sign: no other character
    has a small letter that is one character of ASCII. -/
def foldCase (c : Char) : Char :=
  if c = '\u212A' then 'k' else c.toLower

example : (trim isSpace " \u00a0a b\t".toList) = ['a', ' ', 'b'] := by decide
example : "\u212aM".toList.map foldCase = ['k', 'm'] := by decide

end FullText.Text

import FullText.Procedure
import FullText.Token

/-!
# Emissions: tokens put behind those that are there

* `Emission`          a method on the tokens so far;
* `Emission.put`      one more token, `Emission.putAll` several;
* `Emission.insertAt` a token in a place among those that are there;
* `Emission.each`     parts one after another, and the sum of the widths that they report;
* `Emission.counted`  a keyword, a count, and the parts that it counts.

How wide the parts of a clause are is known only when they are there.  So the place of the count is kept
in mind, and the count is inserted there when all parts have been put.
-/

namespace FullText

/-- a method that puts tokens behind those that are there -/
abbrev Emission := Method (List Token)

namespace Emission

variable {α : Type}

def put (t : Token) : Emission Unit := modify (· ++ [t])

def putAll (ts : List Token) : Emission Unit := modify (· ++ ts)

/-- a token in front of the one at a place, or behind all of them if there is no such place -/
def insertAt (place : Nat) (t : Token) : Emission Unit :=
  modify fun out => out.take place ++ t :: out.drop place

/-- parts one after another, and the sum of the widths that they report -/
def each (emit : α → Emission Nat) : List α → Emission Nat
  | [] => return 0
  | a :: as => do
    let width ← emit a
    let others ← each emit as
    return width + others

/-- a keyword, the width that some parts report, and those parts -/
def counted (keyword : String) (parts : Emission Nat) : Emission Unit := do
  put (.text keyword)
  let place := (← get).length
  let count ← parts
  insertAt place (.nat count)

end Emission

end FullText

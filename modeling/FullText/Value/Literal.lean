import FullText.Value
import FullText.Fault
import FullText.Number.Shortest

/-!
# Literals of values

* `Value.literal`  a value on one line, as the messages of faults show it;
* `Value.refuse`   the fault that shows a value.

A literal fails only for an integer with too many digits, and then that failure is the fault.
-/

namespace FullText.Value

/-- the fault of an integer or a text, as one of the causes -/
def numeral {α : Type} (r : Except Numeral.Fault α) : Except Fault α := r.mapError .badNumeral

/-- the elements of a list, separated by a comma and a space -/
def commas (parts : List String) : String := ", ".intercalate parts

mutual

/-- a value on one line: a tuple of one element keeps its comma -/
def literal : Value → Except Fault String
  | .nil => .ok "None"
  | .bool true => .ok "True"
  | .bool false => .ok "False"
  | .int n => numeral (Numeral.writeInt n)
  | .float x => .ok x.text
  | .text s => .ok (Text.quoted s)
  | .bytes bs => .ok (Text.quotedBytes bs)
  | .array vs => do return "[" ++ commas (← literals vs) ++ "]"
  | .tuple vs => do return "(" ++ commas (← literals vs) ++ (if vs.length = 1 then ",)" else ")")
  | .map es => do return "\x7b" ++ commas (← literalEntries es) ++ "\x7d"

/-- the literals of the elements of an array -/
def literals : List Value → Except Fault (List String)
  | [] => .ok []
  | v :: vs => do
    let first ← v.literal
    let others ← literals vs
    return first :: others

/-- the literals of the entries of a mapping -/
def literalEntries : List (Value × Value) → Except Fault (List String)
  | [] => .ok []
  | (k, v) :: es => do
    let key ← k.literal
    let value ← v.literal
    let others ← literalEntries es
    return (key ++ ": " ++ value) :: others

end

/-- refuse a value where something else is expected; the message shows it -/
def refuse {α : Type} (v : Value) (expected : Expected) : Except Fault α := do
  throw (.unexpected expected (← v.literal))

end FullText.Value

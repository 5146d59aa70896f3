import FullText.Number.Binary64

/-!
# Values: the trees that replies are made of

* `Value`           nil, numbers, text, bytes, the two kinds of array, and mappings;
* `Value.items?`    the elements of an array of either kind;
* `Value.same`      equality of keys: numbers by their value, whatever their kind;
* `Value.ofEntries` a mapping from pairs: a repeated key keeps its place and takes the last value.
-/

namespace FullText

/-- A reply tree.  Arrays come in two kinds, which only their literals tell apart. -/
inductive Value where
  | nil
  | bool (b : Bool)
  | int (n : Int)
  | float (x : Binary64)
  | text (s : String)
  | bytes (bs : List UInt8)
  | array (items : List Value)
  | tuple (items : List Value)
  | map (entries : List (Value × Value))
  deriving Repr

namespace Value

instance : Inhabited Value := ⟨.nil⟩

def items? : Value → Option (List Value)
  | .array vs => some vs
  | .tuple vs => some vs
  | _ => none

/-! ## mappings -/

/-- the integer that a value counts as among keys: truth values are zero and one -/
def keyInt? : Value → Option Int
  | .bool b => some (if b then 1 else 0)
  | .int n => some n
  | _ => none

/-- equality of two values that are no tuples: numbers by their value, whatever their kind -/
def sameLeaf (a b : Value) : Bool :=
  match a, b with
  | .nil, .nil => true
  | .text s, .text t => s == t
  | .bytes s, .bytes t => s == t
  | .float x, .float y => x.numEq y
  | .float x, b => b.keyInt?.any x.eqInt
  | a, .float y => a.keyInt?.any y.eqInt
  | a, b => a.keyInt?.isSome && a.keyInt? == b.keyInt?

mutual

/-- equality of keys: only values that can be keys are ever equal -/
def same : Value → Value → Bool
  | .tuple as, .tuple bs => sameAll as bs
  | a, b => sameLeaf a b

/-- equality of the keys in two lists, place by place -/
def sameAll : List Value → List Value → Bool
  | [], [] => true
  | a :: as, b :: bs => same a b && sameAll as bs
  | _, _ => false

end

/-- bind a key: a known one keeps its place, a new one comes last -/
def putEntry (key value : Value) : List (Value × Value) → List (Value × Value)
  | [] => [(key, value)]
  | (k, v) :: rest =>
    if same k key then (k, value) :: rest else (k, v) :: putEntry key value rest

/-- the mapping that binds the pairs one after another -/
def ofEntries (entries : List (Value × Value)) : Value :=
  .map (entries.foldl (fun m e => putEntry e.1 e.2 m) [])

end Value

end FullText

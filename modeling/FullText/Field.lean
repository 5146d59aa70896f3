import FullText.Token

/-!
# Fields, and clauses that count their tokens

* `FieldName`           a field, and the label that it has in the reply if not its name;
* `Direction`           the order of a sort;
* `SortKey`             a field to sort by, with or without a direction;
* `FieldName.counted`   a keyword, the number of tokens of the fields, and those tokens.

The count of a clause is the sum of the widths of its parts, and the width of a part is the number
of its tokens (`FieldName.length_tokens`, `SortKey.length_tokens`).
-/

namespace FullText

/-- a field that is returned or loaded, under a label if it has one -/
structure FieldName where
  name : String
  label : Option String := none
  deriving DecidableEq, Repr

namespace FieldName

def tokens (f : FieldName) : List Token :=
  match f.label with
  | none => [.text f.name]
  | some a => [.text f.name, .text "AS", .text a]

/-- the number of tokens of the field -/
def width (f : FieldName) : Nat :=
  match f.label with
  | none => 1
  | some _ => 3

theorem length_tokens (f : FieldName) : f.tokens.length = f.width := by
  obtain ⟨name, label⟩ := f
  cases label <;> rfl

/-- the number of tokens of several fields -/
def widths : List FieldName → Nat
  | [] => 0
  | f :: fs => f.width + widths fs

def counted (keyword : String) (fs : List FieldName) : List Token :=
  .text keyword :: .nat (widths fs) :: fs.flatMap tokens

theorem length_flatMap_tokens (fs : List FieldName) :
    (fs.flatMap tokens).length = widths fs := by
  induction fs with
  | nil => rfl
  | cons f fs ih => rw [List.flatMap_cons, List.length_append, length_tokens, ih, widths]

end FieldName

inductive Direction where
  | ascending
  | descending
  deriving DecidableEq, Repr

namespace Direction

def keyword : Direction → String
  | .ascending => "ASC"
  | .descending => "DESC"

/-- the direction that a truth value stands for -/
def ofAscending (b : Bool) : Direction := if b then .ascending else .descending

end Direction

/-- a field to sort by; without a direction the engine decides -/
structure SortKey where
  field : String
  direction : Option Direction := none
  deriving DecidableEq, Repr

namespace SortKey

def tokens (k : SortKey) : List Token :=
  match k.direction with
  | none => [.text k.field]
  | some d => [.text k.field, .text d.keyword]

/-- the number of tokens of the key -/
def width (k : SortKey) : Nat :=
  match k.direction with
  | none => 1
  | some _ => 2

theorem length_tokens (k : SortKey) : k.tokens.length = k.width := by
  obtain ⟨field, direction⟩ := k
  cases direction <;> rfl

/-- the number of tokens of several keys -/
def widths : List SortKey → Nat
  | [] => 0
  | k :: ks => k.width + widths ks

theorem length_flatMap_tokens (ks : List SortKey) :
    (ks.flatMap tokens).length = widths ks := by
  induction ks with
  | nil => rfl
  | cons k ks ih => rw [List.flatMap_cons, List.length_append, length_tokens, ih, widths]

end SortKey

end FullText

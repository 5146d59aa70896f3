/-!
# Bindings: names and their values, in order of first binding

* `Bindings.put`     bind a name: a known one keeps its place, a new one comes last;
* `Bindings.putAll`  bind several names, one after another;
* `Bindings.get?`    the value of a name;
* `Bindings.names`   the names, each once.
-/

namespace FullText

/-- names with their values, in the order in which the names were first bound -/
structure Bindings (α : Type) where
  pairs : List (String × α) := []
  deriving DecidableEq, Repr

namespace Bindings

variable {α : Type}

/-- a known name keeps its place, a new one comes last -/
def putPair (name : String) (value : α) : List (String × α) → List (String × α)
  | [] => [(name, value)]
  | (n, v) :: rest =>
    if n = name then (n, value) :: rest else (n, v) :: putPair name value rest

/-- bind a name to a value -/
def put (b : Bindings α) (name : String) (value : α) : Bindings α :=
  ⟨putPair name value b.pairs⟩

def putAll (b : Bindings α) (pairs : List (String × α)) : Bindings α :=
  pairs.foldl (fun b p => b.put p.1 p.2) b

/-- the bindings that the pairs make, one after another -/
def ofList (pairs : List (String × α)) : Bindings α := putAll ⟨[]⟩ pairs

def get? (b : Bindings α) (name : String) : Option α := b.pairs.lookup name

/-- the names, in order of first binding -/
def names (b : Bindings α) : List String := b.pairs.map Prod.fst

/-! ## laws -/

theorem putAll_nil (b : Bindings α) : b.putAll [] = b := rfl

theorem putAll_cons (b : Bindings α) (p : String × α) (ps : List (String × α)) :
    b.putAll (p :: ps) = (b.put p.1 p.2).putAll ps := rfl

theorem putAll_append (b : Bindings α) (ps qs : List (String × α)) :
    b.putAll (ps ++ qs) = (b.putAll ps).putAll qs := by
  simp [putAll, List.foldl_append]

theorem putPair_putPair (name : String) (value other : α) (ps : List (String × α)) :
    putPair name other (putPair name value ps) = putPair name other ps := by
  induction ps with
  | nil => simp [putPair]
  | cons p ps ih =>
    by_cases h : p.1 = name
    · simp [putPair, h]
    · simp [putPair, h, ih]

/-- Of two values for the same name, the last one holds. -/
theorem put_put (b : Bindings α) (name : String) (value other : α) :
    (b.put name value).put name other = b.put name other :=
  congrArg mk (putPair_putPair name value other b.pairs)

theorem map_fst_putPair (name : String) (value : α) (ps : List (String × α)) :
    (putPair name value ps).map Prod.fst
      = if name ∈ ps.map Prod.fst then ps.map Prod.fst else ps.map Prod.fst ++ [name] := by
  induction ps with
  | nil => rfl
  | cons p ps ih =>
    by_cases h : p.1 = name
    · simp [putPair, h]
    · have h' : ¬ name = p.1 := fun e => h e.symm
      simp only [putPair, if_neg h, List.map_cons, ih, List.mem_cons, h', false_or]
      split
      · rfl
      · rfl

theorem names_put (b : Bindings α) (name : String) (value : α) :
    (b.put name value).names = if name ∈ b.names then b.names else b.names ++ [name] :=
  map_fst_putPair name value b.pairs

theorem lookup_putPair (name other : String) (value : α) (ps : List (String × α)) :
    (putPair name value ps).lookup other
      = if other = name then some value else ps.lookup other := by
  induction ps with
  | nil =>
    by_cases h : other = name
    · simp [putPair, h]
    · simp [putPair, List.lookup_cons, beq_false_of_ne h, h]
  | cons p ps ih =>
    obtain ⟨n, v⟩ := p
    by_cases h : n = name
    · subst h
      by_cases ho : other = n
      · simp [putPair, ho]
      · simp [putPair, List.lookup_cons, beq_false_of_ne ho, ho]
    · by_cases ho : other = n
      · simp [putPair, h, ho]
      · simp [putPair, h, List.lookup_cons, beq_false_of_ne ho, ih]

theorem get?_put (b : Bindings α) (name : String) (value : α) (other : String) :
    (b.put name value).get? other = if other = name then some value else b.get? other :=
  lookup_putPair name other value b.pairs

end Bindings

end FullText

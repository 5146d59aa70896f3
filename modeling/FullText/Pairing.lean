/-!
# Lists two by two

* `pairUp? l`  the elements of `l` in pairs, none if one is left over.
-/

namespace FullText

variable {α : Type}

/-- the elements two by two, none if one is left over -/
def pairUp? : List α → Option (List (α × α))
  | [] => some []
  | [_] => none
  | a :: b :: rest => ((a, b) :: ·) <$> pairUp? rest

theorem pairUp?_flatMap (ps : List (α × α)) :
    pairUp? (ps.flatMap fun p => [p.1, p.2]) = some ps := by
  induction ps with
  | nil => rfl
  | cons p ps ih => simp [pairUp?, ih]

theorem pairUp?_isSome (l : List α) : (pairUp? l).isSome = (l.length % 2 == 0) := by
  induction l using pairUp?.induct with
  | case1 => rfl
  | case2 a => rfl
  | case3 a b rest ih =>
    have h : (rest.length + 1 + 1) % 2 = rest.length % 2 := by omega
    simp [pairUp?, ih, h]

end FullText

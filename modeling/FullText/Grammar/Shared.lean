import FullText.Dialect
import FullText.Grammar.Laws
import FullText.Params

/-!
# The clauses that searches and aggregations share

* `Params.reading`, `Dialect.reading`  what the clauses of parameters and of a dialect say;
* `Reader.params_append`, `Reader.dialect_append`  their readers take them back.
-/

namespace FullText

/-- the pairs of names and values -/
def Params.reading (ps : Params) : List (Token × Token) := ps.pairs.map fun p => (.text p.1, p.2)

/-- the dialect that a command names: the one that holds, if it is positive -/
def Dialect.reading (d : Option Int) : Option Token := (d.filter fun d => decide (1 ≤ d)).map .int

theorem Params.isClause (ps : Params) : IsClause "PARAMS" (Params.tokens ps) := by
  obtain ⟨ps⟩ := ps
  cases ps
  · exact .inl rfl
  · exact .inr rfl

theorem Dialect.isClause (d : Option Int) : IsClause "DIALECT" (Dialect.tokens d) := by
  cases d with
  | none => exact .inl rfl
  | some d =>
    by_cases h : 1 ≤ d
    · right; simp [Dialect.tokens, h]
    · left; simp [Dialect.tokens, h]

theorem Dialect.option_reading (d : Option Int) :
    Token.option "DIALECT" (reading d) = tokens d := by
  cases d with
  | none => rfl
  | some d =>
    by_cases h : 1 ≤ d
    · simp [reading, tokens, Token.option, Option.filter, h]
    · simp [reading, tokens, Token.option, Option.filter, h]

namespace Reader

variable {ks : List String} {rest : List Token}

theorem length_params (ps : List (String × Token)) :
    (ps.flatMap fun p => [Token.text p.1, p.2]).length = 2 * ps.length := by
  induction ps with
  | nil => rfl
  | cons p ps ih =>
    rw [List.flatMap_cons, List.length_append, ih, List.length_cons]
    simp only [List.length_cons, List.length_nil]
    omega

theorem params_append (ps : Params) (h : Starts ks rest) (hk : "PARAMS" ∉ ks) :
    params (Params.tokens ps ++ rest) = some (Params.reading ps, rest) := by
  have ht : ps.pairs.flatMap (fun p => [Token.text p.1, p.2])
      = (Params.reading ps).flatMap fun p => [p.1, p.2] := by
    simp [Params.reading, List.flatMap_map]
  have hc : countedOrEmpty "PARAMS" (Params.tokens ps ++ rest)
      = some ((Params.reading ps).flatMap fun p => [p.1, p.2], rest) := by
    obtain ⟨ps⟩ := ps
    cases ps with
    | nil => exact countedOrEmpty_eq (o := none) (behind_none h hk)
    | cons p ps =>
      have hc := count_append ((p :: ps).flatMap fun p => [Token.text p.1, p.2]) rest
      rw [length_params] at hc
      rw [← ht]
      exact countedOrEmpty_eq (o := some _) (behind_cons hc)
  rw [params, bind_eq hc]
  simp only [pairUp?_flatMap]
  rfl

theorem dialect_append (d : Option Int) (h : Starts ks rest) (hk : "DIALECT" ∉ ks) :
    option "DIALECT" (Dialect.tokens d ++ rest) = some (Dialect.reading d, rest) := by
  rw [← Dialect.option_reading]
  exact option_append _ h hk

end Reader

end FullText

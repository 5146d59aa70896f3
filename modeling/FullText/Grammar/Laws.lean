import FullText.Grammar.Reader

/-!
# Readers take back what is written

* `Starts ks ts`   if `ts` starts with a text, that text is one of the keywords `ks`;
* `flag_append`, `option_append`, `counted_append`, …  a reader in front of a written clause takes
  that clause and leaves the rest, if the rest cannot be taken for a part of it.

A clause that may be left out is told from the one behind it by its keyword alone, so every law asks
that the rest starts with other keywords.  `Starts.append` puts a clause in front and adds its
keyword, which follows a command from its last clause to its first.
-/

namespace FullText

/-- if the tokens start with a text, that text is one of the keywords -/
def Starts (keywords : List String) (ts : List Token) : Prop :=
  ∀ s, ts.head? = some (.text s) → s ∈ keywords

/-- a clause that is left out, or that starts with its keyword -/
def IsClause (keyword : String) (c : List Token) : Prop :=
  c = [] ∨ c.head? = some (.text keyword)

namespace Starts

theorem nil (ks : List String) : Starts ks [] := by
  intro s h
  simp at h

theorem append {k : String} {ks : List String} {c rest : List Token} (h : Starts ks rest)
    (hc : IsClause k c) : Starts (k :: ks) (c ++ rest) := by
  intro s hs
  rcases hc with rfl | hc
  · exact List.mem_cons_of_mem _ (h s hs)
  · rw [List.head?_append, hc] at hs
    cases hs
    exact List.mem_cons_self

end Starts

/-! ## written clauses -/

theorem Token.isClause_flag (k : String) (on : Bool) : IsClause k (Token.flag k on) := by
  cases on
  · exact .inl rfl
  · exact .inr rfl

theorem Token.isClause_option (k : String) (o : Option Token) : IsClause k (Token.option k o) := by
  cases o
  · exact .inl rfl
  · exact .inr rfl

theorem Token.isClause_counted (k : String) (fs : List String) :
    IsClause k (Token.countedUnlessEmpty k fs) := by
  cases fs
  · exact .inl rfl
  · exact .inr rfl

namespace Reader

variable {α β : Type}

/-! ## readers in general -/

theorem bind_eq {r : Reader α} {f : α → Reader β} {ts rest : List Token} {a : α}
    (h : r ts = some (a, rest)) : (r >>= f) ts = f a rest := by
  simp only [bind, StateT.bind, h]
  rfl

theorem any_cons (t : Token) (ts : List Token) : any (t :: ts) = some (t, ts) := rfl

theorem behind_cons {k : String} {r : Reader α} {ts rest : List Token} {a : α}
    (h : r ts = some (a, rest)) : behind k r (.text k :: ts) = some (some a, rest) := by
  have hf : flag k (.text k :: ts) = some (true, ts) := by simp [flag]
  rw [behind, bind_eq hf]
  simp only [if_true, Functor.map, StateT.map, h]
  rfl

/-! ## the readers of written clauses -/

theorem flag_append {k : String} {ks : List String} (on : Bool) {rest : List Token}
    (h : Starts ks rest) (hk : k ∉ ks) : flag k (Token.flag k on ++ rest) = some (on, rest) := by
  cases on
  · cases rest with
    | nil => rfl
    | cons t rest =>
      have ht : t ≠ .text k := by
        rintro rfl
        exact hk (h k rfl)
      simp [Token.flag, flag, ht]
  · simp [Token.flag, flag]

theorem flag_none {k : String} {ks : List String} {rest : List Token} (h : Starts ks rest)
    (hk : k ∉ ks) : flag k rest = some (false, rest) := flag_append false h hk

theorem behind_none {k : String} {ks : List String} {r : Reader α} {rest : List Token}
    (h : Starts ks rest) (hk : k ∉ ks) : behind k r rest = some (none, rest) := by
  rw [behind, bind_eq (flag_none h hk)]
  rfl

theorem option_append {k : String} {ks : List String} (o : Option Token) {rest : List Token}
    (h : Starts ks rest) (hk : k ∉ ks) :
    option k (Token.option k o ++ rest) = some (o, rest) := by
  cases o with
  | none => exact behind_none h hk
  | some t => exact behind_cons rfl

theorem count_append (ts rest : List Token) :
    count (.nat ts.length :: (ts ++ rest)) = some (ts, rest) := by
  rw [count, bind_eq (any_cons _ _)]
  simp [take, Int.toNat?]

theorem counted_append (k : String) (fs : List String) (rest : List Token) :
    counted k (Token.counted k fs ++ rest) = some (some (Token.names fs), rest) := by
  have hc := count_append (Token.names fs) rest
  rw [Token.length_names] at hc
  exact behind_cons hc

theorem countedOrEmpty_eq {k : String} {o : Option (List Token)} {ts rest : List Token}
    (h : counted k ts = some (o, rest)) : countedOrEmpty k ts = some (o.getD [], rest) := by
  rw [countedOrEmpty, bind_eq h]
  rfl

theorem countedOrEmpty_append {k : String} {ks : List String} (fs : List String)
    {rest : List Token} (h : Starts ks rest) (hk : k ∉ ks) :
    countedOrEmpty k (Token.countedUnlessEmpty k fs ++ rest) = some (Token.names fs, rest) := by
  cases fs with
  | nil => exact countedOrEmpty_eq (o := none) (behind_none h hk)
  | cons f fs => exact countedOrEmpty_eq (counted_append k (f :: fs) rest)

/-! ## repeated clauses -/

/-- Items that a reader takes back one by one are taken back together.  `P` says what may stand
    behind an item: another item, or the rest, at which the reader finds nothing. -/
theorem many_append {r : Reader (Option α)} {write : β → List Token} {view : β → α}
    {P : List Token → Prop} {rest : List Token}
    (step : ∀ x ts, P ts → r (write x ++ ts) = some (some (view x), ts))
    (next : ∀ x ts, P ts → P (write x ++ ts)) (some_token : ∀ x, write x ≠ [])
    (stop : r rest = some (none, rest)) (hrest : P rest) (xs : List β) (fuel : Nat)
    (enough : (xs.flatMap write).length ≤ fuel) :
    many r fuel (xs.flatMap write ++ rest) = some (xs.map view, rest)
      ∧ P (xs.flatMap write ++ rest) := by
  induction xs generalizing fuel with
  | nil =>
    rw [List.flatMap_nil, List.nil_append]
    refine ⟨?_, hrest⟩
    cases fuel with
    | zero => rfl
    | succ fuel =>
      rw [many, bind_eq stop]
      rfl
  | cons x xs ih =>
    rw [List.flatMap_cons, List.length_append] at enough
    have hx : 0 < (write x).length := List.length_pos_iff.mpr (some_token x)
    rw [List.flatMap_cons, List.append_assoc]
    cases fuel with
    | zero => omega
    | succ fuel =>
      obtain ⟨hm, hp⟩ := ih fuel (by omega)
      refine ⟨?_, next x _ hp⟩
      rw [many, bind_eq (step x _ hp)]
      simp only
      rw [bind_eq hm]
      rfl

theorem repeated_append {r : Reader (Option α)} {write : β → List Token} {view : β → α}
    {P : List Token → Prop} {rest : List Token}
    (step : ∀ x ts, P ts → r (write x ++ ts) = some (some (view x), ts))
    (next : ∀ x ts, P ts → P (write x ++ ts)) (some_token : ∀ x, write x ≠ [])
    (stop : r rest = some (none, rest)) (hrest : P rest) (xs : List β) :
    repeated r (xs.flatMap write ++ rest) = some (xs.map view, rest) := by
  refine (many_append step next some_token stop hrest xs _ ?_).1
  rw [List.length_append]
  exact Nat.le_add_right _ _

end Reader

end FullText

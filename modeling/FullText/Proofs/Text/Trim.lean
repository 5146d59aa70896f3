import FullText.Text.Blank

/-!
# Texts with space around them

* `Text.Only p cs`     nothing but characters of `p`, `Text.Free p cs` none of them;
* `trim_append`        what is at the ends does not matter if it is to be taken away;
* `exists_eq_trim`     and nothing else is taken away;
* `trim_of_free`       there is nothing to take away if nothing is to be taken away;
* `Text.Spaced core s` the text `s` is `core` with space in front of it and behind it;
* `spaced_strip`       so is every text, around what is left of it when it is stripped;
* `strip_of_spaced`    and that is the core without the white space around it, if no space is inside.
-/

namespace FullText.Text

variable {p q : Char → Bool} {before cs after : List Char}

/-- nothing but characters of `p` -/
def Only (p : Char → Bool) (cs : List Char) : Prop := ∀ c ∈ cs, p c = true

/-- no character of `p` -/
def Free (p : Char → Bool) (cs : List Char) : Prop := ∀ c ∈ cs, p c = false

instance : Decidable (Free p cs) := List.decidableBAll (p · = false) cs

theorem only_nil : Only p [] := List.forall_mem_nil _

theorem free_nil : Free p [] := List.forall_mem_nil _

theorem Only.append (h : Only p before) (h' : Only p after) : Only p (before ++ after) :=
  List.forall_mem_append.mpr ⟨h, h'⟩

theorem Only.mono (h : Only p cs) (hpq : ∀ c, p c = true → q c = true) : Only q cs :=
  fun c hc => hpq c (h c hc)

theorem Free.append (h : Free p before) (h' : Free p after) : Free p (before ++ after) :=
  List.forall_mem_append.mpr ⟨h, h'⟩

theorem Free.cons {c : Char} (h : p c = false) (h' : Free p cs) : Free p (c :: cs) :=
  List.forall_mem_cons.mpr ⟨h, h'⟩

/-! ## what is taken away at the ends -/

theorem dropWhile_of_free (h : Free p cs) : cs.dropWhile p = cs := by
  cases cs with
  | nil => rfl
  | cons c cs => exact List.dropWhile_cons_of_neg (by rw [h c List.mem_cons_self]; decide)

/-- there is nothing to take away if nothing is to be taken away -/
theorem trim_of_free (h : Free p cs) : trim p cs = cs := by
  rw [trim, dropWhile_of_free h, dropWhile_of_free fun c hc => h c (List.mem_reverse.mp hc),
    List.reverse_reverse]

theorem trim_append_left (h : Only p before) : trim p (before ++ cs) = trim p cs := by
  rw [trim, List.dropWhile_append_of_pos h, trim]

theorem trim_append_right (h : Only p after) : trim p (cs ++ after) = trim p cs := by
  rw [trim, List.dropWhile_append]
  split
  next hempty =>
    -- nothing is left of either list
    have hcs : cs.dropWhile p = [] := List.isEmpty_iff.mp hempty
    have hafter : (after ++ []).dropWhile p = [] := List.dropWhile_append_of_pos h
    rw [List.append_nil] at hafter
    rw [trim, hcs, hafter]
  next =>
    have hreverse : Only p after.reverse := fun c hc => h c (List.mem_reverse.mp hc)
    rw [List.reverse_append, List.dropWhile_append_of_pos hreverse, trim]

theorem trim_append (hb : Only p before) (ha : Only p after) :
    trim p (before ++ cs ++ after) = trim p cs := by
  rw [trim_append_right ha, trim_append_left hb]

theorem trim_of_only (h : Only p cs) : trim p cs = [] := by
  have hnil : trim p (cs ++ []) = trim p [] := trim_append_left h
  rwa [List.append_nil] at hnil

theorem only_takeWhile (p : Char → Bool) (cs : List Char) : Only p (cs.takeWhile p) :=
  List.all_eq_true.mp List.all_takeWhile

theorem exists_eq_trim (p : Char → Bool) (cs : List Char) :
    ∃ before after, Only p before ∧ Only p after ∧ cs = before ++ trim p cs ++ after := by
  obtain ⟨rest, hrest⟩ : ∃ rest, rest = (cs.dropWhile p).reverse := ⟨_, rfl⟩
  have hsplit : rest.takeWhile p ++ rest.dropWhile p = rest := List.takeWhile_append_dropWhile
  have hend : cs.dropWhile p = trim p cs ++ (rest.takeWhile p).reverse := by
    rw [trim, ← hrest, ← List.reverse_append, hsplit, hrest, List.reverse_reverse]
  refine ⟨cs.takeWhile p, (rest.takeWhile p).reverse, only_takeWhile p cs, ?_, ?_⟩
  · exact fun c hc => only_takeWhile p rest c (List.mem_reverse.mp hc)
  · rw [List.append_assoc, ← hend, List.takeWhile_append_dropWhile]

/-! ## space -/

theorem isSpace_of_isWhite {c : Char} (h : isWhite c = true) : isSpace c = true := by
  rw [isSpace, h, Bool.true_or]

theorem Free.isWhite (h : Free isSpace cs) : Free isWhite cs := fun c hc =>
  (Bool.or_eq_false_iff.mp (h c hc)).1

/-- No capital letter is space, and no other character has a small one. -/
theorem not_isSpace_of_toLower {c : Char} (h : isSpace c.toLower = false) : isSpace c = false := by
  by_cases hcapital : 'A'.val ≤ c.val ∧ c.val ≤ 'Z'.val
  · have hlow : 65 ≤ c.toNat := hcapital.1
    have hhigh : c.toNat ≤ 90 := hcapital.2
    simp only [isSpace, isWhite, Bool.or_eq_false_iff, Bool.and_eq_false_iff,
      decide_eq_false_iff_not, beq_eq_false_iff_ne]
    omega
  · have hsame : c.toLower = c := dif_neg hcapital
    rwa [hsame] at h

/-- the text `s` is `core` with space in front of it and behind it -/
def Spaced (core s : String) : Prop :=
  ∃ before after, Only isSpace before ∧ Only isSpace after
    ∧ s.toList = before ++ core.toList ++ after

theorem toList_strip (s : String) : (strip s).toList = trim isSpace s.toList := String.toList_ofList

theorem spaced_strip (s : String) : Spaced (strip s) s := by
  obtain ⟨before, after, hb, ha, hs⟩ := exists_eq_trim isSpace s.toList
  exact ⟨before, after, hb, ha, by rw [toList_strip, ← hs]⟩

theorem strip_of_isBlankText {s : String} (h : isBlankText s = true) : (strip s).toList = [] := by
  rw [toList_strip, trim_of_only (List.all_eq_true.mp h)]

/-- What is left is a text without the white space around it, if there is no space inside of it. -/
theorem strip_of_spaced {core s : String} (h : Spaced core s)
    (hfree : Free isSpace (trim isWhite core.toList)) :
    (strip s).toList = trim isWhite core.toList := by
  obtain ⟨before, after, hb, ha, hs⟩ := h
  obtain ⟨before', after', hb', ha', hcore⟩ := exists_eq_trim isWhite core.toList
  have hinner : trim isSpace core.toList = trim isWhite core.toList := by
    rw [hcore, trim_append (hb'.mono fun _ => isSpace_of_isWhite)
      (ha'.mono fun _ => isSpace_of_isWhite), ← hcore, trim_of_free hfree]
  rw [toList_strip, hs, trim_append hb ha, hinner]

end FullText.Text

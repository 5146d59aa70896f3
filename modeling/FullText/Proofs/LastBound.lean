import FullText.Bindings
import FullText.Proofs.Outcome
import Mathlib.Data.List.Induction
import Mathlib.Data.List.Nodup

/-!
# What is bound at last

* `IsLast key a l`           `a` is in the list `l`, and nothing after it has its key;
* `IsLast.forall₂`           the last one of a key stands where it does in a list that has the same keys
                             in the same places;
* `Bindings.mem_ofList_iff`  bindings hold, of all pairs that were bound, the last one of each name;
* `Bindings.names_ofList`    every name once, in the order in which the names first occur;
* `LastOfEach bs ps`         `ps` has the names of `bs` in the order in which they first occur, each
                             with the last value that is bound to it;
* `lastOfEach_ofList`        this is what bindings hold.
-/

namespace FullText

/-- an element of a list, after which no other has its key -/
def IsLast {α κ : Type} (key : α → κ) (a : α) : List α → Prop
  | [] => False
  | b :: l => (a = b ∧ ∀ c ∈ l, key c ≠ key a) ∨ IsLast key a l

/-- Two lists whose keys are equal at the same places have the last element of a key at the same
    place. -/
theorem IsLast.forall₂ {α β κ κ' : Type} {key : α → κ} {key' : β → κ'} {r : α → β → Prop}
    (hkey : ∀ a b a' b', r a a' → r b b' → (key a = key b ↔ key' a' = key' b'))
    {l : List α} {l' : List β} (h : List.Forall₂ r l l') {a : α} (ha : IsLast key a l) :
    ∃ a', r a a' ∧ IsLast key' a' l' := by
  induction h with
  | nil => exact ha.elim
  | @cons x x' xs xs' hx hxs ih =>
    obtain ⟨rfl, hlater⟩ | ha := ha
    · refine ⟨x', hx, .inl ⟨rfl, fun c' hc' heq => ?_⟩⟩
      obtain ⟨i, hi⟩ := List.mem_iff_getElem?.mp hc'
      obtain ⟨c, hc, hr⟩ := Outcome.exists_getElem?_of_forall₂ hxs hi
      exact hlater c (List.mem_of_getElem? hc) ((hkey c a c' x' hr hx).mpr heq)
    · obtain ⟨a', hr, hlast⟩ := ih ha
      exact ⟨a', hr, .inr hlast⟩

namespace Bindings

variable {α : Type}

theorem nodup_put {b : Bindings α} (h : b.names.Nodup) (name : String) (value : α) :
    (b.put name value).names.Nodup := by
  rw [names_put]
  split
  next => exact h
  next hn =>
    refine List.nodup_append.mpr ⟨h, List.nodup_singleton name, ?_⟩
    intro n hm m hs
    rw [List.mem_singleton.mp hs]
    rintro rfl
    exact hn hm

theorem nodup_empty : (Bindings.mk ([] : List (String × α))).names.Nodup := List.nodup_nil

theorem mem_putPair_iff {name : String} {value : α} {l : List (String × α)}
    (h : (l.map Prod.fst).Nodup) (p : String × α) :
    p ∈ putPair name value l ↔ p = (name, value) ∨ (p ∈ l ∧ p.1 ≠ name) := by
  induction l with
  | nil => simp [putPair]
  | cons q l ih =>
    obtain ⟨n, v⟩ := q
    obtain ⟨hn, hl⟩ := List.nodup_cons.mp h
    by_cases he : n = name
    · subst he
      -- no later pair has the name, so only the first one is taken away
      have hne : p ∈ l → p.1 ≠ n := by
        rintro hp rfl
        exact hn (List.mem_map.mpr ⟨p, hp, rfl⟩)
      rw [putPair, if_pos rfl, List.mem_cons, List.mem_cons]
      constructor
      · rintro (rfl | hp)
        · exact .inl rfl
        · exact .inr ⟨.inr hp, hne hp⟩
      · rintro (rfl | ⟨rfl | hp, hne⟩)
        · exact .inl rfl
        · exact absurd rfl hne
        · exact .inr hp
    · rw [putPair, if_neg he, List.mem_cons, List.mem_cons, ih hl]
      constructor
      · rintro (rfl | rfl | ⟨hp, hne⟩)
        · exact .inr ⟨.inl rfl, he⟩
        · exact .inl rfl
        · exact .inr ⟨.inr hp, hne⟩
      · rintro (rfl | ⟨rfl | hp, hne⟩)
        · exact .inr (.inl rfl)
        · exact .inl rfl
        · exact .inr (.inr ⟨hp, hne⟩)

theorem mem_putAll_iff {b : Bindings α} (h : b.names.Nodup) (ps : List (String × α))
    (p : String × α) :
    p ∈ (b.putAll ps).pairs
      ↔ IsLast Prod.fst p ps ∨ (p ∈ b.pairs ∧ ∀ q ∈ ps, q.1 ≠ p.1) := by
  induction ps generalizing b with
  | nil =>
    rw [putAll_nil, IsLast]
    exact ⟨fun hp => .inr ⟨hp, List.forall_mem_nil _⟩, fun hp => hp.resolve_left id |>.1⟩
  | cons q ps ih =>
    have hput : p ∈ (b.put q.1 q.2).pairs ↔ p = q ∨ (p ∈ b.pairs ∧ p.1 ≠ q.1) :=
      mem_putPair_iff h p
    rw [putAll_cons, ih (nodup_put h q.1 q.2), hput, IsLast, List.forall_mem_cons]
    constructor
    · rintro (hl | ⟨rfl | ⟨hp, hne⟩, ha⟩)
      · exact .inl (.inr hl)
      · exact .inl (.inl ⟨rfl, ha⟩)
      · exact .inr ⟨hp, hne.symm, ha⟩
    · rintro ((⟨rfl, ha⟩ | hl) | ⟨hp, hne, ha⟩)
      · exact .inr ⟨.inl rfl, ha⟩
      · exact .inl hl
      · exact .inr ⟨.inr ⟨hp, hne.symm⟩, ha⟩

/-- Of the pairs that are bound one after another, the last one of each name is left. -/
theorem mem_ofList_iff (ps : List (String × α)) (p : String × α) :
    p ∈ (ofList ps).pairs ↔ IsLast Prod.fst p ps := by
  rw [ofList, mem_putAll_iff nodup_empty]
  exact or_iff_left fun h => nomatch h.1

/-! ## the order of the names -/

theorem ofList_concat (ps : List (String × α)) (p : String × α) :
    ofList (ps ++ [p]) = (ofList ps).put p.1 p.2 :=
  putAll_append _ ps [p]

/-- The names stand in the order in which they first occur. -/
theorem names_ofList (ps : List (String × α)) :
    (ofList ps).names = (ps.map Prod.fst).eraseDups := by
  induction ps using List.reverseRecOn with
  | nil => rfl
  | append_singleton ps p ih =>
    rw [ofList_concat, names_put, ih, List.map_append, List.eraseDups_append]
    show _ = _ ++ ([p.1].removeAll (ps.map Prod.fst)).eraseDups
    by_cases h : p.1 ∈ ps.map Prod.fst
    · have hnone : [p.1].removeAll (ps.map Prod.fst) = [] := by simp [List.removeAll, h]
      rw [if_pos (List.mem_eraseDups.mpr h), hnone, List.eraseDups_nil, List.append_nil]
    · have hone : [p.1].removeAll (ps.map Prod.fst) = [p.1] := by simp [List.removeAll, h]
      rw [if_neg fun hm => h (List.mem_eraseDups.mp hm), hone]
      rfl

end Bindings

/-- `ps` has each name of `bs` once, in the order in which the names first occur, with the last value
    that is bound to it -/
structure LastOfEach {α : Type} (bs ps : List (String × α)) : Prop where
  names : ps.map Prod.fst = (bs.map Prod.fst).eraseDups
  values : ∀ p, p ∈ ps ↔ IsLast Prod.fst p bs

theorem lastOfEach_ofList {α : Type} (bs : List (String × α)) :
    LastOfEach bs (Bindings.ofList bs).pairs where
  names := Bindings.names_ofList bs
  values := Bindings.mem_ofList_iff bs

end FullText

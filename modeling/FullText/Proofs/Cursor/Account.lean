import FullText.Proofs.Cursor.Engine

/-!
# The account of open cursors

* `Account`            every open cursor is held by one of some iterations, or was open before them;
* `Account.release`    what is held is given up;
* `Account.take`       a new cursor is held by an iteration that holds none;
* `Account.goOn`       an iteration goes on from its cursor to the one that the engine gives for it.

Nothing is said here of what iterations or engines do.
-/

namespace FullText

/-- `held` are the cursors of some iterations, and `base` is what else is open -/
structure Account (names : List String) (base : Cursors) (held : String → Option CursorKey)
    (cs : Cursors) : Prop where
  others : ∀ key, (∀ g ∈ names, held g ≠ some key) → cs key = base key
  own : ∀ g ∈ names, ∀ key, held g = some key → base key = none ∧ ∃ p ps, cs key = some (p :: ps)
  alone : ∀ g ∈ names, ∀ g' ∈ names, ∀ key, held g = some key → held g' = some key → g = g'

/-- the open cursors but for one that is given up -/
def Cursors.without (cs : Cursors) : Option CursorKey → Cursors
  | none => cs
  | some key => Function.update cs key none

theorem Cursors.without_of_ne (cs : Cursors) {k : Option CursorKey} {key : CursorKey}
    (h : k ≠ some key) : cs.without k key = cs key := by
  cases k with
  | none => rfl
  | some key₀ =>
    have hne : key ≠ key₀ := fun he => h (he ▸ rfl)
    exact Function.update_of_ne hne none cs

/-- the cursor of an id, none if it is zero -/
def keyOf (index : Token) (id : Int) : Option CursorKey := if id = 0 then none else some (index, id)

/-- What is left behind a page is what is left at the cursor that goes with it. -/
theorem Continues.left_eq {cs cs' : Cursors} {index : Token} {ps : List Page} {id : Int}
    (h : Continues cs index ps id cs') : ((keyOf index id).bind cs').getD [] = ps := by
  cases h with
  | last => rfl
  | @more id p ps nonzero unused =>
    rw [keyOf, if_neg nonzero, Option.bind_some, Function.update_self]
    rfl

namespace Account

variable {names : List String} {base cs : Cursors} {held : String → Option CursorKey} {g : String}

/-- if none of the iterations holds a cursor yet -/
theorem of_none (h : ∀ g ∈ names, held g = none) : Account names cs held cs where
  others := fun _ _ => rfl
  own := fun g hg key hk => by
    rw [h g hg] at hk
    cases hk
  alone := fun g hg _ _ key hk => by
    rw [h g hg] at hk
    cases hk

theorem without_other (h : Account names base held cs) (hg : g ∈ names) {g' : String}
    (hg' : g' ∈ names) (hne : g' ≠ g) {key : CursorKey} (hk : held g' = some key) :
    cs.without (held g) key = cs key :=
  cs.without_of_ne fun hh => hne (h.alone g' hg' g hg key hk hh)

theorem release (h : Account names base held cs) (hg : g ∈ names) :
    Account names base (Function.update held g none) (cs.without (held g)) where
  others := by
    intro key hkey
    by_cases hh : held g = some key
    -- what was held was not open before, and now it is not open either
    · rw [hh, (h.own g hg key hh).1]
      exact Function.update_self key none cs
    · rw [cs.without_of_ne hh]
      refine h.others key fun g' hg' hk => ?_
      by_cases hn : g' = g
      · exact hh (hn ▸ hk)
      · have hk' := hkey g' hg'
        rw [Function.update_of_ne hn] at hk'
        exact hk' hk
  own := by
    intro g' hg' key hk
    by_cases hn : g' = g
    · rw [hn, Function.update_self] at hk
      cases hk
    · rw [Function.update_of_ne hn] at hk
      rw [h.without_other hg hg' hn hk]
      exact h.own g' hg' key hk
  alone := by
    intro g₁ h₁ g₂ h₂ key hk₁ hk₂
    by_cases hn₁ : g₁ = g
    · rw [hn₁, Function.update_self] at hk₁
      cases hk₁
    · by_cases hn₂ : g₂ = g
      · rw [hn₂, Function.update_self] at hk₂
        cases hk₂
      · rw [Function.update_of_ne hn₁] at hk₁
        rw [Function.update_of_ne hn₂] at hk₂
        exact h.alone g₁ h₁ g₂ h₂ key hk₁ hk₂

/-- Nobody holds a cursor that is not open. -/
theorem held_ne (h : Account names base held cs) {key : CursorKey} (hu : cs key = none) {g : String}
    (hg : g ∈ names) : held g ≠ some key := by
  intro hk
  obtain ⟨_, p, ps, hp⟩ := h.own g hg key hk
  rw [hu] at hp
  cases hp

theorem take (h : Account names base held cs) (hg : g ∈ names) (hn : held g = none)
    {key : CursorKey} (hu : cs key = none) (p : Page) (ps : List Page) :
    Account names base (Function.update held g (some key))
      (Function.update cs key (some (p :: ps))) where
  others := by
    intro key' hkey
    have hne : key' ≠ key := by
      intro he
      exact hkey g hg (by rw [Function.update_self, he])
    rw [Function.update_of_ne hne]
    refine h.others key' fun g' hg' hk => ?_
    by_cases he : g' = g
    · rw [he, hn] at hk
      cases hk
    · have hk' := hkey g' hg'
      rw [Function.update_of_ne he] at hk'
      exact hk' hk
  own := by
    intro g' hg' key' hk
    by_cases he : g' = g
    · rw [he, Function.update_self] at hk
      cases hk
      -- an id that was not in use is nobody's, so it was not in use before the run either
      have hb : base key = cs key := (h.others key fun _ hg'' => h.held_ne hu hg'').symm
      exact ⟨hb.trans hu, p, ps, Function.update_self key _ cs⟩
    · rw [Function.update_of_ne he] at hk
      have hne : key' ≠ key := fun hkk => h.held_ne hu hg' (hkk ▸ hk)
      rw [Function.update_of_ne hne]
      exact h.own g' hg' key' hk
  alone := by
    intro g₁ h₁ g₂ h₂ key' hk₁ hk₂
    by_cases he₁ : g₁ = g
    · by_cases he₂ : g₂ = g
      · rw [he₁, he₂]
      · rw [he₁, Function.update_self] at hk₁
        cases hk₁
        rw [Function.update_of_ne he₂] at hk₂
        exact absurd hk₂ (h.held_ne hu h₂)
    · rw [Function.update_of_ne he₁] at hk₁
      by_cases he₂ : g₂ = g
      · rw [he₂, Function.update_self] at hk₂
        cases hk₂
        exact absurd hk₁ (h.held_ne hu h₁)
      · rw [Function.update_of_ne he₂] at hk₂
        exact h.alone g₁ h₁ g₂ h₂ key' hk₁ hk₂

/-- An iteration goes on from the cursor that it holds to the one that comes with its next page. -/
theorem goOn (h : Account names base held cs) (hg : g ∈ names) {index : Token} {id : Int}
    {ps : List Page} {cs' : Cursors} (hc : Continues (cs.without (held g)) index ps id cs') :
    Account names base (Function.update held g (keyOf index id)) cs' := by
  have hr := h.release hg
  cases hc with
  | last => exact hr
  | @more id p ps nonzero unused =>
    have ht := hr.take hg (Function.update_self g none held) unused p ps
    rw [Function.update_idem] at ht
    rw [keyOf, if_neg nonzero]
    exact ht

/-- What is left for the other iterations stays where it is. -/
theorem goOn_other (h : Account names base held cs) (hg : g ∈ names) {index : Token} {id : Int}
    {ps : List Page} {cs' : Cursors} (hc : Continues (cs.without (held g)) index ps id cs')
    {g' : String} (hg' : g' ∈ names) (hne : g' ≠ g) {key : CursorKey} (hk : held g' = some key) :
    cs' key = cs key := by
  have hw := h.without_other hg hg' hne hk
  cases hc with
  | last => exact hw
  | @more id p ps nonzero unused =>
    have hkey : key ≠ (index, id) := by
      intro he
      obtain ⟨_, p', ps', hp⟩ := h.own g' hg' key hk
      rw [he] at hw hp
      rw [unused, hp] at hw
      cases hw
    rw [Function.update_of_ne hkey]
    exact hw

end Account

end FullText

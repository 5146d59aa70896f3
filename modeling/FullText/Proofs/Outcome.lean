import Mathlib.Data.List.Forall2

/-!
# Computations that may fail

* `bind_eq_ok`, `map_eq_ok`          what a computation in steps gives;
* `bind_eq_error`, `map_eq_error`    and how it fails;
* `toOption_eq_some`                 the same without the fault;
* `exists_bind_ok`, `exists_map_ok`  it gives something if every step does;
* `mapM_eq_ok`, `exists_mapM_ok`     a list is computed if every element is, place by place;
* `mapM_eq_error`                    and it fails as the first element does that fails;
* `mapM_eq_map`                      what it is, if it is known what belongs to each element;
* `Alike r q x y`                    two computations both fail, or both give something;
* `Alike.bind`, `Alike.mapM`         so do their continuations, and lists place by place.
-/

namespace FullText.Outcome

variable {ε α β γ : Type}

theorem bind_eq_ok {x : Except ε α} {f : α → Except ε β} {b : β} :
    x >>= f = .ok b ↔ ∃ a, x = .ok a ∧ f a = .ok b := by
  cases x with
  | error e =>
    constructor
    · intro h
      cases h
    · rintro ⟨a, h, _⟩
      cases h
  | ok a =>
    refine ⟨fun h => ⟨a, rfl, h⟩, ?_⟩
    rintro ⟨a', h, hb⟩
    cases h
    exact hb

theorem map_eq_ok {x : Except ε α} {f : α → β} {b : β} :
    f <$> x = .ok b ↔ ∃ a, x = .ok a ∧ f a = b := by
  cases x with
  | error e =>
    constructor
    · intro h
      cases h
    · rintro ⟨a, h, _⟩
      cases h
  | ok a =>
    refine ⟨fun h => ⟨a, rfl, Except.ok.inj h⟩, ?_⟩
    rintro ⟨a', h, rfl⟩
    cases h
    rfl

theorem bind_eq_error {x : Except ε α} {f : α → Except ε β} {e : ε} :
    x >>= f = .error e ↔ x = .error e ∨ ∃ a, x = .ok a ∧ f a = .error e := by
  cases x with
  | error e' =>
    constructor
    · intro h
      cases h
      exact .inl rfl
    · rintro (h | ⟨a, h, -⟩)
      · cases h
        rfl
      · cases h
  | ok a =>
    refine ⟨fun h => .inr ⟨a, rfl, h⟩, ?_⟩
    rintro (h | ⟨a', h, he⟩)
    · cases h
    · cases h
      exact he

theorem map_eq_error {x : Except ε α} {f : α → β} {e : ε} :
    f <$> x = .error e ↔ x = .error e := by
  cases x with
  | error e' => exact ⟨fun h => congrArg _ (Except.error.inj h), fun h => congrArg _ (Except.error.inj h)⟩
  | ok a => exact ⟨nofun, nofun⟩

theorem toOption_eq_some {x : Except ε α} {a : α} : x.toOption = some a ↔ x = .ok a := by
  cases x with
  | error e => exact ⟨fun h => (by cases h), fun h => (by cases h)⟩
  | ok b => exact ⟨fun h => congrArg _ (Option.some.inj h), fun h => congrArg _ (Except.ok.inj h)⟩

theorem exists_map_ok {x : Except ε α} {f : α → β} :
    (∃ b, f <$> x = .ok b) ↔ ∃ a, x = .ok a := by
  constructor
  · rintro ⟨b, h⟩
    obtain ⟨a, ha, -⟩ := map_eq_ok.mp h
    exact ⟨a, ha⟩
  · rintro ⟨a, ha⟩
    exact ⟨f a, map_eq_ok.mpr ⟨a, ha, rfl⟩⟩

/-- two steps, the second of which does not look at what the first gives -/
theorem exists_bind_ok {x : Except ε α} {f : α → Except ε β} {p : Prop}
    (h : ∀ a, x = .ok a → ((∃ b, f a = .ok b) ↔ p)) :
    (∃ b, x >>= f = .ok b) ↔ (∃ a, x = .ok a) ∧ p := by
  constructor
  · rintro ⟨b, hb⟩
    obtain ⟨a, ha, hb⟩ := bind_eq_ok.mp hb
    exact ⟨⟨a, ha⟩, (h a ha).mp ⟨b, hb⟩⟩
  · rintro ⟨⟨a, ha⟩, hp⟩
    obtain ⟨b, hb⟩ := (h a ha).mpr hp
    exact ⟨b, bind_eq_ok.mpr ⟨a, ha, hb⟩⟩

/-- two steps, the second of which always gives something -/
theorem exists_bind_ok_of_total {x : Except ε α} {f : α → Except ε β}
    (h : ∀ a, x = .ok a → ∃ b, f a = .ok b) : (∃ b, x >>= f = .ok b) ↔ ∃ a, x = .ok a :=
  (exists_bind_ok fun a ha => iff_true_intro (h a ha)).trans (and_iff_left trivial)

theorem mapM_eq_ok {f : α → Except ε β} {xs : List α} {ys : List β} :
    xs.mapM f = .ok ys ↔ List.Forall₂ (fun x y => f x = .ok y) xs ys := by
  induction xs generalizing ys with
  | nil =>
    rw [List.mapM_nil, List.forall₂_nil_left_iff]
    exact ⟨fun h => (Except.ok.inj h).symm, fun h => congrArg _ h.symm⟩
  | cons x xs ih =>
    rw [List.mapM_cons, List.forall₂_cons_left_iff, bind_eq_ok]
    constructor
    · rintro ⟨y, hy, h⟩
      obtain ⟨zs, hz, h⟩ := bind_eq_ok.mp h
      cases h
      exact ⟨y, zs, hy, ih.mp hz, rfl⟩
    · rintro ⟨y, zs, hy, hz, rfl⟩
      exact ⟨y, hy, bind_eq_ok.mpr ⟨zs, ih.mpr hz, rfl⟩⟩

/-- Elements that each give what belongs to them. -/
theorem mapM_eq_map {f : β → Except ε γ} {g : α → γ} {r : α → β → Prop} {xs : List α}
    {ys : List β} (h : List.Forall₂ r xs ys) (hf : ∀ x y, r x y → f y = .ok (g x)) :
    ys.mapM f = .ok (xs.map g) := by
  rw [mapM_eq_ok, List.forall₂_map_right_iff]
  exact h.flip.imp fun y x hxy => hf x y hxy

theorem exists_mapM_ok {f : α → Except ε β} {xs : List α} :
    (∃ ys, xs.mapM f = .ok ys) ↔ ∀ x ∈ xs, ∃ y, f x = .ok y := by
  induction xs with
  | nil => exact ⟨fun _ => List.forall_mem_nil _, fun _ => ⟨[], rfl⟩⟩
  | cons x xs ih =>
    rw [List.forall_mem_cons, ← ih, List.mapM_cons]
    exact exists_bind_ok fun y _ => exists_bind_ok_of_total fun ys _ => ⟨y :: ys, rfl⟩

theorem mapM_eq_error {f : α → Except ε β} {xs : List α} {e : ε} :
    xs.mapM f = .error e ↔ ∃ (i : Nat) (x : α), xs[i]? = some x ∧ f x = .error e
      ∧ ∀ j < i, ∀ y, xs[j]? = some y → ∃ z, f y = .ok z := by
  induction xs with
  | nil =>
    refine ⟨nofun, ?_⟩
    rintro ⟨i, x, hx, -⟩
    cases hx
  | cons x xs ih =>
    rw [List.mapM_cons, bind_eq_error]
    constructor
    · rintro (h | ⟨y, hy, h⟩)
      · exact ⟨0, x, rfl, h, fun j hj => absurd hj (Nat.not_lt_zero j)⟩
      · obtain ⟨i, x', hx, he, hall⟩ := ih.mp (map_eq_error.mp h)
        refine ⟨i + 1, x', hx, he, fun j hj y' hy' => ?_⟩
        cases j with
        | zero =>
          cases hy'
          exact ⟨y, hy⟩
        | succ j => exact hall j (Nat.lt_of_succ_lt_succ hj) y' hy'
    · rintro ⟨i, x', hx, he, hall⟩
      cases i with
      | zero =>
        cases hx
        exact .inl he
      | succ i =>
        obtain ⟨y, hy⟩ := hall 0 (Nat.succ_pos i) x rfl
        have hrest := ih.mpr ⟨i, x', hx, he, fun j hj => hall (j + 1) (Nat.succ_lt_succ hj)⟩
        exact .inr ⟨y, hy, map_eq_error.mpr hrest⟩

/-- Lists that are related place by place have elements at the same places. -/
theorem exists_getElem?_of_forall₂ {r : α → β → Prop} {xs : List α} {ys : List β} {i : Nat} {y : β}
    (h : List.Forall₂ r xs ys) (hy : ys[i]? = some y) : ∃ x, xs[i]? = some x ∧ r x y := by
  induction h generalizing i with
  | nil => cases hy
  | @cons x y' xs ys hxy _ ih =>
    cases i with
    | zero =>
      cases hy
      exact ⟨x, rfl, hxy⟩
    | succ i => exact ih hy

/-! ## two computations -/

variable {δ : Type} {r : ε → ε → Prop} {q : α → β → Prop} {x : Except ε α} {y : Except ε β}

/-- Two computations both give something, related by `q`, or both fail, with faults that are related
    by `r`. -/
inductive Alike (r : ε → ε → Prop) (q : α → β → Prop) : Except ε α → Except ε β → Prop where
  | ok {a : α} {b : β} (h : q a b) : Alike r q (.ok a) (.ok b)
  | error {e e' : ε} (h : r e e') : Alike r q (.error e) (.error e')

theorem Alike.refl {q : α → α → Prop} (hr : ∀ e, r e e) (hq : ∀ a, q a a) (x : Except ε α) :
    Alike r q x x := by
  cases x with
  | error e => exact .error (hr e)
  | ok a => exact .ok (hq a)

theorem Alike.of_eq {x y : Except ε α} {q : α → α → Prop} (hr : ∀ e, r e e) (hq : ∀ a, q a a)
    (h : x = y) : Alike r q x y :=
  h ▸ .refl hr hq x

theorem Alike.mono {q' : α → β → Prop} (h : Alike r q x y) (hq : ∀ a b, q a b → q' a b) :
    Alike r q' x y := by
  cases h with
  | ok h => exact .ok (hq _ _ h)
  | error h => exact .error h

/-- Computations that give the same, and fail with the same fault, are the same. -/
theorem Alike.eq {x y : Except ε α} (h : Alike Eq Eq x y) : x = y := by
  cases h with
  | ok h => exact congrArg Except.ok h
  | error h => exact congrArg Except.error h

theorem Alike.bind {q' : γ → δ → Prop} {f : α → Except ε γ} {g : β → Except ε δ}
    (h : Alike r q x y) (hfg : ∀ a b, q a b → Alike r q' (f a) (g b)) :
    Alike r q' (x >>= f) (y >>= g) := by
  cases h with
  | ok h => exact hfg _ _ h
  | error h => exact .error h

theorem Alike.map {q' : γ → δ → Prop} {f : α → γ} {g : β → δ} (h : Alike r q x y)
    (hfg : ∀ a b, q a b → q' (f a) (g b)) : Alike r q' (f <$> x) (g <$> y) := by
  cases h with
  | ok h => exact .ok (hfg _ _ h)
  | error h => exact .error h

theorem Alike.mapM {f : γ → Except ε α} {g : δ → Except ε β} {xs : List γ} {ys : List δ}
    (h : List.Forall₂ (fun x y => Alike r q (f x) (g y)) xs ys) :
    Alike r (List.Forall₂ q) (xs.mapM f) (ys.mapM g) := by
  induction h with
  | nil => exact .ok .nil
  | cons hxy _ ih =>
    rw [List.mapM_cons, List.mapM_cons]
    exact hxy.bind fun a b hab => ih.bind fun as bs habs => .ok (.cons hab habs)

end FullText.Outcome

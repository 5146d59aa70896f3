import FullText.Proofs.LastBound
import FullText.Proofs.Value.Writable

/-!
# Which values are names and values in turn

* `Reply.Lists v es`          the value `v` lists the pairs `es`;
* `Reply.Readable v`          all names that `v` lists have a text, and all values can be decoded;
* `Reply.Named es ps`         the pairs `ps` are what `es` are read as, place by place;
* `Reply.Binds v b`           the bindings `b` are those of the names and the values in `v`;
* `Reply.pairs_eq_ok_iff`, `Reply.exists_pairs_iff`  this is what the decoder does.
-/

namespace FullText

theorem pairUp?_eq_some_iff {α : Type} {l : List α} {ps : List (α × α)} :
    pairUp? l = some ps ↔ l = ps.flatMap fun p => [p.1, p.2] := by
  constructor
  · intro h
    induction l using pairUp?.induct generalizing ps with
    | case1 =>
      cases h
      rfl
    | case2 a => cases h
    | case3 a b rest ih =>
      obtain ⟨qs, hq, rfl⟩ := Option.map_eq_some_iff.mp h
      rw [List.flatMap_cons, ← ih hq]
      rfl
  · rintro rfl
    exact pairUp?_flatMap ps

namespace Reply

open Value

/-- The pairs that a value lists: nil lists none, a mapping its entries, and an array of either kind
    names and values in turn. -/
inductive Lists : Value → List (Value × Value) → Prop where
  | nil : Lists .nil []
  | map (es : List (Value × Value)) : Lists (.map es) es
  | array {v : Value} {es : List (Value × Value)}
    (items : v.items? = some (es.flatMap fun e => [e.1, e.2])) : Lists v es

theorem entries?_of_items {v : Value} {vs : List Value} (h : v.items? = some vs) :
    entries? v = pairUp? vs := by
  cases v with
  | array ws =>
    cases h
    rfl
  | tuple ws =>
    cases h
    rfl
  | nil | bool | int | float | text | bytes | map => cases h

theorem entries?_eq_some_iff {v : Value} {es : List (Value × Value)} :
    entries? v = some es ↔ Lists v es := by
  constructor
  · intro h
    cases v with
    | nil =>
      cases h
      exact .nil
    | map es =>
      cases h
      exact .map _
    | array vs | tuple vs => exact .array (congrArg some (pairUp?_eq_some_iff.mp h))
    | bool | int | float | text | bytes => cases h
  · intro h
    cases h with
    | nil => rfl
    | map => rfl
    | array items => rw [entries?_of_items items, pairUp?_flatMap]

theorem Lists.unique {v : Value} {es es' : List (Value × Value)} (h : Lists v es)
    (h' : Lists v es') : es = es' :=
  Option.some.inj ((entries?_eq_some_iff.mpr h).symm.trans (entries?_eq_some_iff.mpr h'))

/-- a value lists pairs, every name of which has a text, and every value of which can be decoded -/
def Readable (v : Value) : Prop := ∃ es, Lists v es ∧ ∀ e ∈ es, e.1.Nameable ∧ e.2.Legible

/-- What pairs are read as, place by place: each name as its text, and each value with the text of all
    bytes that are reached through arrays. -/
abbrev Named (es : List (Value × Value)) (ps : List (String × Value)) : Prop :=
  List.Forall₂ (fun e (p : String × Value) => e.1.name = .ok p.1 ∧ Writes p.2 e.2) es ps

/-- The bindings that a value lists.  A name that comes again takes the later value. -/
def Binds (v : Value) (b : Bindings Value) : Prop :=
  ∃ es ps, Lists v es ∧ Named es ps ∧ b = Bindings.ofList ps

/-- The last pair of a name is read as the last pair of its text. -/
theorem Named.isLast {es : List (Value × Value)} {ps : List (String × Value)} {e : Value × Value}
    (h : Named es ps) (he : IsLast (fun e => e.1.name) e es) :
    ∃ p, (e.1.name = .ok p.1 ∧ Writes p.2 e.2) ∧ IsLast Prod.fst p ps :=
  he.forall₂ (fun a b p q hp hq => by rw [hp.1, hq.1, Except.ok.injEq]) h

/-- And what is read last under a text is what the last pair of the name says. -/
theorem Named.exists_isLast {es : List (Value × Value)} {ps : List (String × Value)}
    {p : String × Value} (h : Named es ps) (hp : IsLast Prod.fst p ps) :
    ∃ e : Value × Value, (e.1.name = .ok p.1 ∧ Writes p.2 e.2)
      ∧ IsLast (fun e => e.1.name) e es :=
  hp.forall₂ (fun p q a b ha hb => by rw [ha.1, hb.1, Except.ok.injEq]) h.flip

/-! ## the decoder -/

theorem named_eq_ok_iff {e : Value × Value} {p : String × Value} :
    named e = .ok p ↔ e.1.name = .ok p.1 ∧ Writes p.2 e.2 := by
  rw [named, Outcome.bind_eq_ok, ← decode_eq_ok_iff]
  constructor
  · rintro ⟨n, hn, h⟩
    obtain ⟨v, hv, rfl⟩ := Outcome.map_eq_ok.mp h
    exact ⟨hn, hv⟩
  · rintro ⟨hn, hv⟩
    exact ⟨p.1, hn, Outcome.map_eq_ok.mpr ⟨p.2, hv, rfl⟩⟩

theorem exists_named_iff {e : Value × Value} :
    (∃ p, named e = .ok p) ↔ e.1.Nameable ∧ e.2.Legible := by
  rw [← exists_name_iff, ← exists_decode_iff]
  exact Outcome.exists_bind_ok fun n _ => Outcome.exists_map_ok

theorem pairs_of_lists {v : Value} {es : List (Value × Value)} (h : Lists v es) :
    pairs v = Bindings.ofList <$> es.mapM named := by
  rw [pairs, entries?_eq_some_iff.mpr h]

/-- Whatever is read lists pairs. -/
theorem exists_lists_of_pairs {v : Value} {b : Bindings Value} (h : pairs v = .ok b) :
    ∃ es, Lists v es := by
  cases he : entries? v with
  | some es => exact ⟨es, entries?_eq_some_iff.mp he⟩
  | none =>
    rw [pairs, he] at h
    exact absurd h refuse_ne_ok

theorem pairs_eq_ok_iff {v : Value} {b : Bindings Value} : pairs v = .ok b ↔ Binds v b := by
  constructor
  · intro h
    obtain ⟨es, he⟩ := exists_lists_of_pairs h
    rw [pairs_of_lists he] at h
    obtain ⟨ps, hps, rfl⟩ := Outcome.map_eq_ok.mp h
    refine ⟨es, ps, he, ?_, rfl⟩
    simpa only [named_eq_ok_iff] using Outcome.mapM_eq_ok.mp hps
  · rintro ⟨es, ps, he, hps, rfl⟩
    rw [pairs_of_lists he, Outcome.map_eq_ok]
    refine ⟨ps, Outcome.mapM_eq_ok.mpr ?_, rfl⟩
    simpa only [named_eq_ok_iff] using hps

theorem exists_pairs_iff {v : Value} : (∃ b, pairs v = .ok b) ↔ Readable v := by
  constructor
  · rintro ⟨b, h⟩
    obtain ⟨es, he⟩ := exists_lists_of_pairs h
    rw [pairs_of_lists he] at h
    obtain ⟨ps, hps, -⟩ := Outcome.map_eq_ok.mp h
    exact ⟨es, he, fun e hm => exists_named_iff.mp (Outcome.exists_mapM_ok.mp ⟨ps, hps⟩ e hm)⟩
  · rintro ⟨es, he, hes⟩
    rw [pairs_of_lists he, Outcome.exists_map_ok, Outcome.exists_mapM_ok]
    exact fun e hm => exists_named_iff.mpr (hes e hm)

end Reply

end FullText

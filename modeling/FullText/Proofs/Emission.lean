import FullText.Clause
import FullText.Proofs.Outcome

/-!
# Emissions put the same tokens behind any others

* `Emits e a ts`            behind any tokens, the emission `e` gives `a` and puts `ts`;
* `Refuses e f`             behind any tokens, it fails with `f` and puts nothing;
* `Emits.bind`, `Emits.each`  emissions one after another put their tokens one after another;
* `Emits.counted`           the count of a clause is in front of the parts that it counts;
* `Clause.emits`            a clause puts its tokens, and reports its width;
* `EmissionLaw`             what this says about the clauses behind some tokens;
* `Clause.appended_behind`  it holds behind all tokens.

A count is inserted in a place that is kept in mind, so it is only right if nothing that is put in
between moves that place: this is what `Emits` says of the parts.
-/

namespace FullText

namespace Emission

variable {α β : Type}

/-- whatever tokens there are, the emission gives `a` and puts `ts` behind them -/
def Emits (e : Emission α) (a : α) (ts : List Token) : Prop :=
  ∀ out, e.on out = (.ok a, out ++ ts)

/-- whatever tokens there are, the emission fails and leaves them as they are -/
def Refuses (e : Emission α) (f : Fault) : Prop := ∀ out, e.on out = (.error f, out)

/-! ## one emission after another -/

theorem Emits.pure (a : α) : Emits (Pure.pure a) a [] := by
  intro out
  rw [List.append_nil]
  rfl

theorem Emits.bind {x : Emission α} {g : α → Emission β} {a : α} {b : β} {ts us : List Token}
    (hx : Emits x a ts) (hg : Emits (g a) b us) : Emits (x >>= g) b (ts ++ us) := by
  intro out
  rw [Procedure.on_bind, hx out, ← List.append_assoc]
  exact hg (out ++ ts)

theorem Refuses.bind {x : Emission α} {f : Fault} (h : Refuses x f) (g : α → Emission β) :
    Refuses (x >>= g) f := by
  intro out
  rw [Procedure.on_bind, h out]
  rfl

theorem Emits.map {x : Emission α} {a : α} {ts : List Token} (h : Emits x a ts) (g : α → β) :
    Emits (g <$> x) (g a) ts := by
  have hg : Emits (x >>= fun a => Pure.pure (g a)) (g a) (ts ++ []) := h.bind (.pure (g a))
  rw [List.append_nil] at hg
  exact hg

theorem Refuses.map {x : Emission α} {f : Fault} (h : Refuses x f) (g : α → β) :
    Refuses (g <$> x) f :=
  h.bind fun a => Pure.pure (g a)

theorem emits_put (t : Token) : Emits (put t) () [t] := fun _ => rfl

theorem emits_putAll (ts : List Token) : Emits (putAll ts) () ts := fun _ => rfl

/-! ## parts of clauses -/

/-- Parts that report how many tokens they put: so does the sum of what they report. -/
theorem Emits.each {emit : α → Emission Nat} {tokens : α → List Token}
    (h : ∀ a, Emits (emit a) (tokens a).length (tokens a)) (as : List α) :
    Emits (each emit as) (as.flatMap tokens).length (as.flatMap tokens) := by
  induction as with
  | nil => exact .pure 0
  | cons a as ih =>
    rw [List.flatMap_cons, List.length_append]
    exact (h a).bind (ih.map ((tokens a).length + ·))

theorem Emits.forM {emit : α → Emission Unit} {tokens : α → List Token}
    (h : ∀ a, Emits (emit a) () (tokens a)) (as : List α) :
    Emits (as.forM emit) () (as.flatMap tokens) := by
  induction as with
  | nil => exact .pure ()
  | cons a as ih =>
    rw [List.flatMap_cons]
    exact (h a).bind ih

/-- The place of the count is still where it was when the parts are there, since they are all behind
    it. -/
theorem Emits.counted {parts : Emission Nat} {n : Nat} {ts : List Token} (keyword : String)
    (h : Emits parts n ts) : Emits (counted keyword parts) () (.text keyword :: .nat n :: ts) := by
  intro out
  let before := out ++ [Token.text keyword]
  have hparts : parts.on before = (.ok n, before ++ ts) := h before
  have hcount : (Emission.counted keyword parts).on out
      = (insertAt before.length (.nat n)).on (before ++ ts) := by
    show (parts >>= fun count => insertAt before.length (.nat count)).on before = _
    rw [Procedure.on_bind, hparts]
    rfl
  rw [hcount]
  show (Except.ok (), (before ++ ts).take before.length ++ _ :: (before ++ ts).drop before.length) = _
  rw [List.take_left, List.drop_left, List.append_assoc]
  rfl

end Emission

/-! ## parts of requests -/

open Emission

theorem FieldName.emits (f : FieldName) : Emits f.emit f.tokens.length f.tokens := by
  obtain ⟨name, label⟩ := f
  cases label with
  | none => exact (emits_put (.text name)).bind (.pure 1)
  | some a => exact (emits_put (.text name)).bind ((emits_putAll [.text "AS", .text a]).bind (.pure 3))

theorem SortKey.emits (k : SortKey) : Emits k.emit k.tokens.length k.tokens := by
  obtain ⟨field, direction⟩ := k
  cases direction with
  | none => exact (emits_put (.text field)).bind (.pure 1)
  | some d => exact (emits_putAll [.text field, .text d.keyword]).bind (.pure 2)

theorem Filter.emits {f : Filter} {ts : List Token} (h : f.tokens = .ok ts) : Emits f.emit () ts := by
  rw [Filter.emit, h]
  exact emits_putAll ts

theorem Filter.refuses {f : Filter} {e : Fault} (h : f.tokens = .error e) : Refuses f.emit e := by
  rw [Filter.emit, h]
  exact fun _ => rfl

theorem Reducer.emits (r : Reducer) : Emits r.emit () r.tokens :=
  (emits_putAll _).bind (emits_putAll _)

theorem Stage.emits (s : Stage) : Emits s.emit () s.tokens := by
  cases s with
  | groupBy fields reducers => exact (emits_putAll _).bind (.forM Reducer.emits reducers)
  | sortBy keys max =>
    rw [Stage.tokens, ← SortKey.length_flatMap_tokens]
    exact (Emits.counted "SORTBY" (.each SortKey.emits keys)).bind (emits_putAll _)
  | apply | filter | limit => exact emits_putAll _

theorem CursorOptions.emits (c : CursorOptions) : Emits c.emit () c.tokens :=
  (emits_put _).bind ((emits_putAll _).bind (emits_putAll _))

theorem FieldName.emits_counted (keyword : String) (fs : List FieldName) :
    Emits (Emission.counted keyword (each FieldName.emit fs)) () (FieldName.counted keyword fs) := by
  rw [FieldName.counted, ← FieldName.length_flatMap_tokens]
  exact .counted keyword (.each FieldName.emits fs)

/-! ## clauses -/

namespace Clause

theorem emits {c : Clause} {ts : List Token} (h : c.tokens = .ok ts) : Emits c.emit c.width? ts := by
  cases c with
  | filter f => exact (Filter.emits h).map _
  | field f =>
    cases h
    rw [width?, ← FieldName.length_tokens]
    exact f.emits.map some
  | sortKey k =>
    cases h
    rw [width?, ← SortKey.length_tokens]
    exact k.emits.map some
  | reducer r =>
    cases h
    exact r.emits.map _
  | stage s =>
    cases h
    exact s.emits.map _
  | cursor c =>
    cases h
    exact c.emits.map _
  | counted keyword fs =>
    cases h
    exact (FieldName.emits_counted keyword fs).map _

theorem refuses {c : Clause} {f : Fault} (h : c.tokens = .error f) : Refuses c.emit f := by
  cases c with
  | filter g => exact (Filter.refuses h).map _
  | field | sortKey | reducer | stage | cursor | counted => cases h

/-- Behind any tokens a clause puts those that it has behind none. -/
theorem appendTo_eq (out : List Token) (c : Clause) :
    c.appendTo out = ((c.appendTo []).1, out ++ (c.appendTo []).2) := by
  cases h : c.tokens with
  | ok ts => rw [appendTo, appendTo, emits h, emits h, List.nil_append]
  | error f => rw [appendTo, appendTo, refuses h, refuses h, List.append_nil]

theorem appendTo_eq_ok {c : Clause} {ts : List Token} (out : List Token) (h : c.tokens = .ok ts) :
    c.appendTo out = (.ok c.width?, out ++ ts) :=
  emits h out

theorem put_of_ok {c : Clause} {ts : List Token} (h : c.tokens = .ok ts) : (c.appendTo []).2 = ts := by
  rw [appendTo_eq_ok [] h]
  rfl

/-- what the clauses put behind some tokens, and what they report -/
structure EmissionLaw (out : List Token) : Prop where
  /-- a clause puts what it puts behind no tokens at all, and so does what comes of it not depend on
      them -/
  behind : ∀ c : Clause, c.appendTo out = ((c.appendTo []).1, out ++ (c.appendTo []).2)
  /-- one that fails puts nothing -/
  refused : ∀ (c : Clause) (f : Fault), (c.appendTo out).1 = .error f → (c.appendTo out).2 = out
  /-- these are the tokens that requests are compiled to -/
  compiled : ∀ (c : Clause) (ts : List Token), c.tokens = .ok ts → (c.appendTo out).2 = out ++ ts
  /-- a field reports how many tokens it has put -/
  field : ∀ f : FieldName, ∃ ts, (field f).appendTo out = (.ok (some ts.length), out ++ ts)
  /-- and so does a key of a sort -/
  sortKey : ∀ k : SortKey, ∃ ts, (sortKey k).appendTo out = (.ok (some ts.length), out ++ ts)
  /-- the count of a clause follows its keyword, and is the number of tokens of its fields -/
  counted : ∀ (keyword : String) (fs : List FieldName), ∃ body,
    body = fs.flatMap (fun f => ((Clause.field f).appendTo []).2)
      ∧ (counted keyword fs).appendTo out
        = (.ok none, out ++ .text keyword :: .nat body.length :: body)
  /-- so it is for the keys of a sort, behind which its limit may stand -/
  sortBy : ∀ (keys : List SortKey) (max : Option Int), ∃ body,
    body = keys.flatMap (fun k => ((Clause.sortKey k).appendTo []).2)
      ∧ (stage (.sortBy keys max)).appendTo out
        = (.ok none, out ++ .text "SORTBY" :: .nat body.length
          :: (body ++ Token.option "MAX" (max.map .int)))

/-- Whatever tokens there are, even if they read like the clause itself: the clauses put the same
    behind them, and count it right. -/
theorem appended_behind (out : List Token) : EmissionLaw out where
  behind := appendTo_eq out
  refused c f h := by
    cases hc : c.tokens with
    | ok ts =>
      rw [appendTo_eq_ok out hc] at h
      cases h
    | error g => rw [appendTo, refuses hc]
  compiled c ts h := by rw [appendTo_eq_ok out h]
  field f := ⟨f.tokens, f.emits.map some out⟩
  sortKey k := ⟨k.tokens, k.emits.map some out⟩
  counted keyword fs := by
    refine ⟨_, rfl, ?_⟩
    simp only [put_of_ok (c := .field _) rfl, FieldName.length_flatMap_tokens]
    exact appendTo_eq_ok out rfl
  sortBy keys max := by
    refine ⟨_, rfl, ?_⟩
    simp only [put_of_ok (c := .sortKey _) rfl, SortKey.length_flatMap_tokens]
    exact appendTo_eq_ok out rfl

/-- A field with a label is three tokens wide, and the count behind the keyword says so. -/
example : (counted "LOAD" [⟨"a", none⟩, ⟨"b", some "LOAD"⟩]).appendTo [.text "LOAD", .nat 1]
    = (.ok none, [.text "LOAD", .nat 1, .text "LOAD", .nat 4, .text "a", .text "b", .text "AS",
      .text "LOAD"]) := by decide

end Clause

end FullText

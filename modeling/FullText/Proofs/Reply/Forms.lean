import FullText.Proofs.Reply.Agreement
import FullText.Reply.Info

/-!
# Pairs in a mapping, and names and values in turn

* `Reply.Folds es b`          `b` has the names of the pairs `es`, each once and in the order in which they
                              first occur, with the last value of each;
* `Reply.FailsFirst es f`     `f` is the fault of the first pair that cannot be read;
* `Reply.OrderedFold es`      so it is whatever form the pairs come in, and the form does not matter;
* `Reply.Restates v w`        two values that list the same pairs, or are the same;
* `SearchResult.Restated`, `Batch.Restated`  replies that are the same but for the forms of the parts
                              that list pairs;
* `Reply.last_write_fold`     the decoders make the same of them.
-/

namespace FullText

open Value

namespace Reply

/-! ## the fold -/

/-- names and values in turn -/
def flat (es : List (Value × Value)) : List Value := es.flatMap fun e => [e.1, e.2]

/-- The bindings have the names of the pairs, each once and in the order in which they first occur.
    Names are the same if their texts are.  Each has the last value, decoded, that is under it. -/
structure Folds (es : List (Value × Value)) (b : Bindings Value) : Prop where
  names : ∃ ns, List.Forall₂ (fun e n => e.1.name = .ok n) es ns ∧ b.names = ns.eraseDups
  values : ∀ n v, (n, v) ∈ b.pairs
    ↔ ∃ e, IsLast (fun e => e.1.name) e es ∧ e.1.name = .ok n ∧ e.2.decode = .ok v

/-- The first pair that cannot be read has the fault, in its name or, after that, in its value. -/
def FailsFirst (es : List (Value × Value)) (f : Fault) : Prop :=
  ∃ (i : Nat) (e : Value × Value), es[i]? = some e
    ∧ (e.1.name = .error f ∨ (∃ n, e.1.name = .ok n) ∧ e.2.decode = .error f)
    ∧ ∀ j < i, ∀ d, es[j]? = some d → (∃ n, d.1.name = .ok n) ∧ ∃ v, d.2.decode = .ok v

variable {v w : Value} {es : List (Value × Value)}

theorem Binds.folds {b : Bindings Value} (h : Binds v b) (hv : Lists v es) : Folds es b := by
  obtain ⟨es', ps, hes, hps, rfl⟩ := h
  obtain rfl := hv.unique hes
  constructor
  · refine ⟨ps.map Prod.fst, ?_, Bindings.names_ofList ps⟩
    rw [List.forall₂_map_right_iff]
    exact hps.imp fun e p h => h.1
  · intro n u
    rw [Bindings.mem_ofList_iff]
    constructor
    · intro hlast
      obtain ⟨e, ⟨hn, hu⟩, he⟩ := Named.exists_isLast hps hlast
      exact ⟨e, he, hn, decode_eq_ok_iff.mpr hu⟩
    · rintro ⟨e, he, hn, hu⟩
      obtain ⟨⟨m, u'⟩, ⟨hm, hu'⟩, hlast⟩ := Named.isLast hps he
      have hname : m = n := Except.ok.inj (hm.symm.trans hn)
      have hvalue : u' = u := Except.ok.inj ((decode_eq_ok_iff.mpr hu').symm.trans hu)
      rwa [hname, hvalue] at hlast

theorem named_eq_error {e : Value × Value} {f : Fault} :
    named e = .error f
      ↔ e.1.name = .error f ∨ (∃ n, e.1.name = .ok n) ∧ e.2.decode = .error f := by
  rw [named, Outcome.bind_eq_error]
  refine or_congr_right ⟨?_, ?_⟩
  · rintro ⟨n, hn, h⟩
    exact ⟨⟨n, hn⟩, Outcome.map_eq_error.mp h⟩
  · rintro ⟨⟨n, hn⟩, h⟩
    exact ⟨n, hn, Outcome.map_eq_error.mpr h⟩

theorem exists_named {e : Value × Value} :
    (∃ p, named e = .ok p) ↔ (∃ n, e.1.name = .ok n) ∧ ∃ v, e.2.decode = .ok v :=
  Outcome.exists_bind_ok fun _ _ => Outcome.exists_map_ok

theorem pairs_eq_error_iff {f : Fault} (hv : Lists v es) : pairs v = .error f ↔ FailsFirst es f := by
  rw [pairs_of_lists hv, Outcome.map_eq_error, Outcome.mapM_eq_error]
  simp only [named_eq_error, exists_named, FailsFirst]

/-! ## forms -/

/-- two values are the same, or list the same pairs -/
def Restates (v w : Value) : Prop := v = w ∨ ∃ es, Lists v es ∧ Lists w es

theorem Restates.pairs_eq (h : Restates v w) : pairs v = pairs w := by
  obtain rfl | ⟨es, hv, hw⟩ := h
  · rfl
  · rw [pairs_of_lists hv, pairs_of_lists hw]

/-- no key is equal to an earlier one, as they are and before they have been read -/
def DistinctKeys (es : List (Value × Value)) : Prop := es.Pairwise fun d e => same d.1 e.1 = false

theorem putEntry_of_new {key value : Value} {m : List (Value × Value)}
    (h : ∀ d ∈ m, same d.1 key = false) : putEntry key value m = m ++ [(key, value)] := by
  induction m with
  | nil => rfl
  | cons d m ih =>
    obtain ⟨hd, hm⟩ := List.forall_mem_cons.mp h
    have hne : ¬ same d.1 key = true := by rw [hd]; exact Bool.false_ne_true
    rw [putEntry, if_neg hne, ih hm, List.cons_append]

theorem foldl_putEntry {m : List (Value × Value)} (h : DistinctKeys (m ++ es)) :
    es.foldl (fun m e => putEntry e.1 e.2 m) m = m ++ es := by
  induction es generalizing m with
  | nil => exact (List.append_nil m).symm
  | cons e es ih =>
    have hnew : ∀ d ∈ m, same d.1 e.1 = false := fun d hd =>
      (List.pairwise_append.mp h).2.2 d hd e List.mem_cons_self
    have hstep : m ++ e :: es = (m ++ [e]) ++ es := List.append_cons m e es
    rw [List.foldl_cons, putEntry_of_new hnew, ih (hstep ▸ h), hstep]

/-- A mapping that is made of pairs with distinct keys has just these pairs. -/
theorem ofEntries_of_distinct (h : DistinctKeys es) : Value.ofEntries es = .map es := by
  have hfold := foldl_putEntry (m := []) h
  rw [Value.ofEntries, hfold, List.nil_append]

/-- what pairs are read as, whatever form they come in -/
structure OrderedFold (es : List (Value × Value)) : Prop where
  folds : ∀ v b, Lists v es → pairs v = .ok b → Folds es b
  fails : ∀ v f, Lists v es → (pairs v = .error f ↔ FailsFirst es f)
  /-- names and values in turn, in an array of either kind, are the mapping with the pairs restated -/
  array : ∀ v, v.items? = some (flat es) → Restates v (.map es) ∧ pairs v = pairs (.map es)
  /-- this is the mapping that binds one pair after another, if the keys are distinct -/
  mapping : DistinctKeys es → Value.ofEntries es = .map es

theorem orderedFold (es : List (Value × Value)) : OrderedFold es where
  folds _ _ hv h := (pairs_eq_ok_iff.mp h).folds hv
  fails _ _ hv := pairs_eq_error_iff hv
  array v hv := by
    have h : Restates v (.map es) := .inr ⟨es, .array hv, .map es⟩
    exact ⟨h, h.pairs_eq⟩
  mapping h := ofEntries_of_distinct h

/-- Names that are not the same may have the same text: the number, and the text of it. -/
example : pairs (.array [.int 1, .nil, .bytes [0x61], .bool true, .text "1", .bytes [0x62]])
    = .ok ⟨[("1", .text "b"), ("a", .bool true)]⟩ := rfl

end Reply

open Reply

namespace SearchResult

/-- two search replies are the same, but for the forms of the fields of their documents -/
def Restated (s : ReplyShape) (reply reply' : Value) : Prop :=
  ∃ head body body', reply.items? = some (head :: body) ∧ reply'.items? = some (head :: body')
    ∧ body.length = body'.length
    ∧ ∀ i < body.length / s.stride, ∃ (x : Slots) (w : Value),
        slice s.stride i (head :: body) = s.block x
          ∧ slice s.stride i (head :: body') = s.block { x with fields := w }
          ∧ Restates x.fields w

theorem Restated.decode_eq {s : ReplyShape} {reply reply' : Value} (h : Restated s reply reply') :
    decode s reply = decode s reply' := by
  obtain ⟨head, body, body', hv, hw, hlen, hdocs⟩ := h
  have hr : ∀ f : Fault, f = f := fun _ => rfl
  refine (decode_agree hr hv hw hlen (.refl hr (fun _ => rfl) _) fun _ i hi => ?_).eq
  obtain ⟨x, w, hx, hy, hxw⟩ := hdocs i hi
  have hfields : Slots.readFields (!s.noContent) x.fields = Slots.readFields (!s.noContent) w := by
    rw [Slots.readFields, Slots.readFields, hxw.pairs_eq]
  refine ⟨x, _, hx, hy, ?_⟩
  exact {
    id := .refl hr (fun _ _ => rfl) _
    score := .refl hr (fun _ => rfl) _
    payload := .of_eq hr (fun _ => rfl) rfl
    fields := .of_eq hr (fun _ _ => rfl) hfields }

end SearchResult

namespace Batch

/-- two totals with rows behind them are the same, but for the forms of the rows -/
def RowsRestated (v w : Value) : Prop :=
  ∃ head body body', v.items? = some (head :: body) ∧ w.items? = some (head :: body')
    ∧ List.Forall₂ Restates body body'

/-- two replies of aggregations are the same, but for the forms of the rows -/
def Restated (withCursor : Bool) (reply reply' : Value) : Prop :=
  if withCursor then ∃ rows rows' id, reply.items? = some [rows, id]
    ∧ reply'.items? = some [rows', id] ∧ RowsRestated rows rows'
  else RowsRestated reply reply'

theorem RowsRestated.decodeRows_agree {v w : Value} (h : RowsRestated v w) (cursor : Option Int) :
    Outcome.Alike Eq (SameCursor True) (decodeRows cursor v) (decodeRows cursor w) := by
  obtain ⟨head, body, body', hv, hw, hrows⟩ := h
  have hr : ∀ f : Fault, f = f := fun _ => rfl
  refine Batch.decodeRows_agree cursor hv hw (.refl hr (fun _ => rfl) _) ?_
  exact hrows.imp fun v w hvw => .of_eq hr (fun _ _ => rfl) hvw.pairs_eq

theorem Restated.decodeCursor_eq {reply reply' : Value} (h : Restated true reply reply') :
    decodeCursor reply = decodeCursor reply' := by
  obtain ⟨rows, rows', id, hv, hw, hrows⟩ := h
  have hid : Outcome.Alike Eq Eq (id.expectInt .cursorId) (id.expectInt .cursorId) :=
    .refl (fun _ => rfl) (fun _ => rfl) _
  exact ((decodeCursor_agree hv hw hid fun c => hrows.decodeRows_agree (some c)).mono
    fun _ _ h => h.2 trivial).eq

theorem Restated.decode_eq {s : ReplyShape} {reply reply' : Value}
    (h : Restated s.withCursor reply reply') : decode s reply = decode s reply' := by
  rw [decode, decode]
  cases hs : s.withCursor with
  | true =>
    rw [hs] at h
    exact h.decodeCursor_eq
  | false =>
    rw [hs] at h
    exact ((RowsRestated.decodeRows_agree h none).mono fun _ _ h => h.2 trivial).eq

end Batch

namespace Reply

/-- replies that are the same but for the forms of parts that list pairs are decoded alike -/
structure FormsAgree (reply reply' : Value) : Prop where
  search : ∀ s, SearchResult.Restated s reply reply' →
    SearchResult.decode s reply = SearchResult.decode s reply'
  aggregate : ∀ s, Batch.Restated s.withCursor reply reply' →
    Batch.decode s reply = Batch.decode s reply'
  cursor : Batch.Restated true reply reply' → Batch.decodeCursor reply = Batch.decodeCursor reply'
  info : Restates reply reply' → IndexInfo.decode reply = IndexInfo.decode reply'

/-- Pairs are bound from the first to the last, whatever form they come in, and the last value of a name
    is the one that it has: so the form of a document's fields, of a row, or of what is said about an
    index does not matter. -/
theorem last_write_fold : (∀ (v : Value) vs, v.items? = some vs → vs.length % 2 = 0 → ∃ es, vs = flat es)
    ∧ (∀ es, OrderedFold es) ∧ ∀ reply reply', FormsAgree reply reply' := by
  refine ⟨fun v vs hv heven => ?_, orderedFold, fun reply reply' => ?_⟩
  · have hsome : (pairUp? vs).isSome := by rw [pairUp?_isSome, heven]; rfl
    obtain ⟨es, he⟩ := Option.isSome_iff_exists.mp hsome
    exact ⟨es, pairUp?_eq_some_iff.mp he⟩
  · exact ⟨fun _ h => h.decode_eq, fun _ h => h.decode_eq, fun h => h.decodeCursor_eq,
      fun h => congrArg (IndexInfo.mk <$> ·) h.pairs_eq⟩

end Reply

end FullText

import FullText.Proofs.Text.Utf8
import FullText.Reply.Pairs

/-!
# How an engine writes values

* `Value.Writes v w`       `w` is a way to write `v`: a text may be given as its bytes, and an array
                           is of either kind;
* `Value.WritesPairs`      the same for names and values in turn, or for no pairs at all;
* `Writes.decode_eq`       decoding finds the value that was written, whichever way it was;
* `WritesPairs.pairs_eq`   so it is for names and values.

A client may or may not have decoded the bytes of a reply, so nothing may depend on which of the
ways was taken.
-/

namespace FullText.Value

mutual

/-- `w` is a way to write `v` in a reply; a mapping is only written as it is -/
inductive Writes : Value → Value → Prop where
  | nil : Writes .nil .nil
  | bool (b : Bool) : Writes (.bool b) (.bool b)
  | int (n : Int) : Writes (.int n) (.int n)
  | float (x : Binary64) : Writes (.float x) (.float x)
  | text (s : String) : Writes (.text s) (.text s)
  | bytes (s : String) : Writes (.text s) (.bytes (Text.Utf8.encode s))
  | array {vs ws : List Value} : WritesAll vs ws → Writes (.array vs) (.array ws)
  | tuple {vs ws : List Value} : WritesAll vs ws → Writes (.array vs) (.tuple ws)
  | map (es : List (Value × Value)) : Writes (.map es) (.map es)

/-- the same for the elements of an array, place by place -/
inductive WritesAll : List Value → List Value → Prop where
  | nil : WritesAll [] []
  | cons {v w : Value} {vs ws : List Value} : Writes v w → WritesAll vs ws →
    WritesAll (v :: vs) (w :: ws)

end

/-- `w` is a way to write some pairs: an array of either kind, or nil for none at all -/
inductive WritesPairs : Option (List (String × Value)) → Value → Prop where
  | nil : WritesPairs none .nil
  | array {ps : List (String × Value)} {w : Value} {ws : List Value} :
    w.items? = some ws → WritesAll (ps.flatMap fun p => [.text p.1, p.2]) ws →
    WritesPairs (some ps) w

/-! ## values -/

theorem bytesToText_encode (s : String) : bytesToText (Text.Utf8.encode s) = .ok s := by
  rw [bytesToText, Text.Utf8.decode_encode]
  rfl

mutual

theorem Writes.decode_eq {v w : Value} (h : Writes v w) : w.decode = .ok v := by
  cases h with
  | nil => rfl
  | bool b => rfl
  | int n => rfl
  | float x => rfl
  | text s => rfl
  | bytes s =>
    rw [Value.decode, bytesToText_encode]
    rfl
  | array h =>
    rw [Value.decode, WritesAll.decodeAll_eq h]
    rfl
  | tuple h =>
    rw [Value.decode, WritesAll.decodeAll_eq h]
    rfl
  | map es => rfl

theorem WritesAll.decodeAll_eq {vs ws : List Value} (h : WritesAll vs ws) :
    decodeAll ws = .ok vs := by
  cases h with
  | nil => rfl
  | cons h hs =>
    rw [decodeAll, Writes.decode_eq h, WritesAll.decodeAll_eq hs]
    rfl

end

/-! ## texts -/

theorem Writes.asText_eq {s : String} {w : Value} (h : Writes (.text s) w) :
    w.asText = .ok (.text s) := by
  cases h with
  | text s => rfl
  | bytes s =>
    rw [asText, bytesToText_encode]
    rfl

theorem Writes.name_eq {s : String} {w : Value} (h : Writes (.text s) w) : w.name = .ok s := by
  rw [name, h.asText_eq]
  rfl

/-- a text that spells a number, as a part of a reply -/
theorem Writes.expectFloat_eq {s : String} {w : Value} {x : Binary64} (e : Expected)
    (h : Writes (.text s) w) (hx : Numeral.readFloat? s = some x) : w.expectFloat e = .ok x := by
  have ht : textToFloat s = .ok x := by rw [textToFloat, hx]
  have hw : w.toFloat = .ok x := by
    cases h with
    | text s => exact ht
    | bytes s =>
      rw [toFloat, bytesToText_encode]
      exact ht
  rw [expectFloat, hw]
  rfl

/-! ## names and values in turn -/

theorem named_eq {n : String} {v a b : Value} (hn : Writes (.text n) a) (hv : Writes v b) :
    Reply.named (a, b) = .ok (n, v) := by
  rw [Reply.named, hn.name_eq, hv.decode_eq]
  rfl

theorem WritesAll.pairUp?_eq {ps : List (String × Value)} {ws : List Value}
    (h : WritesAll (ps.flatMap fun p => [.text p.1, p.2]) ws) :
    ∃ es, pairUp? ws = some es ∧ es.mapM Reply.named = .ok ps := by
  induction ps generalizing ws with
  | nil =>
    cases h
    exact ⟨[], rfl, rfl⟩
  | cons p ps ih =>
    rw [List.flatMap_cons] at h
    cases h with
    | @cons _ a _ _ hn h =>
      cases h with
      | @cons _ b _ ws hv h =>
        obtain ⟨es, he, hm⟩ := ih h
        refine ⟨(a, b) :: es, by rw [pairUp?, he]; rfl, ?_⟩
        rw [List.mapM_cons, named_eq hn hv, hm]
        rfl

theorem WritesPairs.pairs_eq {ps : Option (List (String × Value))} {w : Value}
    (h : WritesPairs ps w) : Reply.pairs w = .ok (Bindings.ofList (ps.getD [])) := by
  cases h with
  | nil => rfl
  | @array ps w ws hw h =>
    obtain ⟨es, he, hm⟩ := h.pairUp?_eq
    have hs : Reply.entries? w = some es := by
      cases w with
      | array vs => cases hw; exact he
      | tuple vs => cases hw; exact he
      | nil | bool | int | float | text | bytes | map => cases hw
    rw [Reply.pairs, hs]
    simp only [hm]
    rfl

end FullText.Value

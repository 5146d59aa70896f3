import FullText.Exchange
import FullText.Proofs.Cursor.Grammar
import FullText.Proofs.Outcome
import FullText.Proofs.Value.Written
import FullText.Reply.Batch
import FullText.Reply.Info
import Mathlib.Logic.Function.Basic

/-!
# Engines with cursors

* `Page`            a batch that an engine has found, and what it means by it;
* `Engine`          the open cursors of an engine with the pages that are left there, and its faults;
* `Continues`       the cursor that goes with a page: zero with the last one, and else a new one;
* `ServesCursors`   the other side of a transport keeps cursors as its commands ask for;
* `decode_writes`   the reply that holds a page is decoded to the batch that is meant.

The id of a cursor may change with every page.  A cursor belongs to an index: the same id may be open
for two of them, and a read of it for a third one is a fault.
-/

namespace FullText

/-- a batch that an engine has found: the names and values of each row -/
structure Page where
  total : Int
  rows : List (List (String × Value))

namespace Page

/-- a reply that holds the page and the id of a cursor -/
def Writes (p : Page) (id : Int) (reply : Value) : Prop :=
  ∃ body ws, reply.items? = some [body, .int id] ∧ body.items? = some (.int p.total :: ws)
    ∧ List.Forall₂ (fun row w => Value.WritesPairs (some row) w) p.rows ws

/-- the batch that is meant; a name that has several values in a row has the last of them -/
def batch (p : Page) (id : Int) : Batch := ⟨p.total, p.rows.map Bindings.ofList, some id⟩

theorem mapM_pairs {rows : List (List (String × Value))} {ws : List Value}
    (h : List.Forall₂ (fun row w => Value.WritesPairs (some row) w) rows ws) :
    ws.mapM Reply.pairs = .ok (rows.map Bindings.ofList) :=
  Outcome.mapM_eq_map h fun _ _ hw => hw.pairs_eq

theorem decode_writes {p : Page} {id : Int} {reply : Value} (h : p.Writes id reply) :
    Batch.decodeCursor reply = .ok (p.batch id) := by
  obtain ⟨body, ws, hr, hb, hw⟩ := h
  have hid : Value.expectInt .cursorId (.int id) = .ok id := rfl
  have ht : Value.expectInt .aggregationTotal (.int p.total) = .ok p.total := rfl
  simp only [Batch.decodeCursor, Batch.decodeRows, hr, hid, hb, bind, Except.bind, ht,
    mapM_pairs hw]
  rfl

end Page

theorem Reply.isOk_writes {w : Value} (h : Value.Writes (.text "OK") w) : isOk w = .ok true := by
  have ht := h.asText_eq
  cases h with
  | text s => rfl
  | bytes s =>
    simp only [isOk, ht]
    rfl

/-- the index and the id of a cursor -/
abbrev CursorKey := Token × Int

/-- the open cursors, each with the pages that are left there -/
abbrev Cursors := CursorKey → Option (List Page)

/-- what matters of an engine: its open cursors, and how often it was asked for one that is not -/
structure Engine where
  cursors : Cursors
  faults : Nat

/-- The cursor that goes with a page, given what is left behind it, and the open cursors then: there
    is none after the last page, and its id is zero; else it is a new one, and not zero. -/
inductive Continues (cs : Cursors) (index : Token) : List Page → Int → Cursors → Prop where
  | last : Continues cs index [] 0 cs
  | more {id : Int} {p : Page} {ps : List Page} (nonzero : id ≠ 0)
    (unused : cs (index, id) = none) :
    Continues cs index (p :: ps) id (Function.update cs (index, id) (some (p :: ps)))

variable {σ : Type}

/-- the reply holds the page, the open cursors go on with what is left behind it, and there is no
    fault -/
def Serves (index : Token) (p : Page) (ps : List Page) (cs : Cursors) (faults : Nat)
    (reply : Except String Value) (after : Engine) : Prop :=
  ∃ v id cs', reply = .ok v ∧ p.Writes id v ∧ Continues cs index ps id cs' ∧ after = ⟨cs', faults⟩

/-- The other side of a transport keeps cursors.  `found` are the pages of an aggregation, at least
    one, and they may depend on the command and on everything that the other side knows. -/
structure ServesCursors (t : Transport σ) (view : σ → Engine)
    (found : List Token → σ → Page × List Page) : Prop where
  /-- an aggregation with a cursor gives its first page, and opens a cursor if there are more -/
  aggregate : ∀ command x index r,
    CursorCommand.ofTokens? command = some (.aggregate index r) → r.cursor.isSome →
    Serves index (found command x).1 (found command x).2 (view x).cursors (view x).faults
      (t command x).1 (view (t command x).2)
  /-- a read of an open cursor gives its next page, and the cursor is replaced -/
  read : ∀ command x index id count p ps,
    CursorCommand.ofTokens? command = some (.read index id count) →
    (view x).cursors (index, id) = some (p :: ps) →
    Serves index p ps (Function.update (view x).cursors (index, id) none) (view x).faults
      (t command x).1 (view (t command x).2)
  /-- a release of an open cursor removes it -/
  delete : ∀ command x index id ps,
    CursorCommand.ofTokens? command = some (.delete index id) →
    (view x).cursors (index, id) = some ps →
    ∃ v, (t command x).1 = .ok v ∧ Value.Writes (.text "OK") v
      ∧ view (t command x).2
        = ⟨Function.update (view x).cursors (index, id) none, (view x).faults⟩
  /-- a read or a release of a cursor that is not open is a fault -/
  fault : ∀ command x index id,
    (CursorCommand.ofTokens? command = some (.delete index id)
      ∨ ∃ count, CursorCommand.ofTokens? command = some (.read index id count)) →
    (view x).cursors (index, id) = none →
    (∃ text, (t command x).1 = .error text)
      ∧ view (t command x).2 = ⟨(view x).cursors, (view x).faults + 1⟩

end FullText

import FullText.Proofs.Cursor.Engine

/-!
# An engine that counts its cursors

* `Counting`                  the open cursors of an engine, and how many ids it has given out;
* `Counting.transport`        it finds the same pages of numbers for every aggregation;
* `servesCursors_counting`    it keeps cursors as an engine should.
-/

namespace FullText

/-- a page with a row for each number -/
def Page.ofNumbers (ns : List Int) : Page := ⟨ns.length, ns.map fun n => [("n", .int n)]⟩

/-- the reply that holds such a page -/
def Page.replyOf (ns : List Int) (id : Int) : Value :=
  .array [.array (.int ns.length :: ns.map fun n => .array [.text "n", .int n]), .int id]

theorem Page.writes_replyOf (ns : List Int) (id : Int) :
    (ofNumbers ns).Writes id (replyOf ns id) := by
  refine ⟨_, ns.map fun n => .array [.text "n", .int n], rfl, rfl, ?_⟩
  unfold ofNumbers
  rw [List.forall₂_map_left_iff, List.forall₂_map_right_iff]
  exact List.forall₂_same.mpr fun n _ =>
    .array rfl (.cons (.text "n") (.cons (.int n) .nil))

/-- the open cursors with the numbers that are left there; ids beyond `issued` are not in use -/
structure Counting where
  cursors : CursorKey → Option (List (List Int))
  faults : Nat
  issued : Nat
  unused : ∀ index (id : Int), issued < id → cursors (index, id) = none

namespace Counting

/-- an engine with no open cursors -/
def fresh : Counting := ⟨fun _ => none, 0, 0, fun _ _ _ => rfl⟩

def view (c : Counting) : Engine :=
  ⟨fun key => (c.cursors key).map (List.map Page.ofNumbers), c.faults⟩

/-- the engine without one of its cursors -/
def without (c : Counting) (key : CursorKey) : Counting where
  cursors := Function.update c.cursors key none
  faults := c.faults
  issued := c.issued
  unused := by
    intro index id h
    by_cases hk : (index, id) = key
    · rw [hk]
      exact Function.update_self key none c.cursors
    · rw [Function.update_of_ne hk]
      exact c.unused index id h

/-- the engine with a new cursor -/
def withNew (c : Counting) (index : Token) (pages : List (List Int)) : Counting where
  cursors := Function.update c.cursors (index, c.issued + 1) (some pages)
  faults := c.faults
  issued := c.issued + 1
  unused := by
    intro index' id h
    have hk : (index', id) ≠ (index, (c.issued : Int) + 1) := by
      intro he
      have hid := congrArg Prod.snd he
      simp only at hid
      omega
    rw [Function.update_of_ne hk]
    exact c.unused index' id (by omega)

/-- the page goes out with a new cursor, if there are more -/
def serve (c : Counting) (index : Token) (page : List Int) :
    List (List Int) → Except String Value × Counting
  | [] => (.ok (Page.replyOf page 0), c)
  | p :: ps => (.ok (Page.replyOf page (c.issued + 1)), c.withNew index (p :: ps))

def fail (c : Counting) : Except String Value × Counting :=
  (.error "Cursor not found", { c with faults := c.faults + 1 })

/-- the engine that finds these pages for every aggregation -/
def transport (page : List Int) (pages : List (List Int)) : Transport Counting := fun command c =>
  match CursorCommand.ofTokens? command with
  | some (.aggregate index _) => c.serve index page pages
  | some (.read index id _) =>
    match c.cursors (index, id) with
    | some (p :: ps) => (c.without (index, id)).serve index p ps
    | _ => c.fail
  | some (.delete index id) =>
    match c.cursors (index, id) with
    | some _ => (.ok (.text "OK"), c.without (index, id))
    | none => c.fail
  | none => (.error "unknown command", c)

theorem view_without (c : Counting) (key : CursorKey) :
    (c.without key).view = ⟨Function.update c.view.cursors key none, c.faults⟩ := by
  have h := Function.comp_update (Option.map (List.map Page.ofNumbers)) c.cursors key none
  exact congrArg (Engine.mk · c.faults) h

theorem view_withNew (c : Counting) (index : Token) (pages : List (List Int)) :
    (c.withNew index pages).view
      = ⟨Function.update c.view.cursors (index, c.issued + 1) (some (pages.map Page.ofNumbers)),
          c.faults⟩ := by
  have h := Function.comp_update (Option.map (List.map Page.ofNumbers)) c.cursors
    (index, (c.issued : Int) + 1) (some pages)
  exact congrArg (Engine.mk · c.faults) h

theorem serves_serve (c : Counting) (index : Token) (page : List Int) (pages : List (List Int)) :
    Serves index (Page.ofNumbers page) (pages.map Page.ofNumbers) c.view.cursors c.faults
      (c.serve index page pages).1 (c.serve index page pages).2.view := by
  cases pages with
  | nil => exact ⟨_, 0, _, rfl, Page.writes_replyOf page 0, .last, rfl⟩
  | cons p ps =>
    refine ⟨_, c.issued + 1, _, rfl, Page.writes_replyOf page _, .more ?_ ?_,
      c.view_withNew index (p :: ps)⟩
    · omega
    · have hu : c.cursors (index, (c.issued : Int) + 1) = none := c.unused index _ (by omega)
      show (c.cursors (index, (c.issued : Int) + 1)).map _ = none
      rw [hu]
      rfl

end Counting

theorem servesCursors_counting (page : List Int) (pages : List (List Int)) :
    ServesCursors (Counting.transport page pages) Counting.view
      fun _ _ => (Page.ofNumbers page, pages.map Page.ofNumbers) where
  aggregate := by
    intro command c index r hr _
    unfold Counting.transport
    rw [hr]
    exact c.serves_serve index page pages
  read := by
    intro command c index id count p ps hr ho
    obtain ⟨qs, hq, hmap⟩ := Option.map_eq_some_iff.mp ho
    cases qs with
    | nil => cases hmap
    | cons q qs =>
      cases hmap
      unfold Counting.transport
      rw [hr]
      simp only [hq]
      have hs := (c.without (index, id)).serves_serve index q qs
      rw [Counting.view_without] at hs
      exact hs
  delete := by
    intro command c index id ps hr ho
    obtain ⟨qs, hq, _⟩ := Option.map_eq_some_iff.mp ho
    unfold Counting.transport
    rw [hr]
    simp only [hq]
    exact ⟨_, rfl, .text "OK", c.view_without (index, id)⟩
  fault := by
    intro command c index id hr ho
    have hn : c.cursors (index, id) = none := Option.map_eq_none_iff.mp ho
    unfold Counting.transport
    rcases hr with hr | ⟨count, hr⟩
    · rw [hr]
      simp only [hn]
      exact ⟨⟨_, rfl⟩, rfl⟩
    · rw [hr]
      simp only [hn]
      exact ⟨⟨_, rfl⟩, rfl⟩

end FullText

import FullText.Proofs.Cursor.Counting
import FullText.Proofs.Cursor.OneMove

/-!
# Several iterations on one engine: no row is lost, and no cursor is left open

* `Session.kept_play`      the invariant after a run, in whatever order the iterations are moved;
* `Session.Served`         what an iteration has given in a run, and what it holds then;
* `Session.served_play`    the pages that are left for an iteration before a run are served in it;
* `Session.no_row_lost`    what every iteration gives, and what is open in the end.
-/

namespace FullText

variable {σ : Type}

/-- what all batches say that an iteration has given -/
def given (os : List (Observation σ)) : List (Int × List (Bindings Value)) :=
  (os.filterMap Observation.batch?).map Batch.content

/-- what is seen of an iteration before it is closed -/
def beforeClose (os : List (Observation σ)) : List (Observation σ) :=
  os.takeWhile fun o => o.move = .next

namespace Session

variable {view : σ → Engine} {t : Transport σ} {found : List Token → σ → Page × List Page}
  {names : List String} {base : Cursors} {n : Nat} {x : σ} {s : Session} {g : String}

/-! ## the invariant in a run -/

theorem kept_play (ht : ServesCursors t view found) (run : List (String × Move))
    (hk : Kept view names base n s x) (hrun : ∀ mv ∈ run, mv.1 ∈ names) :
    Kept view names base n (s.play t x run).session (s.play t x run).state
      ∧ ∀ o ∈ (s.play t x run).seen, ∃ a, o.outcome = .ok a := by
  induction run generalizing s x with
  | nil => exact ⟨hk, fun o ho => absurd ho List.not_mem_nil⟩
  | cons mv run ih =>
    obtain ⟨g, m⟩ := mv
    have hg : g ∈ names := hrun _ List.mem_cons_self
    obtain ⟨qs, hm⟩ := moved_step ht hk hg m []
    obtain ⟨hk', ha⟩ := ih (hk.moved hg m hm) fun mv hmv => hrun mv (List.mem_cons_of_mem _ hmv)
    refine ⟨hk', fun o ho => ?_⟩
    rcases List.mem_cons.mp ho with rfl | ho
    · exact hm.answered
    · exact ha o ho

/-! ## what an iteration is given -/

/-- What an iteration has given in a run, and where it is then, if `ps` was left for it before. -/
structure Served (g : String) (ps : List Page) (os : List (Observation σ))
    (s : Session) (e : Engine) : Prop where
  rows : given os = (ps.take (beforeClose os).length).map Page.content
  exhausted : (∃ o ∈ beforeClose os, o.batch? = none) → given os = ps.map Page.content
  ended : (∃ o ∈ os, o.batch? = none) → s.cursorOf g = none
  holds : ∀ key, s.cursorOf g = some key → e.cursors key = some (ps.drop (beforeClose os).length)

theorem served_nil (hk : Kept view names base n s x) (hg : g ∈ names) :
    Served g (s.left (view x).cursors found g []) ([] : List (Observation σ)) s (view x) where
  rows := by
    rw [beforeClose, List.takeWhile_nil, List.length_nil, List.take_zero]
    rfl
  exhausted := by
    rintro ⟨o, ho, _⟩
    exact absurd ho List.not_mem_nil
  ended := by
    rintro ⟨o, ho, _⟩
    exact absurd ho List.not_mem_nil
  holds := by
    intro key hkey
    obtain ⟨_, p, ps, hp⟩ := hk.account.own g hg key hkey
    have hl : s.left (view x).cursors found g [] = p :: ps := by
      obtain ⟨⟨index, count, progress⟩, hi, _⟩ := hk.ready g hg
      cases progress with
      | waiting r =>
        rw [cursorOf_waiting hi] at hkey
        cases hkey
      | ended =>
        rw [cursorOf_ended hi] at hkey
        cases hkey
      | suspended id =>
        unfold left
        rw [hi, hkey]
        simp only [Option.bind_some, hp, Option.getD_some]
    rw [hl, hp]
    rfl

theorem given_cons (o : Observation σ) (os : List (Observation σ)) :
    given (o :: os) = (o.batch?.map Batch.content).toList ++ given os := by
  unfold given
  cases hb : o.batch? with
  | none =>
    rw [List.filterMap_cons_none hb]
    rfl
  | some b =>
    rw [List.filterMap_cons_some hb]
    rfl

/-- An iteration for which nothing is left gives nothing and holds nothing. -/
theorem Served.of_nil_left {e : Engine} {os : List (Observation σ)} (h : Served g [] os s e)
    (ha : Account names base s.cursorOf e.cursors) (hg : g ∈ names) :
    given os = [] ∧ s.cursorOf g = none := by
  refine ⟨by rw [h.rows, List.take_nil]; rfl, ?_⟩
  cases hc : s.cursorOf g with
  | none => rfl
  | some key =>
    obtain ⟨_, p, ps, hp⟩ := ha.own g hg key hc
    have hd := h.holds key hc
    rw [hp, List.drop_nil] at hd
    cases hd

theorem served_cons {e : Engine} {os : List (Observation σ)} {o : Observation σ} {s' : Session}
    {after : Entry σ} {ps qs : List Page} (hm : Moved view s x g o after ps qs)
    (h : Served g qs os s' e) (ha : Account names base s'.cursorOf e.cursors)
    (hg : g ∈ names) : Served g ps (o :: os) s' e := by
  cases hmove : o.move with
  | close =>
    obtain ⟨rfl, hb⟩ := hm.close hmove
    obtain ⟨hgiven, hnone⟩ := h.of_nil_left ha hg
    have hbc : beforeClose (o :: os) = [] :=
      List.takeWhile_cons_of_neg (by rw [hmove]; exact Bool.false_ne_true)
    have hall : given (o :: os) = [] := by
      rw [given_cons, hb, hgiven]
      rfl
    refine ⟨?_, ?_, fun _ => hnone, ?_⟩
    · rw [hall, hbc]
      rfl
    · rw [hbc]
      rintro ⟨o', ho', _⟩
      exact absurd ho' List.not_mem_nil
    · intro key hkey
      rw [hnone] at hkey
      cases hkey
  | next =>
    have hbc : beforeClose (o :: os) = o :: beforeClose os :=
      List.takeWhile_cons_of_pos (by rw [hmove]; rfl)
    rcases hm.next hmove with ⟨p, b, rfl, hb, hcontent⟩ | ⟨rfl, rfl, hb⟩
    · have hall : given (o :: os) = p.content :: given os := by
        rw [given_cons, hb, ← hcontent]
        rfl
      have hnot : ∀ {l : List (Observation σ)}, (∃ o' ∈ o :: l, o'.batch? = none) →
          ∃ o' ∈ l, o'.batch? = none := by
        rintro l ⟨o', ho', hn⟩
        rcases List.mem_cons.mp ho' with rfl | ho'
        · rw [hb] at hn
          cases hn
        · exact ⟨o', ho', hn⟩
      refine ⟨?_, ?_, fun hx => h.ended (hnot hx), ?_⟩
      · rw [hall, hbc, List.length_cons, List.take_succ_cons, List.map_cons, h.rows]
      · intro hx
        rw [hbc] at hx
        rw [hall, List.map_cons, h.exhausted (hnot hx)]
      · intro key hkey
        rw [hbc, List.length_cons, List.drop_succ_cons]
        exact h.holds key hkey
    · obtain ⟨hgiven, hnone⟩ := h.of_nil_left ha hg
      have hall : given (o :: os) = [] := by
        rw [given_cons, hb, hgiven]
        rfl
      refine ⟨by rw [hall, List.take_nil]; rfl, fun _ => hall, fun _ => hnone, ?_⟩
      intro key hkey
      rw [hnone] at hkey
      cases hkey

theorem served_play (ht : ServesCursors t view found) (run : List (String × Move))
    (hk : Kept view names base n s x) (hrun : ∀ mv ∈ run, mv.1 ∈ names) (hg : g ∈ names) :
    Served g (s.left (view x).cursors found g ((s.play t x run).of g))
      ((s.play t x run).of g) (s.play t x run).session (view (s.play t x run).state) := by
  induction run generalizing s x with
  | nil => exact served_nil hk hg
  | cons mv run ih =>
    obtain ⟨g', m⟩ := mv
    have hg' : g' ∈ names := hrun _ List.mem_cons_self
    have hrun' : ∀ mv ∈ run, mv.1 ∈ names := fun mv hmv => hrun mv (List.mem_cons_of_mem _ hmv)
    by_cases hn : g' = g
    · subst hn
      rw [of_play_self]
      obtain ⟨qs, hm⟩ := moved_step ht hk hg m ((((s.step t x (m.step g')).session.play t
        (s.step t x (m.step g')).state run)).of g')
      have hk' := hk.moved hg m hm
      have h := ih hk' hrun'
      obtain ⟨it, hi, hr⟩ := hk.ready g' hg
      rw [left_moved m hi hr hm] at h
      exact served_cons hm h (kept_play ht run hk' hrun').1.account hg
    · rw [of_play_other t s x m run hn]
      obtain ⟨qs, hm⟩ := moved_step ht hk hg' m []
      have h := ih (hk.moved hg' m hm) hrun'
      rw [left_other hk hg' m hm hg (Ne.symm hn)] at h
      exact h

/-! ## all iterations -/

/-- an iteration that waits with an aggregation for its first batch -/
def Waits (s : Session) (g : String) : Prop :=
  ∃ index count p a, s.iterationOf g = .ok ⟨index, count, .waiting p⟩
    ∧ s.aggregationAt p = some a

/-- what comes of a run of some iterations on an engine with cursors -/
structure NoRowLost (view : σ → Engine) (found : List Token → σ → Page × List Page)
    (names : List String) (x : σ) (r : Play σ) : Prop where
  /-- the engine is never asked for a cursor that is not open, and no move fails -/
  faultless : (view r.state).faults = (view x).faults
  answered : ∀ o ∈ r.seen, ∃ a, o.outcome = .ok a
  /-- an iteration gives the pages that the engine has found for it, each once and in order: one
      for each `next` before it is closed, as long as there are any -/
  rows : ∀ g ∈ names, given (r.of g)
    = ((pagesOf found (r.of g)).take (beforeClose (r.of g)).length).map Page.content
  /-- it has given them all when it first gives none -/
  exhausted : ∀ g ∈ names, (∃ o ∈ beforeClose (r.of g), o.batch? = none) →
    given (r.of g) = (pagesOf found (r.of g)).map Page.content
  /-- it holds no cursor once it has ended, be it with the last page or with a `close` -/
  ended : ∀ g ∈ names, (∃ o ∈ r.of g, o.batch? = none) → r.session.cursorOf g = none
  /-- the cursor that it holds until then has what is left for it, and nobody else holds it -/
  holds : ∀ g ∈ names, ∀ key, r.session.cursorOf g = some key →
    (view r.state).cursors key = some ((pagesOf found (r.of g)).drop (beforeClose (r.of g)).length)
      ∧ ∀ g' ∈ names, r.session.cursorOf g' = some key → g' = g
  /-- no cursor is open but those that are held so, and those that were open before the run -/
  others : ∀ key, (∀ g ∈ names, r.session.cursorOf g ≠ some key) →
    (view r.state).cursors key = (view x).cursors key

/-- Whatever batches an engine has found for some iterations, and in whatever order these are moved
    and closed: no row is lost or given twice, and no cursor is left open. -/
theorem no_row_lost (ht : ServesCursors t view found) (x : σ) (hw : ∀ g ∈ names, s.Waits g)
    (run : List (String × Move)) (hrun : ∀ mv ∈ run, mv.1 ∈ names) :
    NoRowLost view found names x (s.play t x run) := by
  have hnone : ∀ g ∈ names, s.cursorOf g = none := by
    intro g hg
    obtain ⟨index, count, p, a, hi, _⟩ := hw g hg
    exact cursorOf_waiting hi
  have hk : Kept view names (view x).cursors (view x).faults s x := by
    refine ⟨.of_none hnone, rfl, fun g hg => ?_⟩
    obtain ⟨index, count, p, a, hi, ha⟩ := hw g hg
    refine ⟨_, hi, fun p' hp => ?_⟩
    cases hp
    exact ⟨a, ha⟩
  obtain ⟨hk', hanswered⟩ := kept_play ht run hk hrun
  have hserved : ∀ g ∈ names, Served g (pagesOf found ((s.play t x run).of g))
      ((s.play t x run).of g) (s.play t x run).session (view (s.play t x run).state) := by
    intro g hg
    have h := served_play ht run hk hrun hg
    obtain ⟨index, count, p, a, hi, _⟩ := hw g hg
    rw [left, hi] at h
    exact h
  exact {
    faultless := hk'.faults
    answered := hanswered
    rows := fun g hg => (hserved g hg).rows
    exhausted := fun g hg => (hserved g hg).exhausted
    ended := fun g hg => (hserved g hg).ended
    holds := fun g hg key hkey => ⟨(hserved g hg).holds key hkey, fun g' hg' hkey' =>
      hk'.account.alone g' hg' g hg key hkey' hkey⟩
    others := hk'.account.others }

/-- moves of two iterations in turn: one goes past its end, and the other is closed before it -/
def turns : List (String × Move) :=
  [("a", .next), ("b", .next), ("a", .next), ("b", .next), ("b", .close), ("a", .next),
    ("a", .next), ("b", .next), ("a", .close)]

theorem no_row_lost_turns :
    NoRowLost Counting.view (fun _ _ => (.ofNumbers [1, 3], [[], [5]].map .ofNumbers)) ["a", "b"]
        Counting.fresh (waiting.play (Counting.transport [1, 3] [[], [5]]) .fresh turns)
      ∧ given ((waiting.play (Counting.transport [1, 3] [[], [5]]) .fresh turns).of "a")
        = [(2, [⟨[("n", .int 1)]⟩, ⟨[("n", .int 3)]⟩]), (0, []), (1, [⟨[("n", .int 5)]⟩])]
      ∧ given ((waiting.play (Counting.transport [1, 3] [[], [5]]) .fresh turns).of "b")
        = [(2, [⟨[("n", .int 1)]⟩, ⟨[("n", .int 3)]⟩]), (0, [])]
      ∧ ∀ key, (waiting.play (Counting.transport [1, 3] [[], [5]]) .fresh turns).state.cursors key
        = none := by
  have hw : ∀ g ∈ ["a", "b"], waiting.Waits g := by
    intro g hg
    rcases List.mem_cons.mp hg with rfl | hg
    · exact ⟨"idx", some 2, 0, { text := "WITHCURSOR" }, rfl, rfl⟩
    · cases List.mem_singleton.mp hg
      exact ⟨"idx", none, 0, { text := "WITHCURSOR" }, rfl, rfl⟩
  have h := no_row_lost (servesCursors_counting [1, 3] [[], [5]]) Counting.fresh hw turns
    (by decide)
  have hended : ∀ g ∈ ["a", "b"], ∀ key,
      (waiting.play (Counting.transport [1, 3] [[], [5]]) .fresh turns).session.cursorOf g
        ≠ some key := by
    intro g hg key hkey
    rcases List.mem_cons.mp hg with rfl | hg
    · cases hkey
    · cases List.mem_singleton.mp hg
      cases hkey
  refine ⟨h, ?_, ?_, fun key => ?_⟩
  · rw [h.rows "a" (by decide)]
    rfl
  · rw [h.rows "b" (by decide)]
    rfl
  · exact Option.map_eq_none_iff.mp (h.others key fun g hg => hended g hg key)

end Session

end FullText

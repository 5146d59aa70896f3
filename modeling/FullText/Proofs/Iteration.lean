import FullText.Iteration
import FullText.Proofs.Dialogue

/-!
# What a client and an iteration ask for

* `Client.search_of_ok`, `Client.search_of_error`  a search is a command, or the fault of the query;
* `Iteration.Nexts`        all that the exchange for the next batch can be, and when it is that;
* `Iteration.nexts_next`   it is nothing else;
* `Iteration.Closes`, `Iteration.closes_close`  the same for the exchange that gives up;
* `Client.simple_search`, `Iteration.simple_next`, `Iteration.simple_close`  none of them asks twice.
-/

namespace FullText

/-! ## searches -/

theorem Client.search_of_ok {index : String} {q : Query} {default : Option Int} {c : List Token}
    (h : Command.search index q default = .ok c) :
    search index q default = .asking c (SearchResult.decode q.shape) := by
  rw [search, h]
  rfl

theorem Client.search_of_error {index : String} {q : Query} {default : Option Int} {f : Fault}
    (h : Command.search index q default = .error f) : search index q default = throw f := by
  rw [search, h]
  rfl

theorem Client.simple_search (index : String) (q : Query) (default : Option Int) :
    (search index q default).Simple := by
  cases h : Command.search index q default with
  | ok c =>
    rw [search_of_ok h]
    exact .asking c _
  | error f =>
    rw [search_of_error h]
    exact .answered (.error f)

/-! ## iterations -/

namespace Iteration

theorem next_waiting {it : Iteration} {p : Nat} {request : Nat → Except Fault Aggregation}
    {a : Aggregation} (default : Option Int) (hp : it.progress = .waiting p)
    (ha : request p = .ok a) : it.next request default = some <$> it.start a default := by
  rw [next, hp]
  simp only [ha]
  rfl

theorem next_missing {it : Iteration} {p : Nat} {request : Nat → Except Fault Aggregation}
    {f : Fault} (default : Option Int) (hp : it.progress = .waiting p)
    (hf : request p = .error f) : it.next request default = throw f := by
  rw [next, hp]
  simp only [hf]
  rfl

theorem next_suspended {it : Iteration} {c : Int} (request : Nat → Except Fault Aggregation)
    (default : Option Int) (hp : it.progress = .suspended c) (hc : c ≠ 0) :
    it.next request default = some <$> Client.cursorRead it.index c it.count := by
  rw [next, hp]
  exact if_neg hc

theorem close_suspended {it : Iteration} {c : Int} (hp : it.progress = .suspended c) (hc : c ≠ 0) :
    it.close = (fun _ => ()) <$> Client.cursorDelete it.index c := by
  rw [close, hp]
  exact if_neg hc

/-- what an iteration asks to come to its next batch -/
inductive Nexts (it : Iteration) (request : Nat → Except Fault Aggregation) (default : Option Int) :
    Exchange (Option Batch) → Prop where
  | exhausted (h : it.progress = .suspended 0 ∨ it.progress = .ended) :
    Nexts it request default (return none)
  | missing {p : Nat} {f : Fault} (hp : it.progress = .waiting p) (hf : request p = .error f) :
    Nexts it request default (throw f)
  | first {p : Nat} {a : Aggregation} (hp : it.progress = .waiting p) (ha : request p = .ok a) :
    Nexts it request default (some <$> it.start a default)
  | later {c : Int} (hp : it.progress = .suspended c) (hc : c ≠ 0) :
    Nexts it request default (some <$> Client.cursorRead it.index c it.count)

theorem nexts_next (it : Iteration) (request : Nat → Except Fault Aggregation)
    (default : Option Int) : Nexts it request default (it.next request default) := by
  cases hp : it.progress with
  | waiting p =>
    cases ha : request p with
    | ok a =>
      rw [next_waiting default hp ha]
      exact .first hp ha
    | error f =>
      rw [next_missing default hp ha]
      exact .missing hp ha
  | suspended c =>
    by_cases hc : c = 0
    · rw [next, hp, hc]
      exact .exhausted (.inl (hc ▸ hp))
    · rw [next_suspended request default hp hc]
      exact .later hp hc
  | ended =>
    rw [next, hp]
    exact .exhausted (.inr hp)

/-- what an iteration asks to give up -/
inductive Closes (it : Iteration) : Exchange Unit → Prop where
  | idle (h : ∀ c, it.progress = .suspended c → c = 0) : Closes it (return ())
  | release {c : Int} (hp : it.progress = .suspended c) (hc : c ≠ 0) :
    Closes it ((fun _ => ()) <$> Client.cursorDelete it.index c)

theorem closes_close (it : Iteration) : Closes it it.close := by
  cases hp : it.progress with
  | suspended c =>
    by_cases hc : c = 0
    · have hidle : it.close = return () := by
        rw [close, hp]
        exact if_pos hc
      rw [hidle]
      refine .idle fun c' hc' => ?_
      rw [hp] at hc'
      cases hc'
      exact hc
    · rw [close_suspended hp hc]
      exact .release hp hc
  | waiting | ended =>
    rw [close, hp]
    refine .idle fun c' hc' => ?_
    rw [hp] at hc'
    cases hc'

theorem simple_next (it : Iteration) (request : Nat → Except Fault Aggregation)
    (default : Option Int) : (it.next request default).Simple := by
  have h := it.nexts_next request default
  generalize it.next request default = e at h
  cases h with
  | exhausted => exact .answered (.ok none)
  | missing => exact .answered (.error _)
  | first | later => exact (Exchange.Simple.asking _ _).map some

theorem simple_close (it : Iteration) : it.close.Simple := by
  have h := it.closes_close
  generalize it.close = e at h
  cases h with
  | idle => exact .answered (.ok ())
  | release => exact (Exchange.Simple.asking _ _).map _

end Iteration

end FullText

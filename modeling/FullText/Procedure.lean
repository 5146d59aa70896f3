import FullText.Fault

/-!
# Procedures: computations on a state that may fail

* `Procedure`     a computation on a state, which a failure leaves as it is by then;
* `Method`        a procedure that does nothing but look at its object and assign to it;
* `Procedure.on`  what comes of a procedure in a state, and the state that it leaves.

The state outlives a failure.  So whether a failure leaves a trace is up to the order in which a
procedure checks and assigns.
-/

namespace FullText

/-- a computation on a state that may do more in `m`; a fault leaves the state as it is by then -/
abbrev Procedure (m : Type → Type) (ρ : Type) := ExceptT Fault (StateT ρ m)

/-- a procedure that does nothing but look at its object and assign to it -/
abbrev Method (ρ : Type) := Procedure Id ρ

namespace Procedure

variable {m : Type → Type} {ρ α β : Type}

/-- what comes of a procedure in a state, and the state that it leaves, also if it fails -/
def on (p : Procedure m ρ α) (r : ρ) : m (Except Fault α × ρ) := StateT.run (ExceptT.run p) r

theorem on_bind [Monad m] (p : Procedure m ρ α) (g : α → Procedure m ρ β) (r : ρ) :
    (p >>= g).on r = p.on r >>= fun x =>
      match x.1 with
      | .ok a => (g a).on x.2
      | .error f => pure (.error f, x.2) := by
  show (p.on r >>= fun x => _) = _
  congr 1
  funext x
  obtain ⟨o, r'⟩ := x
  cases o <;> rfl

end Procedure

/-- Assignments one after another fail as little as each of them. -/
theorem Method.on_forM_modify {ρ α : Type} (f : α → ρ → ρ) (as : List α) (r : ρ) :
    Procedure.on (as.forM fun a => modify (f a) : Method ρ Unit) r
      = (.ok (), as.foldl (fun r a => f a r) r) := by
  induction as generalizing r with
  | nil => rfl
  | cons a as ih => exact ih (f a r)

end FullText

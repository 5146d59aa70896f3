import FullText.Procedure

/-!
# Building an object call by call

* `Building.after`    the object that a call leaves, whatever comes of the call;
* `Building.faultOf`  the fault of a call on an object, if it fails;
* `Building.run`      the object after several calls, which go on behind one that fails;
* `Building.build`    an object after several calls, or the fault of the first one that fails.
-/

namespace FullText.Building

variable {ρ κ : Type}

/-- the object that a call leaves, also if it fails -/
def after (call : κ → Method ρ Unit) (r : ρ) (c : κ) : ρ := ((call c).on r).2

/-- the fault of a call on an object -/
def faultOf (call : κ → Method ρ Unit) (r : ρ) (c : κ) : Option Fault :=
  Fault.of? ((call c).on r).1

/-- the object after several calls; one that fails does not keep those behind it -/
def run (call : κ → Method ρ Unit) (r : ρ) (cs : List κ) : ρ := cs.foldl (after call) r

/-- the object after several calls, or the fault of the first one that fails -/
def build (call : κ → Method ρ Unit) (r : ρ) (cs : List κ) : Except Fault ρ :=
  match (cs.forM call).on r with
  | (.ok _, r') => .ok r'
  | (.error f, _) => .error f

end FullText.Building

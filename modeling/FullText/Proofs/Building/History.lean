import FullText.Building
import Mathlib.Logic.Nontrivial.Defs

/-!
# Histories of calls on a builder

* `Building.run_induction`   what every call keeps, whether it fails or not, a history keeps;
* `Building.run_of_build`    a history none of whose calls fails;
* `Building.outcomes`        the calls of a history, each with its fault if it fails;
* `Building.ChecksFirst`     a builder whose calls check before they assign anything;
* `Building.WithFailing`     a history into which calls were put that fail where they stand;
* `Building.run_of_failing`  with such a builder they change nothing;
* `Building.SameBySetting`   histories with the same calls about each setting, in the same order;
* `Building.BySetting`       a builder each of whose calls is about one setting of the object;
* `BySetting.only_run`       a setting becomes what the calls about it make of it;
* `BySetting.run_without`    without these it stays as it is;
* `BySetting.run_congr`      so no other order of calls matters, neither for the object nor
                             (`BySetting.outcomes_congr`) for the calls that fail.
-/

namespace FullText.Building

variable {ρ κ γ : Type} {call : κ → Method ρ Unit}

/-! ## histories -/

theorem run_cons (r : ρ) (c : κ) (cs : List κ) :
    run call r (c :: cs) = run call (after call r c) cs := rfl

theorem run_append (r : ρ) (cs ds : List κ) :
    run call r (cs ++ ds) = run call (run call r cs) ds := List.foldl_append

/-- What every call keeps, whether it fails or not, a history keeps. -/
theorem run_induction {P : ρ → Prop} (h : ∀ r c, P r → P (after call r c)) {r : ρ} (hr : P r)
    (cs : List κ) : P (run call r cs) := by
  induction cs generalizing r with
  | nil => exact hr
  | cons c cs ih => exact ih (h r c hr)

theorem build_cons (r : ρ) (c : κ) (cs : List κ) :
    build call r (c :: cs)
      = match faultOf call r c with
        | none => build call (after call r c) cs
        | some f => .error f := by
  have hon : ((c :: cs).forM call).on r = (call c >>= fun _ => cs.forM call).on r := rfl
  rw [build, hon, Procedure.on_bind, faultOf, after]
  generalize (call c).on r = left
  obtain ⟨o, r'⟩ := left
  cases o <;> rfl

/-- A history none of whose calls fails. -/
theorem run_of_build {r r' : ρ} {cs : List κ} (h : build call r cs = .ok r') :
    run call r cs = r' := by
  induction cs generalizing r with
  | nil =>
    cases h
    rfl
  | cons c cs ih =>
    rw [build_cons] at h
    cases hf : faultOf call r c with
    | none =>
      rw [hf] at h
      exact ih h
    | some f =>
      rw [hf] at h
      cases h

/-- the calls of a history, each with its fault if it fails -/
def outcomes (call : κ → Method ρ Unit) (r : ρ) : List κ → List (κ × Option Fault)
  | [] => []
  | c :: cs => (c, faultOf call r c) :: outcomes call (after call r c) cs

/-! ## calls that fail -/

/-- A call fails for what it is given alone, and it does so before it has assigned anything. -/
def ChecksFirst (call : κ → Method ρ Unit) (fault? : κ → Option Fault) : Prop :=
  ∀ r c, (call c).on r
    = match fault? c with
      | none => (.ok (), after call r c)
      | some f => (.error f, r)

theorem ChecksFirst.faultOf_eq {fault? : κ → Option Fault} (h : ChecksFirst call fault?) (r : ρ)
    (c : κ) : faultOf call r c = fault? c := by
  rw [faultOf, h]
  cases fault? c <;> rfl

/-- A call that fails leaves the object as it was. -/
theorem ChecksFirst.after_of_fault {fault? : κ → Option Fault} (h : ChecksFirst call fault?) {r : ρ}
    {c : κ} {f : Fault} (hf : faultOf call r c = some f) : after call r c = r := by
  rw [h.faultOf_eq] at hf
  rw [after, h, hf]

theorem ChecksFirst.left_of_error {fault? : κ → Option Fault} (h : ChecksFirst call fault?) {r r' : ρ}
    {c : κ} {f : Fault} (hf : (call c).on r = (.error f, r')) : r' = r := by
  have hfault : faultOf call r c = some f := by
    rw [faultOf, hf]
    rfl
  have hafter := h.after_of_fault hfault
  rw [after, hf] at hafter
  exact hafter

/-- The second history is the first one with calls put into it that fail where they stand: on the
    object that the calls before them have left, those that have failed among them. -/
inductive WithFailing (call : κ → Method ρ Unit) : ρ → List κ → List κ → Prop where
  | nil (r : ρ) : WithFailing call r [] []
  | cons {r : ρ} {cs ds : List κ} (c : κ) :
    WithFailing call (after call r c) cs ds → WithFailing call r (c :: cs) (c :: ds)
  | insert {r : ρ} {cs ds : List κ} {c : κ} {f : Fault} :
    faultOf call r c = some f → WithFailing call (after call r c) cs ds →
      WithFailing call r cs (c :: ds)

theorem run_of_failing {fault? : κ → Option Fault} (hc : ChecksFirst call fault?) {r : ρ}
    {cs ds : List κ} (h : WithFailing call r cs ds) : run call r ds = run call r cs := by
  induction h with
  | nil r => rfl
  | cons c _ ih => exact ih
  | insert hf _ ih => rw [run_cons, ih, hc.after_of_fault hf]

/-! ## calls about one setting each -/

/-- the two histories have the same calls about each setting, in the same order -/
def SameBySetting [DecidableEq γ] (of : κ → γ) (cs ds : List κ) : Prop :=
  ∀ g, cs.filter (fun c => of c = g) = ds.filter fun c => of c = g

/-- A builder each of whose calls is about one setting.  `only r g` is the object with the setting
    `g` of `r`, and all others as they are at first. -/
structure BySetting (call : κ → Method ρ Unit) (γ : Type) where
  of : κ → γ
  /-- what no call is about -/
  text : ρ → String
  only : ρ → γ → ρ
  /-- the object that has each setting from another object -/
  gather : (γ → ρ) → ρ
  gather_only : ∀ r, gather (only r) = r
  text_only : ∀ r g, text (only r g) = text r
  only_self : ∀ r c, only (after call r c) (of c) = after call (only r (of c)) c
  only_other : ∀ r c g, g ≠ of c → only (after call r c) g = only r g
  /-- whether a call fails is not up to the object -/
  fault? : κ → Option Fault
  checks_first : ChecksFirst call fault?

namespace BySetting

theorem ext (S : BySetting call γ) {r r' : ρ} (h : ∀ g, S.only r g = S.only r' g) : r = r' := by
  have hf : S.only r = S.only r' := by
    funext g
    exact h g
  rw [← S.gather_only r, hf, S.gather_only]

theorem outcomes_eq (S : BySetting call γ) (r : ρ) (cs : List κ) :
    outcomes call r cs = cs.map fun c => (c, S.fault? c) := by
  induction cs generalizing r with
  | nil => rfl
  | cons c cs ih => rw [outcomes, ih, List.map_cons, S.checks_first.faultOf_eq]

theorem text_run [Nontrivial γ] (S : BySetting call γ) (r : ρ) (cs : List κ) :
    S.text (run call r cs) = S.text r := by
  refine run_induction (P := fun r' => S.text r' = S.text r) (fun r' c h => ?_) rfl cs
  -- a setting that the call is not about shows the text
  obtain ⟨g, hg⟩ := exists_ne (S.of c)
  rw [← S.text_only, S.only_other r' c g hg, S.text_only, h]

variable [DecidableEq γ] (S : BySetting call γ)

/-- the calls of a history that are about a setting -/
def about (g : γ) (cs : List κ) : List κ := cs.filter fun c => S.of c = g

theorem about_cons_self (c : κ) (cs : List κ) :
    S.about (S.of c) (c :: cs) = c :: S.about (S.of c) cs :=
  List.filter_cons_of_pos (decide_eq_true rfl)

theorem about_cons_other {c : κ} {g : γ} (cs : List κ) (h : g ≠ S.of c) :
    S.about g (c :: cs) = S.about g cs :=
  List.filter_cons_of_neg fun hd => h (of_decide_eq_true hd).symm

theorem only_run (r : ρ) (cs : List κ) (g : γ) :
    S.only (run call r cs) g = run call (S.only r g) (S.about g cs) := by
  induction cs generalizing r with
  | nil => rfl
  | cons c cs ih =>
    rw [run_cons, ih]
    by_cases hg : g = S.of c
    · subst hg
      rw [S.only_self, about_cons_self, run_cons]
    · rw [S.only_other r c g hg, S.about_cons_other cs hg]

/-- the calls of a history that are about other settings -/
def without (g : γ) (cs : List κ) : List κ := cs.filter fun c => S.of c ≠ g

theorem about_without_self (g : γ) (cs : List κ) : S.about g (S.without g cs) = [] := by
  rw [about, without, List.filter_filter, List.filter_eq_nil_iff]
  intro c _
  simp

theorem about_without_other {g g' : γ} (cs : List κ) (h : g' ≠ g) :
    S.about g' (S.without g cs) = S.about g' cs := by
  rw [about, without, List.filter_filter, about]
  refine List.filter_congr fun c _ => ?_
  by_cases hc : S.of c = g'
  · simp [hc, h]
  · simp [hc]

/-- Without the calls about a setting, it stays as it is, and the others become what they become in the
    whole history. -/
theorem run_without {r r' : ρ} {g : γ} {cs : List κ} (hself : S.only r' g = S.only r g)
    (hother : ∀ g', g' ≠ g → S.only r' g' = S.only (run call r cs) g') :
    run call r (S.without g cs) = r' := by
  apply S.ext
  intro g'
  rw [S.only_run]
  by_cases h : g' = g
  · subst h
    rw [about_without_self, hself]
    rfl
  · rw [S.about_without_other cs h, hother g' h, S.only_run]

theorem run_congr {cs ds : List κ} (h : SameBySetting S.of cs ds) (r : ρ) :
    run call r cs = run call r ds := by
  apply S.ext
  intro g
  have hg : S.about g cs = S.about g ds := h g
  rw [S.only_run, S.only_run, hg]

/-- A call fails in one history as it does in the other. -/
theorem outcomes_congr {cs ds : List κ} (h : SameBySetting S.of cs ds) (r : ρ) :
    SameBySetting (fun o => S.of o.1) (outcomes call r cs) (outcomes call r ds) := by
  intro g
  rw [S.outcomes_eq, S.outcomes_eq, List.filter_map, List.filter_map]
  show (cs.filter fun c => S.of c = g).map _ = (ds.filter fun c => S.of c = g).map _
  rw [h g]

end BySetting

end FullText.Building

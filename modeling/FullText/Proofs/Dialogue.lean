import FullText.Exchange

/-!
# What is sent and heard in a dialogue

* `Dialogue.run_map`      another use of what comes of a dialogue changes nothing else;
* `Dialogue.Brief`        a dialogue that sends at most one command, and nothing behind its reply;
* `Brief.sent_run`, `Brief.state_run`  then it sends its first command, and nothing else;
* `Brief.outcome_congr`   and what comes of it is up to what is heard alone;
* `Exchange.Strict`       an exchange that passes on a failure of the other side as it is;
* `Exchange.Simple`       an exchange that is nothing but a command whose reply is decoded, if that;
* `Simple.brief`, `Simple.strict`  such an exchange is brief and strict.

A dialogue could send as often as it likes, so that nothing is sent twice is to be shown of each.
-/

namespace FullText

variable {σ σ' : Type}

/-! ## dialogues -/

namespace Dialogue

variable {β γ : Type}

instance : LawfulMonad Dialogue := LawfulMonad.mk' Dialogue
  (fun d => by
    show d.bind done = d
    induction d with
    | done b => rfl
    | send command receive ih => exact congrArg (send command) (funext ih))
  (fun _ _ => rfl)
  (fun d f g => by
    show (d.bind f).bind g = d.bind fun b => (f b).bind g
    induction d with
    | done b => rfl
    | send command receive ih => exact congrArg (send command) (funext ih))

theorem run_send (t : Transport σ) (x : σ) (command : List Token)
    (receive : Except String Value → Dialogue β) :
    (send command receive).run t x
      = let rest := (receive (t command x).1).run t (t command x).2
        ⟨rest.outcome, command :: rest.sent, rest.state⟩ := rfl

theorem map_send (f : β → γ) (command : List Token) (receive : Except String Value → Dialogue β) :
    f <$> send command receive = send command fun heard => f <$> receive heard := rfl

theorem run_map (f : β → γ) (d : Dialogue β) (t : Transport σ) (x : σ) :
    (f <$> d).run t x = ⟨f (d.run t x).outcome, (d.run t x).sent, (d.run t x).state⟩ := by
  induction d generalizing x with
  | done b => rfl
  | send command receive ih => rw [map_send, run_send, run_send, ih]

theorem command?_map (f : β → γ) (d : Dialogue β) : (f <$> d).command? = d.command? := by
  cases d <;> rfl

/-- at most one command is sent, and nothing behind what is heard -/
inductive Brief : Dialogue β → Prop where
  | done (b : β) : Brief (done b)
  | send (command : List Token) (answer : Except String Value → β) :
    Brief (send command fun heard => .done (answer heard))

namespace Brief

variable {d : Dialogue β}

theorem map (h : d.Brief) (f : β → γ) : (f <$> d).Brief := by
  cases h with
  | done b => exact .done (f b)
  | send command answer => exact .send command fun heard => f (answer heard)

theorem sent_run (h : d.Brief) (t : Transport σ) (x : σ) :
    (d.run t x).sent = d.command?.toList := by
  cases h <;> rfl

theorem state_run (h : d.Brief) (t : Transport σ) (x : σ) :
    (d.run t x).state = (d.command?.map fun c => (t c x).2).getD x := by
  cases h <;> rfl

/-- Through two transports a dialogue comes to the same if the same is heard in both. -/
theorem outcome_congr (h : d.Brief) {t : Transport σ} {t' : Transport σ'} {x : σ} {x' : σ'}
    (hheard : (d.command?.map fun c => (t c x).1) = d.command?.map fun c => (t' c x').1) :
    (d.run t x).outcome = (d.run t' x').outcome := by
  cases h with
  | done b => rfl
  | send command answer => exact congrArg answer (Option.some.inj hheard)

end Brief

end Dialogue

/-! ## exchanges -/

namespace Exchange

variable {α β : Type}

/-- at most one command is sent, and nothing behind what is heard -/
def Brief (e : Exchange α) : Prop := Dialogue.Brief (ExceptT.run e)

/-- a failure of the other side is the outcome, as it is -/
def Strict (e : Exchange α) : Prop :=
  ∀ {σ : Type} (t : Transport σ) (x : σ) (c : List Token) (text : String),
    e.command? = some c → (t c x).1 = .error text →
      (e.run t x).outcome = .error (.connection text)

theorem run_map_eq (f : α → β) (e : Exchange α) :
    ExceptT.run (f <$> e) = Except.map f <$> ExceptT.run e := ExceptT.run_map f e

theorem run_map (f : α → β) (e : Exchange α) (t : Transport σ) (x : σ) :
    Exchange.run t x (f <$> e)
      = ⟨(e.run t x).outcome.map f, (e.run t x).sent, (e.run t x).state⟩ := by
  rw [run, run_map_eq, Dialogue.run_map]
  rfl

theorem command?_map (f : α → β) (e : Exchange α) :
    Exchange.command? (f <$> e) = e.command? := by
  rw [command?, run_map_eq, Dialogue.command?_map]
  rfl

theorem asking_eq (command : List Token) (decode : Value → Except Fault α) :
    ExceptT.run (asking command decode)
      = .send command fun heard => .done ((heard.mapError .connection).bind decode) := by
  refine congrArg (Dialogue.send command) (funext fun heard => ?_)
  cases heard <;> rfl

theorem command?_asking (command : List Token) (decode : Value → Except Fault α) :
    (asking command decode).command? = some command := rfl

theorem run_asking (command : List Token) (decode : Value → Except Fault α) (t : Transport σ)
    (x : σ) :
    (asking command decode).run t x
      = ⟨((t command x).1.mapError .connection).bind decode, [command], (t command x).2⟩ := by
  rw [run, asking_eq]
  rfl

theorem map_asking (f : α → β) (command : List Token) (decode : Value → Except Fault α) :
    f <$> asking command decode = asking command fun v => (decode v).map f := by
  show ExceptT.run (f <$> asking command decode) = ExceptT.run (asking command _)
  rw [run_map_eq, asking_eq, asking_eq, Dialogue.map_send]
  refine congrArg (Dialogue.send command) (funext fun heard => ?_)
  cases heard <;> rfl

theorem outcome_map_asking {γ : Type} (f : α → β) (g : β → γ) (command : List Token)
    (decode : Value → Except Fault α) (t : Transport σ) (x : σ) :
    (Exchange.run t x (f <$> asking command decode)).outcome.map g
      = (((t command x).1.mapError .connection).bind decode).map fun a => g (f a) := by
  rw [run_map, run_asking]
  exact (Functor.map_map f g (((t command x).1.mapError .connection).bind decode) : _)

theorem Brief.sent_run {e : Exchange α} (h : e.Brief) (t : Transport σ) (x : σ) :
    (e.run t x).sent = e.command?.toList := Dialogue.Brief.sent_run h t x

theorem Brief.state_run {e : Exchange α} (h : e.Brief) (t : Transport σ) (x : σ) :
    (e.run t x).state = (e.command?.map fun c => (t c x).2).getD x := Dialogue.Brief.state_run h t x

/-! ### exchanges that ask once -/

/-- an exchange that has its outcome already, or asks for something and decodes the reply -/
inductive Simple : Exchange α → Prop where
  | answered (outcome : Except Fault α) : Simple (ExceptT.mk (pure outcome))
  | asking (command : List Token) (decode : Value → Except Fault α) :
    Simple (asking command decode)

namespace Simple

variable {e : Exchange α}

theorem map (h : e.Simple) (f : α → β) : Exchange.Simple (f <$> e) := by
  cases h with
  | answered outcome => cases outcome <;> exact .answered _
  | asking command decode =>
    rw [map_asking]
    exact .asking command _

theorem brief (h : e.Simple) : e.Brief := by
  cases h with
  | answered outcome => exact .done outcome
  | asking command decode =>
    rw [Brief, asking_eq]
    exact .send command _

theorem strict (h : e.Simple) : e.Strict := by
  intro σ t x c text hc ht
  cases h with
  | answered outcome => cases hc
  | asking command decode =>
    cases hc
    rw [run_asking, ht]
    rfl

end Simple

/-! ### exchanges that do not matter -/

theorem regardless_eq (e : Exchange α) :
    ExceptT.run e.regardless = (fun _ => .ok ()) <$> ExceptT.run e := by
  show (ExceptT.run ((fun _ => ()) <$> e) >>= fun o => _) = _
  rw [run_map_eq, bind_map_left, map_eq_pure_bind]
  congr 1
  funext o
  cases o <;> rfl

theorem command?_regardless (e : Exchange α) : e.regardless.command? = e.command? := by
  rw [command?, regardless_eq, Dialogue.command?_map]
  rfl

theorem outcome_regardless (e : Exchange α) (t : Transport σ) (x : σ) :
    (e.regardless.run t x).outcome = .ok () := by
  rw [run, regardless_eq, Dialogue.run_map]

end Exchange

end FullText

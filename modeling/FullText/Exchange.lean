import FullText.Fault
import FullText.Token
import FullText.Value

/-!
# Exchanges: commands that are sent, and the use of what is heard

* `Transport`            what becomes of a command: a reply, or the text of a failure;
* `Transport.prepared`   a transport that gives prepared replies, one for each command;
* `Dialogue`             a computation that sends commands, and goes on with what it hears;
* `Dialogue.run`         what comes of it through a transport, and the commands sent on the way;
* `Exchange`             a dialogue that may fail;
* `Exchange.send`        a command, which fails as the transport fails;
* `Exchange.asking`      a command whose reply is decoded;
* `Exchange.regardless`  an exchange whose outcome does not matter, not even whether it fails.

A dialogue may send as often as it likes; that nothing is sent twice is up to those who write one.
-/

namespace FullText

/-- What becomes of a command in a state of the other side: a reply, or the text of a failure; and
    the state after it. -/
abbrev Transport (σ : Type) := List Token → σ → Except String Value × σ

/-- a transport that gives prepared replies, one for each command, and fails when none is left -/
def Transport.prepared : Transport (List (Except String Value)) := fun _ replies =>
  match replies with
  | [] => (.error "no reply left", [])
  | r :: rest => (r, rest)

/-- the outcome of a run, the commands sent in it, and the state of the other side after it -/
structure Run (σ β : Type) where
  outcome : β
  sent : List (List Token)
  state : σ

/-- a computation that sends commands, and goes on with the reply or the failure that it hears -/
inductive Dialogue (β : Type) where
  | done (b : β)
  | send (command : List Token) (receive : Except String Value → Dialogue β)

namespace Dialogue

variable {β γ σ : Type}

def bind : Dialogue β → (β → Dialogue γ) → Dialogue γ
  | done b, f => f b
  | send command receive, f => send command fun heard => (receive heard).bind f

instance : Monad Dialogue where
  pure := done
  bind := bind

/-- the first command, if there is one -/
def command? : Dialogue β → Option (List Token)
  | done _ => none
  | send command _ => some command

/-- the dialogue through a transport -/
def run (t : Transport σ) : σ → Dialogue β → Run σ β
  | x, done b => ⟨b, [], x⟩
  | x, send command receive =>
    let (heard, x') := t command x
    let rest := run t x' (receive heard)
    ⟨rest.outcome, command :: rest.sent, rest.state⟩

end Dialogue

/-- a dialogue that may fail -/
abbrev Exchange := ExceptT Fault Dialogue

namespace Exchange

variable {α σ : Type}

/-- a command, which fails as the transport fails -/
def send (command : List Token) : Exchange Value :=
  ExceptT.mk (.send command fun heard => .done (heard.mapError .connection))

/-- a command whose reply is decoded -/
def asking (command : List Token) (decode : Value → Except Fault α) : Exchange α := do
  let reply ← send command
  decode reply

/-- the exchange if its outcome does not matter, not even whether it fails -/
def regardless (e : Exchange α) : Exchange Unit :=
  tryCatch ((fun _ => ()) <$> e) fun _ => return ()

/-- the exchange through a transport -/
def run (t : Transport σ) (x : σ) (e : Exchange α) : Run σ (Except Fault α) :=
  Dialogue.run t x (ExceptT.run e)

/-- the first command, if there is one -/
def command? (e : Exchange α) : Option (List Token) := Dialogue.command? (ExceptT.run e)

end Exchange

end FullText

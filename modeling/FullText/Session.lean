import FullText.Aggregation.Call
import FullText.Iteration
import FullText.Query.Call
import FullText.Settings

/-!
# Sessions: named requests, a default dialect, and iterations

* `Session`           the default dialect, the requests, the names for them, and the iterations;
* `Session.connect`   the session of some settings, and what it sends its commands through;
* `Session.Step`      what can be done in a session, `Session.Answer` what comes of it;
* `Session.Action`    a procedure on a session that may send commands;
* `Session.perform`   what a step does, its checks, commands and assignments in turn;
* `Session.step`      a step through a transport, and the session that it leaves.

A request is shared by everything that knows it: a name, and the iterations that were started while
the name meant it.  So a request is known by its place in the list of all requests, calls change it
there, and a name that is bound anew leaves the old request where it is.
-/

namespace FullText

/-- a request that calls can still change -/
inductive Draft where
  | query (q : Query)
  | aggregation (a : Aggregation)
  deriving DecidableEq, Repr

/-- the default dialect, all requests, the places of the named ones, and the iterations -/
structure Session where
  default : Option Int := none
  drafts : List Draft := []
  names : Bindings Nat := {}
  iterations : Bindings Iteration := {}
  deriving DecidableEq, Repr

namespace Session

inductive Step where
  | query (name text : String) (calls : List Query.Call)
  | aggregation (name text : String) (calls : List Aggregation.Call)
  | callQuery (name : String) (call : Query.Call)
  | callAggregation (name : String) (call : Aggregation.Call)
  | compile (name : String)
  | setDefault (dialect : Option Int)
  | search (index name : String)
  | aggregate (index name : String)
  | cursorRead (index : String) (cursor : Int) (count : Option Int)
  | cursorDelete (index : String) (cursor : Int)
  | info (index : String)
  | explain (index text : String) (dialect : Option Int)
  | explainLines (index text : String) (dialect : Option Int)
  | iterate (iteration index name : String) (count : Option Int)
  | next (iteration : String)
  | close (iteration : String)
  deriving DecidableEq, Repr

/-- what comes of a step -/
inductive Answer where
  | nothing
  | tokens (ts : List Token)
  | result (r : SearchResult)
  | batch (b : Batch)
  | released (ok : Bool)
  | info (i : IndexInfo)
  | text (s : String)
  | lines (ss : List String)
  | nextBatch (b : Option Batch)
  deriving Repr

/-! ## requests and names -/

/-- a session with a default dialect, which is not zero -/
def create (default : Option Int) : Except Fault Session :=
  if default = some 0 then .error .zeroDialect else .ok { default := default }

/-- the session of some settings -/
def ofSettings (s : Settings) : Except Fault Session := create s.dialect

/-- The link and the session of some settings: through the client of a caller if there is one, and
    otherwise through a connection to the address of the settings, with their timeout. -/
def connect (s : Settings) (client installed : Bool) : Except Fault (Link × Session) := do
  let link ← Link.make client (some s.url) (some (.float s.timeout)) installed
  let session ← ofSettings s
  return (link, session)

/-- the place of a named request -/
def place (s : Session) (name : String) : Except Fault Nat :=
  match s.names.get? name with
  | some p => .ok p
  | none => .error (.missingName name)

/-- the query at a place -/
def queryAt (s : Session) (p : Nat) : Option Query :=
  match s.drafts[p]? with
  | some (.query q) => some q
  | _ => none

/-- the aggregation at a place -/
def aggregationAt (s : Session) (p : Nat) : Option Aggregation :=
  match s.drafts[p]? with
  | some (.aggregation a) => some a
  | _ => none

/-- the query of a name -/
def queryOf (s : Session) (name : String) : Except Fault Query := do
  match s.queryAt (← s.place name) with
  | some q => return q
  | none => throw (.missingName name)

/-- the aggregation of a name -/
def aggregationOf (s : Session) (name : String) : Except Fault Aggregation := do
  match s.aggregationAt (← s.place name) with
  | some a => return a
  | none => throw (.missingName name)

/-- the request of a name -/
def draftOf (s : Session) (name : String) : Option Draft :=
  (s.names.get? name).bind fun p => s.drafts[p]?

/-- a new request, and a name for it -/
def bindNew (s : Session) (name : String) (d : Draft) : Session :=
  { s with drafts := s.drafts ++ [d], names := s.names.put name s.drafts.length }

/-- the request at a place after a call -/
def replace (s : Session) (p : Nat) (d : Draft) : Session := { s with drafts := s.drafts.set p d }

/-- an iteration in its new state -/
def setIteration (s : Session) (name : String) (it : Iteration) : Session :=
  { s with iterations := s.iterations.put name it }

/-- the iteration of a name -/
def iterationOf (s : Session) (name : String) : Except Fault Iteration :=
  match s.iterations.get? name with
  | some it => .ok it
  | none => .error (.missingName name)

/-- the aggregation at a place, which an iteration of some name asks for -/
def requestAt (s : Session) (name : String) (p : Nat) : Except Fault Aggregation :=
  match s.aggregationAt p with
  | some a => .ok a
  | none => .error (.missingName name)

/-! ## steps -/

/-- a procedure on a session that may send commands -/
abbrev Action := Procedure Dialogue Session

/-- an exchange, which does not touch the session -/
def exchange {α : Type} (e : Exchange α) : Action α := ExceptT.mk (StateT.lift (ExceptT.run e))

/-- what an exchange gives, in the session as it is -/
def asking {α : Type} (answer : α → Answer) (e : Session → Exchange α) : Action Answer := do
  let a ← exchange (e (← get))
  return answer a

/-- A method on the request of a name, which `find` finds if it is of the kind.  The request stays as
    the method leaves it, also if that fails. -/
def call {ρ : Type} (name : String) (find : Session → String → Except Fault ρ) (draft : ρ → Draft)
    (method : Method ρ Unit) : Action Answer := do
  let p ← (← get).place name
  let (outcome, left) := method.on (← find (← get) name)
  modify (·.replace p (draft left))
  outcome
  return .nothing

/-- The next batch of an iteration.  While it runs it is at no batch, and it only comes to one if
    nothing fails. -/
def next (name : String) : Action Answer := do
  let it ← (← get).iterationOf name
  modify (·.setIteration name it.finish)
  let s ← get
  let batch ← exchange (it.next (s.requestAt name) s.default)
  modify (·.setIteration name (it.advance batch))
  return .nextBatch batch

/-- the end of an iteration -/
def close (name : String) : Action Answer := do
  let it ← (← get).iterationOf name
  modify (·.setIteration name it.finish)
  exchange it.close
  return .nothing

/-- A new iteration under a name.  The one that had the name is given up, since nothing knows it any
    more, and how that goes does not matter. -/
def iterate (name : String) (it : Iteration) : Action Answer := do
  let old := (← get).iterations.get? name
  modify (·.setIteration name it)
  exchange (old.elim (return ()) fun old => old.close.regardless)
  return .nothing

/-- what a step does, and what comes of it -/
def perform : Step → Action Answer
  | .query name text calls => do
    let q ← Query.build text calls
    modify (·.bindNew name (.query q))
    return .nothing
  | .aggregation name text calls => do
    let a ← Aggregation.build text calls
    modify (·.bindNew name (.aggregation a))
    return .nothing
  | .callQuery name c => call name queryOf .query (Query.call c)
  | .callAggregation name c => call name aggregationOf .aggregation (Aggregation.call c)
  | .compile name => do
    match (← get).draftOf name with
    | some (.query q) => return .tokens (← q.compile none)
    | some (.aggregation a) => return .tokens (a.compile none)
    | none => throw (.missingName name)
  | .setDefault dialect => do
    if let some d := dialect then
      let _ ← Dialect.check d
    modify ({ · with default := dialect })
    return .nothing
  | .search index name => asking .result fun s => do
    Client.search index (← s.queryOf name) s.default
  | .aggregate index name => asking .batch fun s => do
    Client.aggregate index (← s.aggregationOf name) s.default
  | .cursorRead index cursor count => asking .batch fun _ => Client.cursorRead index cursor count
  | .cursorDelete index cursor => asking .released fun _ => Client.cursorDelete index cursor
  | .info index => asking .info fun _ => Client.info index
  | .explain index text dialect =>
    asking .text fun s => Client.explain index text dialect s.default
  | .explainLines index text dialect =>
    asking .lines fun s => Client.explainLines index text dialect s.default
  | .iterate iteration index name count => do
    let p ← (← get).place name
    iterate iteration ⟨index, count, .waiting p⟩
  | .next iteration => next iteration
  | .close iteration => close iteration

/-- the outcome of a step, the commands sent in it, the session and the other side after it -/
structure Entry (σ : Type) where
  outcome : Except Fault Answer
  sent : List (List Token)
  session : Session
  state : σ

/-- a step through a transport, and the session that it leaves, also if it fails -/
def step {σ : Type} (t : Transport σ) (s : Session) (x : σ) (st : Step) : Entry σ :=
  let run := ((perform st).on s).run t x
  ⟨run.outcome.1, run.sent, run.outcome.2, run.state⟩

/-- several steps through a transport, one after another -/
def steps {σ : Type} (t : Transport σ) (s : Session) (x : σ) : List Step → List (Entry σ)
  | [] => []
  | st :: sts =>
    let e := s.step t x st
    e :: steps t e.session e.state sts

end Session

end FullText

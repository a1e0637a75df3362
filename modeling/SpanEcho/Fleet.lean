import SpanEcho.Reactor.Run

/-!
# Several reactors on one port

A fleet has a reactor thread for each of its listening sockets, and the main thread, which starts
them and waits for their end. The reactors share nothing but the request to stop. Which thread
takes its turn when is not for the fleet to decide: a schedule is any list of turns.

A reactor thread takes its turns in three stages. It prepares its reactor; then it looks for a
request to stop and, if there is none, goes into a wait; then it comes out of the wait and serves
what is ready. A thread that ends with a failure asks the others to stop.

Threads run at the same time, but here each turn is taken as a whole. No interleaving is lost by
that. All that the threads share is the request to stop; a thread tests it at the start of a turn
of its own, which ends before the wait begins, and nobody withdraws it. So a request that is made
while another thread takes its turn may as well have been made before that turn or after it. The
kernel below them is shared too, but it may answer each call as it likes.
-/

namespace SpanEcho

/-- How far a reactor thread has got. -/
inductive Stage where
  | created (listener : Descriptor)
  /-- About to look for a request to stop. -/
  | looping (reactor : Reactor) (lastReport : Duration)
  | waiting (reactor : Reactor) (lastReport : Duration) (plan : Plan)
  | ended (outcome : Outcome Tally)
deriving DecidableEq, Repr

structure Shard where
  index : Nat
  stage : Stage
deriving DecidableEq, Repr

namespace Shard

variable {κ : Type} [Kernel κ]

/-- What a reactor thread does about its outcome: a failure is logged, and the others are asked to
stop. -/
def announce (index : Nat) : Outcome Tally → Sys κ Unit
  | .failed e => do
    Sys.log .error s!"reactor {index}: {e.describe}"
    Sys.askStop
  | _ => pure ()

/-- The end of a reactor thread. -/
def conclude (index : Nat) (outcome : Outcome Tally) : Sys κ Stage := do
  announce index outcome
  pure (.ended outcome)

/-- The end of a thread whose reactor has closed down. -/
def close (index : Nat) (reactor : Reactor) (outcome : Outcome Tally) : Sys κ Stage := do
  reactor.closeAll
  conclude index outcome

/-- Runs an action of the reactor; goes on with what it leaves, or closes down if it ends without a
value. -/
def carryOn {α : Type} (index : Nat) (reactor : Reactor) (m : Loop κ α)
    (next : α → Reactor → Sys κ Stage) : Sys κ Stage := fun w =>
  match m { reactor, world := w } with
  | (.ok a, n) => next a n.reactor n.world
  | (.failed e, n) => close index n.reactor (.failed e) n.world
  | (.defect d, n) => close index n.reactor (.defect d) n.world

/-- One turn of a reactor thread. -/
def turn (settings : Settings) (index : Nat) : Stage → Sys κ Stage
  | .created listener => do
    match ← Action.observe (Reactor.create listener settings.method.multiplexor settings) with
    | .ok reactor =>
      carryOn index reactor Reactor.start fun last reactor => pure (.looping reactor last)
    | .failed e => conclude index (.failed e)
    | .defect d => conclude index (.defect d)
  | .looping reactor last => do
    if ← Sys.stopping then
      carryOn index reactor Reactor.finish fun tally reactor => close index reactor (.ok tally)
    else
      carryOn index reactor Reactor.prepare fun plan reactor => pure (.waiting reactor last plan)
  | .waiting reactor last plan =>
    carryOn index reactor (do let _ ← Reactor.complete plan; Reactor.report last)
      fun last reactor => pure (.looping reactor last)
  | .ended outcome => pure (.ended outcome)

end Shard

/-- The threads of a server with several reactors. -/
structure Fleet where
  settings : Settings
  /-- The listening sockets whose threads are still to be started. -/
  waitingListeners : List Descriptor
  shards : List Shard := []
  /-- Why a thread could not be started. -/
  spawnFailure : Option Failure := none
deriving DecidableEq, Repr

/-- Whose turn it is. -/
inductive Turn where
  | main
  | shard (index : Nat)
deriving DecidableEq, Repr

namespace Fleet

variable {κ : Type} [Kernel κ]

/-- The settings of each reactor. Without a limit of its own, a wait is cut short now and then, for
a signal wakes only one of the threads. -/
def shardSettings (s : Settings) : Settings :=
  { s with waitLimit := some (s.waitLimit.getD (.ofMillis 100)) }

/-- The main thread starts the next reactor thread. If that fails it asks the others to stop, and
starts no more. -/
def spawnNext (f : Fleet) : Sys κ Fleet := do
  match f.spawnFailure, f.waitingListeners with
  | none, listener :: rest =>
    let index := f.shards.length
    let refused (errno : Errno) : Sys κ Fleet := do
      Socket.close listener
      Sys.askStop
      pure { f with waitingListeners := rest, spawnFailure := some (.system "spawn" errno) }
    match ← Sys.call (.spawn index) with
    | .ok _ =>
      pure { f with
        waitingListeners := rest, shards := f.shards ++ [⟨index, .created listener⟩] }
    | .failed errno => refused errno
    | .notOpen => refused .badDescriptor
  | _, _ => pure f

/-- Gives the shard of an index its turn. -/
def turnOf (settings : Settings) (index : Nat) : List Shard → Sys κ (List Shard)
  | [] => pure []
  | s :: rest =>
    if s.index = index then do
      Sys.switchTo (.reactor index)
      let stage ← Shard.turn settings index s.stage
      Sys.switchTo .main
      pure ({ s with stage } :: rest)
    else do
      let rest ← turnOf settings index rest
      pure (s :: rest)

/-- One turn, taken as a whole. That loses no interleaving: the threads share only the request to
stop, which is tested at the start of a turn of its own and never withdrawn. -/
def step (t : Turn) (f : Fleet) : Sys κ Fleet :=
  match t with
  | .main => f.spawnNext
  | .shard index => do
    let shards ← turnOf f.settings index f.shards
    pure { f with shards }

/-- Takes the turns of a schedule one after the other. -/
def follow : List Turn → Fleet → Sys κ Fleet
  | [], f => pure f
  | t :: rest, f => do
    let f ← f.step t
    follow rest f

/-- How a shard has ended, if it has. -/
def Shard.outcome? (s : Shard) : Option (Outcome Tally) :=
  match s.stage with
  | .ended outcome => some outcome
  | _ => none

/-- The outcomes of all threads in order, once all are started that will be and have ended. -/
def outcomes? (f : Fleet) : Option (List (Outcome Tally)) :=
  if f.spawnFailure.isSome ∨ f.waitingListeners.isEmpty then
    f.shards.mapM Shard.outcome?
  else none

/-- Joins the outcomes of the reactors: the sum of the counters, or the failure of the first
reactor in the order of their numbers that has one. -/
def join : List (Outcome Tally) → Except Failure Tally
  | [] => .ok {}
  | .ok tally :: rest =>
    match join rest with
    | .ok total => .ok (tally + total)
    | .error e => .error e
  | .failed e :: _ => .error e
  | .defect _ :: _ => .error (.settings "reactor thread panicked")

/-- The end of the main thread; no answer while a thread is still running. -/
def conclude (f : Fleet) : Sys κ (Option Tally) := do
  match f.outcomes? with
  | none => pure none
  | some outcomes =>
    match f.spawnFailure with
    | some e =>
      Socket.closeAll f.waitingListeners
      Action.fail e
    | none =>
      match join outcomes with
      | .error e => Action.fail e
      | .ok total =>
        Sys.log .info s!"all reactors stopped: {total.text}"
        pure (some total)

end Fleet

end SpanEcho

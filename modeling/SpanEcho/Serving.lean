import SpanEcho.Fleet

/-!
# Serving

A server checks its settings, opens its listening sockets and runs one reactor on the main thread,
or several on threads of their own. All sockets are opened before the first thread starts, and all
of them on one port: with port 0 the kernel chooses when the first is opened, and the others join.

How long a server runs is bounded from outside: a single reactor by a number of passes, several by
a schedule. Within the bound it answers its counters or fails; beyond it there is no answer.
-/

namespace SpanEcho.Serving

variable {κ : Type} [Kernel κ]

/-- Runs a reactor and closes it down when it ends. -/
def runToEnd (most : Nat) (reactor : Reactor) : Sys κ (Option Tally) := fun w =>
  match Reactor.run most { reactor, world := w } with
  | (.ok none, n) => (.ok none, n.world)
  | (outcome, n) => (do
      n.reactor.closeAll
      Action.ofOutcome outcome) n.world

/-- Opens `count` more listening sockets on a port. If one cannot be opened, those opened before
are closed. -/
def openMore (port : Nat) (backlog : Int) (opened : List Descriptor) :
    (count : Nat) → Sys κ (List Descriptor)
  | 0 => pure opened
  | count + 1 => do
    let fd ← Socket.closingOnFailure opened (Socket.listenOn port backlog true)
    openMore port backlog (opened ++ [fd]) count

/-- The port that a listening socket is bound to. -/
def portOf (listener : Descriptor) : Sys κ Nat :=
  Socket.closingOnFailure [listener] do
    let address ← Socket.localAddress listener
    pure address.port

/-- Opens the listening socket of a single reactor. -/
def launch (s : Settings) : Sys κ Reactor := do
  let listener ← Socket.listenOn s.port s.backlog false
  let port ← portOf listener
  Sys.log .info s!"serving on port {port}"
  Reactor.create listener s.method.multiplexor s

/-- Serves with one reactor, on the running thread. -/
def serveAlone (most : Nat) (s : Settings) : Sys κ (Option Tally) := do
  runToEnd most (← launch s)

/-- Opens the listening sockets of a fleet. -/
def assemble (s : Settings) : Sys κ Fleet := do
  let first ← Socket.listenOn s.port s.backlog true
  let port ← portOf first
  let listeners ← openMore port s.backlog [first] (s.workers - 1)
  Sys.log .info s!"serving on port {port} with {s.workers} reactors"
  pure { settings := Fleet.shardSettings s, waitingListeners := listeners }

/-- Serves until asked to stop. -/
def serve (most : Nat) (schedule : List Turn) (s : Settings) : Sys κ (Option Tally) := do
  Action.failIf s.failure?
  if s.workers = 1 then serveAlone most s
  else
    let fleet ← assemble s
    let fleet ← fleet.follow schedule
    fleet.conclude

end SpanEcho.Serving

import SpanEcho.Reactor.Basic

/-!
# A pass of a reactor

A pass waits for readiness once and then serves every ready descriptor in the order in which they
are listed. The listener accepts one connection; a connection receives and then sends. The interest
its handler answers with is kept for the next wait, and an empty one closes the connection.

What goes wrong with one connection closes that connection and nothing else. Only a failing wait, a
full registry and a descriptor beyond the limit of the multiplexor end a pass early.
-/

namespace SpanEcho

/-- What a reactor is about to wait for. -/
structure Plan where
  entries : List Registration
  highest : Descriptor
  limit : Option Duration
deriving DecidableEq, Repr

inductive Direction where
  | receive
  | send
deriving DecidableEq, Repr

def Direction.name : Direction → String
  | receive => "Recv"
  | send => "Send"

namespace Reactor

variable {κ : Type} [Kernel κ]

/-- Ends a pause whose time has come. -/
def resumeAccepting : Loop κ Unit := do
  match (← Loop.reactor).pausedUntil with
  | none => pure ()
  | some deadline =>
    let now ← Loop.sys Sys.now
    if deadline ≤ now then
      Loop.log .debug "resuming accepts"
      Loop.adjust fun r => { r with pausedUntil := none }

/-- The longest the next wait may take. It does not outlast a pause. -/
def waitLimit : Loop κ (Option Duration) := do
  let r ← Loop.reactor
  match r.pausedUntil with
  | none => pure r.settings.waitLimit
  | some deadline =>
    let now ← Loop.sys Sys.now
    let left := deadline - now
    match r.settings.waitLimit with
    | none => pure (some left)
    | some limit => pure (some (min limit left))

/-- All that comes before the wait. -/
def prepare : Loop κ Plan := do
  resumeAccepting
  let r ← Loop.reactor
  let limit ← waitLimit
  pure { entries := r.registrations, highest := r.highest, limit }

/-- Takes notice of a failed accept. If it failed for want of descriptors or memory, accepting is
paused, since the connection stays queued and would wake every pass. -/
def acceptFailed (e : Failure) : Loop κ Unit := do
  Loop.count fun t => { t with acceptErrors := t.acceptErrors + 1 }
  if e.isExhaustion then
    Loop.log .warn s!"accept failed: {e.describe}; pausing accepts for {acceptPause.text}"
    let now ← Loop.sys Sys.now
    Loop.adjust fun r => { r with pausedUntil := some (now + acceptPause) }
  else Loop.log .warn s!"accept failed: {e.describe}"

/-- Files an accepted socket as a new connection. -/
def enrol (fd : Descriptor) (peer : Option Endpoint) : Loop κ Unit := do
  match ← Action.attempt (Loop.sys (Socket.setNonBlocking fd)) with
  | .error e =>
    Loop.log .warn s!"socket {fd}: {e.describe}"
    Loop.count fun t => { t with errors := t.errors + 1 }
    Loop.sys (Socket.close fd)
  | .ok () =>
    let r ← Loop.reactor
    let (session, interest) := Session.begin r.settings.sendCapacity
    let filed : Loop κ Unit := do
      Loop.sys (r.multiplexor.check fd)
      Memory.reserve r.settings.sendCapacity
      let _ ← Loop.registry (Registry.insert fd { socket := fd, session, interest })
    match ← Action.observe filed with
    | .ok () =>
      Loop.count fun t => { t with accepts := t.accepts + 1 }
      Loop.sys (Socket.reportPeer peer)
      Loop.log .debug s!"socket {fd} accepted, interest {interest.text}"
    | bad =>
      Loop.sys (Socket.close fd)
      Action.ofOutcome bad

def acceptOne : Loop κ Unit := do
  let r ← Loop.reactor
  match ← Action.attempt (Loop.sys (Socket.accept r.listener)) with
  | .error .wouldBlock => Loop.log .debug "accept returned EAGAIN or EWOULDBLOCK"
  | .error e => acceptFailed e
  | .ok (fd, peer) => enrol fd peer

/-- Runs the handler of a connection and puts its session back. -/
def exchange (t : Ticket) (entry : Entry Descriptor) (d : Direction) : Loop κ Interest := fun n =>
  let peer : SocketPeer κ := { fd := entry.socket, world := n.world }
  let (outcome, session, peer) := match d with
    | .receive => entry.session.onReadable n.reactor.settings.receiveChunk peer
    | .send => entry.session.onWritable peer
  let registry := n.reactor.registry.modify t fun e => { e with session }
  (outcome, { reactor := { n.reactor with registry }, world := peer.world })

/-- Counts what moved since the session of a connection was `old`. -/
def countTraffic (t : Ticket) (old : Session) : Loop κ Unit := do
  match (← Loop.reactor).registry.get? t with
  | none => pure ()
  | some new =>
    if new.session.bytesIn < old.bytesIn ∨ new.session.bytesOut < old.bytesOut then
      Action.stop .counterBackwards
    else
      Loop.count (Tally.addTraffic (new.session.bytesIn - old.bytesIn)
        (new.session.bytesOut - old.bytesOut))

/-- The interest that follows from what a handler answered: after a failure, none. -/
def verdict (t : Ticket) : Except Failure Interest → Loop κ Interest
  | .ok interest => pure interest
  | .error e => do
    Loop.log .error s!"socket {t.fd}: {e.describe}"
    Loop.count fun t => { t with errors := t.errors + 1 }
    pure .nothing

/-- Closes the connection of a ticket. -/
def hangUp (t : Ticket) : Loop κ Unit := do
  let r ← Loop.reactor
  match r.registry.remove? t with
  | (none, _) => pure ()
  | (some entry, registry) =>
    if r.registry.live = 0 then Action.stop .liveCountBelowZero
    else do
      Loop.adjust fun r => { r with registry }
      Loop.sys (Socket.close entry.socket)
      Loop.log .info s!"socket {t.fd} closing"
      Loop.count fun t => { t with closes := t.closes + 1 }

/-- Keeps the interest for the next wait; an empty one closes the connection. -/
def keep (t : Ticket) (interest : Interest) : Loop κ Unit :=
  if interest.isEmpty then hangUp t
  else Loop.adjust fun r =>
    { r with registry := r.registry.modify t fun e => { e with interest } }

/-- What follows a handler: its traffic is counted, its failure logged, and the interest it answered
with is kept. -/
def followUp (t : Ticket) (d : Direction) (old : Session) (answer : Except Failure Interest) :
    Loop κ Unit := do
  countTraffic t old
  let interest ← verdict t answer
  Loop.log .trace s!"socket {t.fd} {d.name} -> {interest.text}"
  keep t interest

/-- Serves one direction of a connection. A connection closed before is left alone. -/
def serve (t : Ticket) (d : Direction) : Loop κ Unit := do
  match (← Loop.reactor).registry.get? t with
  | none => pure ()
  | some entry =>
    let answer ← Action.attempt (exchange t entry d)
    followUp t d entry.session answer

/-- Serves a ready descriptor. One whose connection was closed earlier in the pass is passed
over. -/
def dispatch (ready : Readiness) : Loop κ Unit := do
  let r ← Loop.reactor
  if ready.fd = r.listener then Action.when ready.readable acceptOne
  else
    match r.registry.find? ready.fd with
    | none => pure ()
    | some t => do
      Action.when ready.readable (serve t .receive)
      Action.when ready.writable (serve t .send)

def dispatchAll : List Readiness → Loop κ Unit
  | [] => pure ()
  | ready :: rest => do
    dispatch ready
    dispatchAll rest

/-- The wait; answers what is ready. -/
def await (plan : Plan) : Loop κ (List Readiness) := do
  let r ← Loop.reactor
  let ready ← Loop.sys (r.multiplexor.wait plan.entries plan.highest plan.limit)
  Loop.count fun t => { t with loops := t.loops + 1 }
  let loops := (← Loop.reactor).tally.loops
  Loop.log .debug s!"loop {loops}: {ready.length} ready of {plan.entries.length} registered"
  pure ready

/-- The wait and all that follows it; answers how many descriptors were ready. -/
def complete (plan : Plan) : Loop κ Nat := do
  let ready ← await plan
  dispatchAll ready
  pure ready.length

def pass : Loop κ Nat := do
  complete (← prepare)

end Reactor

end SpanEcho

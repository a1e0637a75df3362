import SpanEcho.Multiplexor
import SpanEcho.Registry
import SpanEcho.Socket
import SpanEcho.Tally

/-!
# Reactors

A reactor serves the connections of one listening socket on one thread. It owns the listener and
the sockets in its registry. While accepting is paused, the listener is left out of what it waits
for.
-/

namespace SpanEcho

structure Reactor where
  listener : Descriptor
  multiplexor : Multiplexor
  settings : Settings
  registry : Registry Descriptor
  tally : Tally := {}
  /-- Accepting is paused until this time. -/
  pausedUntil : Option Duration := none
deriving DecidableEq, Repr

/-- How long accepting is paused when the kernel runs out of descriptors or memory. -/
def Reactor.acceptPause : Duration := .ofMillis 100

/-- A reactor in its world. -/
structure Node (κ : Type) where
  reactor : Reactor
  world : World κ

/-- Actions of a reactor. -/
abbrev Loop (κ : Type) := Action (Node κ)

namespace Loop

variable {κ α : Type}

/-- An action on the world alone. -/
def sys (m : Sys κ α) : Loop κ α :=
  Action.onPart (·.world) (fun n world => { n with world }) m

def reactor : Loop κ Reactor := fun n =>
  (.ok n.reactor, n)

def adjust (f : Reactor → Reactor) : Loop κ Unit :=
  Action.change fun n => { n with reactor := f n.reactor }

/-- An action on the registry alone. -/
def registry (m : Action (Registry Descriptor) α) : Loop κ α :=
  Action.onPart (·.reactor.registry)
    (fun n registry => { n with reactor := { n.reactor with registry } }) m

def count (f : Tally → Tally) : Loop κ Unit :=
  adjust fun r => { r with tally := f r.tally }

def log (level : Log.Level) (text : String) : Loop κ Unit :=
  sys (Sys.log level text)

end Loop

namespace Reactor

variable {κ : Type}

/-- The counters as they stand, with the connections open now. -/
def stats (r : Reactor) : Tally :=
  { r.tally with live := r.registry.live }

/-- What every connection is watched for, in ascending order of descriptor. -/
def interests (r : Reactor) : List Registration :=
  r.registry.toList.map fun (t, e) => ⟨t.fd, e.interest⟩

/-- Puts `r` before the first registration of a higher descriptor. -/
def insertAscending (r : Registration) : List Registration → List Registration
  | [] => [r]
  | e :: rest => if r.fd < e.fd then r :: e :: rest else e :: insertAscending r rest

/-- What the next wait is for: every connection as its handler last asked, and the listener unless
accepting is paused, in ascending order of descriptor. -/
def registrations (r : Reactor) : List Registration :=
  let connections := r.interests.filter fun e => !e.interest.isEmpty
  if r.pausedUntil.isNone then insertAscending ⟨r.listener, .read⟩ connections else connections

/-- The highest descriptor that can be among the registrations. -/
def highest (r : Reactor) : Descriptor :=
  max r.listener r.registry.highest

variable [Kernel κ]

/-- Takes over a listening socket, which becomes non-blocking. The socket is closed if the settings
are faulty, the multiplexor cannot watch it or the receive buffer cannot be had. -/
def create (listener : Descriptor) (multiplexor : Multiplexor) (settings : Settings) :
    Sys κ Reactor :=
  Socket.closingOnFailure [listener] do
    Action.failIf settings.failure?
    Socket.setNonBlocking listener
    multiplexor.check listener
    Memory.reserve settings.receiveChunk
    pure { listener, multiplexor, settings, registry := { capacity := settings.maxConnections } }

/-- Closes the listener, then the connections in ascending order of descriptor. -/
def closeAll (r : Reactor) : Sys κ Unit :=
  Socket.closeAll (r.listener :: r.registry.toList.map fun (_, e) => e.socket)

end Reactor

end SpanEcho

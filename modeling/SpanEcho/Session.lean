import SpanEcho.Interest
import SpanEcho.Outbox

/-!
# Sessions

A session is what the server remembers of one client: the phase of its span machine, the bytes
staged for it, and how much went in and out. It has a handler for each direction. Nothing is
received while something is pending, and never more than the outbox has room for; a received byte
stages at most one byte, so a receive cannot overflow the outbox.

The handlers talk to the other end through `Peer`. What they decide is in `room`, `absorb` and
`settle`, which do not touch the peer.
-/

namespace SpanEcho

structure Session where
  phase : Span.Phase
  outbox : Outbox
  bytesIn : Nat := 0
  bytesOut : Nat := 0
deriving DecidableEq, Repr, Inhabited

/-- What came of asking a peer for bytes. No bytes at all mean the end of the stream. -/
inductive Inflow where
  | bytes (received : Bytes)
  | blocked
  | failed (why : Failure)
deriving DecidableEq, Repr

/-- What came of offering a peer bytes. -/
inductive Outflow where
  | taken (count : Nat)
  | blocked
  | failed (why : Failure)
deriving DecidableEq, Repr

/-- The other end of a connection. -/
class Peer (π : Type) where
  /-- Asks for at most `room` bytes. -/
  receive : (room : Nat) → π → Inflow × π
  send : Bytes → π → Outflow × π

namespace Session

/-- The session of a client that has just connected. It waits to send the greeting. -/
def begin (capacity : Nat) : Session × Interest :=
  ({ phase := .greeting, outbox := .greeted capacity }, .write)

/-- Runs one received byte through the machine; answers whether it staged a byte. If the outbox
refuses that byte, the machine has taken its step all the same. -/
def stage (b : UInt8) : Action Session Bool := fun s =>
  match s.phase.feed b with
  | (phase, none) => (.ok false, { s with phase })
  | (phase, some out) =>
    let (pushed, outbox) := Outbox.push out s.outbox
    (pushed.map fun _ => true, { s with phase, outbox })

/-- Runs a received batch through the machine, up to the first byte the outbox refuses; answers
whether anything was staged. -/
def ingest : Bytes → Action Session Bool
  | [] => pure false
  | b :: rest => do
    let staged ← stage b
    let more ← ingest rest
    pure (staged || more)

/-- How many bytes a readable session asks for; zero when it must send first. -/
def room (chunk : Nat) (s : Session) : Nat :=
  if s.phase = .greeting ∨ s.outbox.hasPending then 0 else min chunk s.outbox.room

/-- Takes what a receive brought. -/
def absorb (chunk : Nat) (inflow : Inflow) : Action Session Interest := fun s =>
  match inflow with
  | .blocked => (.ok .read, s)
  | .failed e => (.failed e, s)
  | .bytes [] => (.ok .nothing, s)
  | .bytes received =>
    if chunk < received.length then (.defect (.receiveOverrun received.length chunk), s)
    else
      let (staged, s) := ingest received { s with bytesIn := s.bytesIn + received.length }
      (staged.map fun any => if any then .write else .read, s)

/-- Takes what a send of all pending bytes achieved. -/
def settle (outflow : Outflow) : Action Session Interest := fun s =>
  match outflow with
  | .blocked => (.ok .write, s)
  | .failed e => (.failed e, s)
  | .taken count =>
    if s.outbox.pending.length < count then
      (.defect (.sendOverrun count s.outbox.pending.length), s)
    else
      let s := { s with bytesOut := s.bytesOut + count }
      match s.outbox.advance count with
      | (true, outbox) => (.ok .read, { s with outbox, phase := s.phase.acknowledge })
      | (false, outbox) => (.ok .write, { s with outbox })

variable {π : Type} [Peer π]

/-- The handler for a readable peer. `chunk` is the size of the receive buffer. -/
def onReadable (chunk : Nat) (s : Session) (peer : π) : Outcome Interest × Session × π :=
  if s.outbox.InBounds then
    match s.room chunk with
    | 0 => (.ok .write, s, peer)
    | room =>
      let (inflow, peer) := Peer.receive room peer
      let (outcome, s) := absorb chunk inflow s
      (outcome, s, peer)
  else (.defect .outboxOutOfBounds, s, peer)

/-- The handler for a writable peer. -/
def onWritable (s : Session) (peer : π) : Outcome Interest × Session × π :=
  if s.outbox.InBounds then
    match s.outbox.pending with
    | [] => (.ok .both, s, peer)
    | pending =>
      let (outflow, peer) := Peer.send pending peer
      let (outcome, s) := settle outflow s
      (outcome, s, peer)
  else (.defect .outboxOutOfBounds, s, peer)

end Session

end SpanEcho

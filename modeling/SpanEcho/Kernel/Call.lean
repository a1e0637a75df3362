import SpanEcho.Address
import SpanEcho.Interest
import SpanEcho.Span.Machine
import SpanEcho.Text.Lapse

/-!
# Calls to the kernel

Everything a server asks of the kernel is a `Call`, and each call has its type of replies. A kernel
is any machine that answers calls; nothing is assumed of what it answers. Calls and replies are
kept as `Event`s, and what a server does is said in terms of them.
-/

namespace SpanEcho

/-- The threads of a server. -/
inductive Thread where
  | main
  | reactor (index : Nat)
deriving DecidableEq, Repr, Inhabited

def Thread.name : Thread → String
  | main => "main"
  | reactor index => s!"sloop-reactor-{index}"

/-- What is done when a signal arrives. -/
inductive Disposition where
  | default
  | ignore
  /-- The handler that asks the server to stop is run. -/
  | handler
deriving DecidableEq, Repr, Inhabited

inductive SocketOption where
  | reuseAddress
  | reusePort
deriving DecidableEq, Repr

/-- The name of a socket as the kernel reports it: a family, the length of the report, and an
address that means something in the family of version 4 only. -/
structure SocketName where
  family : Nat
  length : Nat
  address : Endpoint
deriving DecidableEq, Repr

namespace SocketName

/-- The address family of version 4. -/
def familyV4 : Nat := 2

/-- The length of a name of version 4. -/
def lengthV4 : Nat := 16

/-- The address in a name, if it is of version 4. -/
def endpoint? (name : SocketName) : Option Endpoint :=
  if name.family = familyV4 then some name.address else none

end SocketName

/-- The reply to a call that can fail. -/
inductive Answer (α : Type) where
  | ok (value : α)
  | failed (errno : Errno)
  /-- The descriptor of the call is not open. -/
  | notOpen
deriving DecidableEq, Repr

/-- What happened to a watched descriptor. -/
structure Condition where
  readable : Bool := false
  writable : Bool := false
  urgent : Bool := false
  hangUp : Bool := false
  error : Bool := false
  invalid : Bool := false
deriving DecidableEq, Repr, Inhabited

/-- Whether there is anything to report. -/
def Condition.any (c : Condition) : Bool :=
  c.readable || c.writable || c.urgent || c.hangUp || c.error || c.invalid

/-- What either of two conditions reports. -/
def Condition.join (c d : Condition) : Condition :=
  { readable := c.readable || d.readable
    writable := c.writable || d.writable
    urgent := c.urgent || d.urgent
    hangUp := c.hangUp || d.hangUp
    error := c.error || d.error
    invalid := c.invalid || d.invalid }

/-- The reply to `Call.poll`. -/
structure Polled where
  /-- How many entries have something to report; negative if the call failed. -/
  returned : Int
  /-- Why the call failed. -/
  errno : Errno := 0
  /-- What happened to each entry, in the order of the entries. -/
  conditions : List Condition := []
deriving DecidableEq, Repr

/-- The reply to `Call.select`. -/
structure Selected where
  /-- How many descriptors the two sets hold together; negative if the call failed. -/
  returned : Int
  /-- Why the call failed. -/
  errno : Errno := 0
  readable : List Descriptor := []
  writable : List Descriptor := []
deriving DecidableEq, Repr

/-- A time limit in seconds and microseconds. -/
structure TimeLimit where
  seconds : Int
  micros : Nat
deriving DecidableEq, Repr

inductive Call where
  /-- A new socket. -/
  | socket
  | descriptorFlags (fd : Descriptor)
  | setDescriptorFlags (fd : Descriptor) (flags : Nat)
  | statusFlags (fd : Descriptor)
  | setStatusFlags (fd : Descriptor) (flags : Nat)
  | setOption (fd : Descriptor) (option : SocketOption) (value : Int)
  | bind (fd : Descriptor) (address : Endpoint)
  | listen (fd : Descriptor) (backlog : Int)
  | localName (fd : Descriptor)
  | accept (fd : Descriptor)
  | receive (fd : Descriptor) (room : Nat)
  | send (fd : Descriptor) (bytes : Bytes) (flags : Nat)
  | close (fd : Descriptor)
  /-- Waits until an entry has something to report, for at most `millis` milliseconds; a negative
  number sets no limit. -/
  | poll (entries : List Registration) (millis : Int)
  /-- Waits until one of the descriptors, all below `bound`, is ready. The two lists stand for sets:
  order and repetition mean nothing. -/
  | select (bound : Int) (reads writes : List Descriptor) (limit : Option TimeLimit)
  /-- Leaves the wait to a multiplexor from outside. -/
  | watch (entries : List Registration) (highest : Descriptor) (limit : Option Duration)
  | setDisposition (signal : Nat) (disposition : Disposition) (restart : Bool)
  /-- A new thread for the reactor of the given index. -/
  | spawn (index : Nat)
  /-- The time on the monotonic clock. -/
  | clock
deriving DecidableEq, Repr

/-- The type of the replies to a call. -/
@[reducible] def Call.Reply : Call → Type
  | .socket => Answer Nat
  | .descriptorFlags _ => Answer Nat
  | .setDescriptorFlags _ _ => Answer Unit
  | .statusFlags _ => Answer Nat
  | .setStatusFlags _ _ => Answer Unit
  | .setOption _ _ _ => Answer Unit
  | .bind _ _ => Answer Unit
  | .listen _ _ => Answer Unit
  | .localName _ => Answer SocketName
  | .accept _ => Answer (Nat × SocketName)
  | .receive _ _ => Answer Bytes
  | .send _ _ _ => Answer Nat
  | .close _ => Answer Unit
  | .poll _ _ => Polled
  | .select _ _ _ _ => Selected
  | .watch _ _ _ => Answer (List Readiness)
  | .setDisposition _ _ _ => Answer Unit
  | .spawn _ => Answer Unit
  | .clock => Duration

/-- The name by which a failure refers to a call. -/
def Call.operation : Call → String
  | .socket => "socket"
  | .descriptorFlags _ => "fcntl(F_GETFD)"
  | .setDescriptorFlags _ _ => "fcntl(F_SETFD)"
  | .statusFlags _ => "fcntl(F_GETFL)"
  | .setStatusFlags _ _ => "fcntl(F_SETFL)"
  | .setOption _ .reuseAddress _ => "setsockopt(SO_REUSEADDR)"
  | .setOption _ .reusePort _ => "setsockopt(SO_REUSEPORT)"
  | .bind _ _ => "bind"
  | .listen _ _ => "listen"
  | .localName _ => "getsockname"
  | .accept _ => "accept"
  | .receive _ _ => "recv"
  | .send _ _ _ => "send"
  | .close _ => "close"
  | .poll _ _ => "poll"
  | .select _ _ _ _ => "select"
  | .watch _ _ _ => "watch"
  | .setDisposition _ _ _ => "sigaction"
  | .spawn _ => "spawn"
  | .clock => "clock"

/-- What can reach a server from outside while a call runs. -/
inductive Arrival where
  /-- Somebody asks the server to stop. -/
  | stop
  | signal (number : Nat)
deriving DecidableEq, Repr

/-- A call that was made, by which thread, with its reply and what arrived meanwhile. -/
structure Event where
  thread : Thread
  call : Call
  reply : call.Reply
  arrivals : List Arrival := []

/-- What a kernel in a state `κ` makes of a call. -/
structure Response (κ : Type) (call : Call) where
  reply : call.Reply
  arrivals : List Arrival := []
  next : κ

/-- The states of a kernel. -/
class Kernel (κ : Type) where
  respond : Thread → (call : Call) → κ → Response κ call

end SpanEcho

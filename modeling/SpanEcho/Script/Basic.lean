import SpanEcho.Kernel.Call
import SpanEcho.Script.FarEnd

/-!
# Scripts

What a kernel without sockets, clocks or signals of its own goes by. Connections arrive in the
order of a list, each with a far end; waits come back as listed; calls fail where the script says
so; time passes only as the script lets it.
-/

namespace SpanEcho

namespace Script

/-- What comes of accepting. -/
inductive Arriving where
  | failed (errno : Errno)
  /-- A connection, on a descriptor of its own or on the lowest that is free. -/
  | connection (fd : Option Nat) (name : SocketName) (nonBlocking : Bool) (farEnd : FarEnd)
deriving DecidableEq, Repr

/-- How a wait comes back. -/
structure Waking where
  /-- What happened to descriptors. -/
  ready : List (Descriptor × Condition) := []
  /-- The count to return in place of the right one. -/
  returned : Option Int := none
  errno : Option Errno := none
  /-- How much time the wait takes. -/
  lasting : Duration := 0
  arrivals : List Arrival := []
deriving DecidableEq, Repr, Inhabited

/-- A failure to come: of the first call `operation` after `skip` others, on the descriptor or for
the signal `fd` if one is given. -/
structure Mishap where
  operation : String
  errno : Errno
  fd : Option Int := none
  skip : Nat := 0
deriving DecidableEq, Repr

/-- An open socket. -/
structure OpenSocket where
  number : Nat
  descriptorFlags : Nat := 0
  statusFlags : Nat := 2
  /-- The address it is bound to. -/
  address : Endpoint := ⟨.unspecified, 0⟩
  /-- What comes of accepting on it. -/
  queue : List Arriving := []
  farEnd : FarEnd := {}
deriving DecidableEq, Repr

end Script

/-- The state of a kernel that follows a script. -/
structure Script where
  /-- The numbers of the sockets to come; after them, the lowest that is free. -/
  socketNumbers : List Nat := []
  /-- What comes of accepting on the next socket that gets this number. -/
  queues : List (Nat × List Script.Arriving) := []
  waits : List (Thread × List Script.Waking) := []
  mishaps : List Script.Mishap := []
  /-- The port chosen for a socket bound to port 0. -/
  ephemeralPort : Nat := 40000
  /-- The family under which sockets are reported. -/
  family : Nat := 2
  sockets : List Script.OpenSocket := []
  clocks : List (Thread × Duration) := []

namespace Script

/-- The value filed under a key, in a list of pairs. -/
def at? {α β : Type} [BEq α] (key : α) (pairs : List (α × β)) : Option β :=
  pairs.lookup key

/-- Files a value under a key, in place of the one before. -/
def filed {α β : Type} [BEq α] (key : α) (value : β) (pairs : List (α × β)) : List (α × β) :=
  (key, value) :: pairs.filter fun p => p.1 != key

def socket? (s : Script) (fd : Descriptor) : Option OpenSocket :=
  s.sockets.find? fun o => (o.number : Int) = fd

def without (s : Script) (fd : Descriptor) : Script :=
  { s with sockets := s.sockets.filter fun o => (o.number : Int) ≠ fd }

/-- Opens a socket, in place of one of the same number, or changes it. -/
def withSocket (s : Script) (o : OpenSocket) : Script :=
  { s.without o.number with sockets := o :: (s.without o.number).sockets }

/-- The lowest number from 3 on that is not open. -/
def lowestFree (s : Script) : Nat :=
  let candidates := List.range' 3 (s.sockets.length + 1)
  (candidates.find? fun (n : Nat) => (s.socket? n).isNone).getD 3

def clock (s : Script) (t : Thread) : Duration :=
  (at? t s.clocks).getD 0

/-- Lets time pass on the clock of a thread. -/
def elapse (s : Script) (t : Thread) (d : Duration) : Script :=
  { s with clocks := filed t (s.clock t + d) s.clocks }

/-- Writes the waits of a thread down, in place of those there were. -/
def withWaits (s : Script) (t : Thread) (waits : List Waking) : Script :=
  { s with waits := filed t waits s.waits }

/-- Lets more connections arrive at an open socket. -/
def withArrivals (s : Script) (fd : Descriptor) (more : List Arriving) : Script :=
  match s.socket? fd with
  | some o => s.withSocket { o with queue := o.queue ++ more }
  | none => s

/-- Writes more down for the far end of an open socket. -/
def withTraffic (s : Script) (fd : Descriptor) (more : FarEnd) : Script :=
  match s.socket? fd with
  | some o => s.withSocket { o with farEnd := o.farEnd.append more }
  | none => s

def withMishaps (s : Script) (more : List Mishap) : Script :=
  { s with mishaps := s.mishaps ++ more }

end Script

end SpanEcho

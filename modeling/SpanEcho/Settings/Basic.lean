import SpanEcho.Failure
import SpanEcho.Text.Blank
import SpanEcho.Text.Lapse

/-!
# Settings of the server

The settings with their defaults, and the conditions under which a server starts with them.
-/

namespace SpanEcho

/-- Which of the kernel's ways to wait for readiness a server uses. -/
inductive WaitMethod where
  | select
  | poll
deriving DecidableEq, Repr, Inhabited

namespace WaitMethod

def name : WaitMethod → String
  | select => "Select"
  | poll => "Poll"

/-- Reads a method by name, in any letter case and with white space around it. -/
def parse? (s : String) : Option WaitMethod :=
  match Text.lower (Text.trim s) with
  | "select" => some select
  | "poll" => some poll
  | _ => none

end WaitMethod

structure Settings where
  /-- The TCP port; 0 lets the kernel choose. -/
  port : Nat := 9090
  /-- How many connections one reactor holds. -/
  maxConnections : Nat := 1000
  /-- The capacity of each outbox, the greeting included. -/
  sendCapacity : Nat := 1024
  /-- The most bytes of a single receive. -/
  receiveChunk : Nat := 1024
  /-- How many connections may queue to be accepted. -/
  backlog : Int := 64
  method : WaitMethod := .poll
  /-- The longest wait; without one a wait lasts until something is ready. -/
  waitLimit : Option Duration := none
  /-- The number of reactors that share the port. -/
  workers : Nat := 1
  /-- How often the counters are logged; without one, only at the end. -/
  statsInterval : Option Duration := none
deriving DecidableEq, Repr, Inhabited

namespace Settings

/-- The most reactors a server may have. -/
def maxWorkers : Nat := 256

/-- What is wrong with settings. -/
inductive Fault where
  | noConnections
  | noSendCapacity
  | noReceiveChunk
  | chunkBeyondCapacity
  | noBacklog
  | noWorkers
  | tooManyWorkers
deriving DecidableEq, Repr

def Fault.message : Fault → String
  | noConnections => "max_connections must be > 0"
  | noSendCapacity => "send_buffer_capacity must be > 0"
  | noReceiveChunk => "recv_chunk must be > 0"
  | chunkBeyondCapacity => "recv_chunk must be <= send_buffer_capacity"
  | noBacklog => "backlog must be > 0"
  | noWorkers => "workers must be > 0"
  | tooManyWorkers => s!"workers must be <= {maxWorkers}"

/-- The first fault, if there is any. -/
def fault? (s : Settings) : Option Fault :=
  if s.maxConnections = 0 then some .noConnections
  else if s.sendCapacity = 0 then some .noSendCapacity
  else if s.receiveChunk = 0 then some .noReceiveChunk
  else if s.sendCapacity < s.receiveChunk then some .chunkBeyondCapacity
  else if s.backlog ≤ 0 then some .noBacklog
  else if s.workers = 0 then some .noWorkers
  else if maxWorkers < s.workers then some .tooManyWorkers
  else none

/-- The failure that faulty settings lead to. -/
def failure? (s : Settings) : Option Failure :=
  s.fault?.map fun fault => .settings fault.message

/-- The settings as they are listed, one to a line under a heading. -/
def listing (s : Settings) : List String :=
  ["sloop configuration:",
    "  port:                 " ++ toString s.port,
    "  max_connections:      " ++ toString s.maxConnections,
    "  send_buffer_capacity: " ++ toString s.sendCapacity,
    "  recv_chunk:           " ++ toString s.receiveChunk,
    "  backlog:              " ++ toString s.backlog,
    "  poller:               " ++ s.method.name,
    "  poll_timeout:         " ++ Duration.optionText s.waitLimit,
    "  workers:              " ++ toString s.workers,
    "  stats_interval:       " ++ Duration.optionText s.statsInterval]

end Settings

end SpanEcho

import SpanEcho.Kernel.World
import SpanEcho.Settings.Basic

/-!
# Waiting for readiness

A multiplexor waits until one of the registered descriptors is ready in a direction it is watched
for, and lists the ready ones in the order of registration. Two of them are calls of the kernel.
`select` works on sets of a fixed size and knows no descriptor at or above its limit; `poll` has no
limit, and reports a failed descriptor in every direction it is watched for. The third stands for
any other way to wait: what it lists is taken as it is.

An interrupted wait and one that ran out of time list nothing.
-/

namespace SpanEcho

inductive Multiplexor where
  | select
  | poll
  | external (name : String) (limit : Option Nat)
deriving DecidableEq, Repr, Inhabited

def WaitMethod.multiplexor : WaitMethod → Multiplexor
  | .select => .select
  | .poll => .poll

/-- The number of descriptors in a set for `select`. -/
def Selected.setSize : Nat := 1024

namespace TimeLimit

/-- A length of time for `select`. The seconds are a signed word of 64 bits. -/
def ofDuration (d : Duration) : TimeLimit :=
  { seconds := (d.seconds : Int).bmod 0x10000000000000000, micros := d.subNanos / 1000 }

end TimeLimit

/-- A length of time for `poll`: what is below a millisecond, but not zero, becomes one, so that
the wait is not a mere look. -/
def Polled.millis (limit : Option Duration) : Int :=
  match limit with
  | none => -1
  | some 0 => 0
  | some d => (max 1 (min d.millis 0x7fffffff) : Nat)

/-- The directions in which an entry watched for `i` is ready under a condition. -/
def Condition.readiness (fd : Descriptor) (i : Interest) (c : Condition) : Readiness :=
  let broken := c.hangUp || c.error || c.invalid
  { fd
    readable := i.readable && (c.readable || broken)
    writable := i.writable && (c.writable || broken) }

/-- What a wait with `poll` lists. -/
def Polled.ready (entries : List Registration) (p : Polled) : List Readiness :=
  if p.returned = 0 then []
  else (entries.zipWith (fun e c => c.readiness e.fd e.interest) p.conditions).filter (·.any)

/-- The directions in which a registration is ready by the sets that `select` returned. -/
def Selected.readiness (s : Selected) (e : Registration) : Readiness :=
  { fd := e.fd
    readable := e.interest.readable && s.readable.contains e.fd
    writable := e.interest.writable && s.writable.contains e.fd }

/-- Goes through the registrations until `left` members of the sets are accounted for. -/
def Selected.scan (s : Selected) (left : Int) : List Registration → List Readiness
  | [] => []
  | e :: rest =>
    if left ≤ 0 then []
    else
      let r := s.readiness e
      let more := s.scan (left - (r.readable.toNat + r.writable.toNat)) rest
      if r.any then r :: more else more

/-- What a wait with `select` lists. -/
def Selected.ready (entries : List Registration) (s : Selected) : List Readiness :=
  s.scan s.returned entries

namespace Multiplexor

def name : Multiplexor → String
  | select => "select"
  | poll => "poll"
  | external name _ => name

/-- The limit below which descriptors must lie. -/
def limit : Multiplexor → Option Nat
  | select => some Selected.setSize
  | poll => none
  | external _ limit => limit

/-- Why a descriptor cannot be watched. -/
def refusal? (m : Multiplexor) (fd : Descriptor) : Option Failure :=
  match m.limit with
  | none => none
  | some limit => if fd < 0 ∨ limit ≤ fd then some (.descriptorBeyondLimit fd limit) else none

variable {κ : Type} [Kernel κ]

def check (m : Multiplexor) (fd : Descriptor) : Sys κ Unit :=
  Action.failIf (m.refusal? fd)

/-- The descriptors watched in one direction. -/
def watched (direction : Interest → Bool) (entries : List Registration) : List Descriptor :=
  (entries.filter fun e => direction e.interest).map (·.fd)

/-- What a failed wait lists: nothing, if it was only interrupted. -/
def interruptedOr (operation : String) (errno : Errno) : Sys κ (List Readiness) :=
  if errno = .interrupted then pure []
  else Action.fail (.system operation errno.recognized)

/-- Waits for at most `limit`, and answers what is ready. No entry is above `highest`. The list of
what is ready is emptied first, before anything can fail, and what it holds in the end is the list
that is answered. So what was ready before is forgotten, and no list is handed in to be filled. -/
def wait (m : Multiplexor) (entries : List Registration) (highest : Descriptor)
    (limit : Option Duration) : Sys κ (List Readiness) := do
  match m with
  | select =>
    match entries.findSome? fun e => select.refusal? e.fd with
    | some e => Action.fail e
    | none =>
      let reply ← Sys.call (.select (highest + 1) (watched (·.readable) entries)
        (watched (·.writable) entries) (limit.map .ofDuration))
      if reply.returned < 0 then
        interruptedOr "select" reply.errno
      else pure (reply.ready entries)
  | poll =>
    let reply ← Sys.call (.poll entries (Polled.millis limit))
    if reply.returned < 0 then
      interruptedOr "poll" reply.errno
    else pure (reply.ready entries)
  | external name _ =>
    match ← Sys.call (.watch entries highest limit) with
    | .ok ready => pure ready
    | .failed errno => Action.fail (.system name errno)
    | .notOpen => Action.fail (.system name .badDescriptor)

end Multiplexor

/-- What is ready after a wait: nothing if it failed. -/
def Readiness.afterWait : Outcome (List Readiness) → List Readiness
  | .ok ready => ready
  | _ => []

end SpanEcho

import SpanEcho.Script.Basic
import SpanEcho.Signals

/-!
# A kernel that follows a script

The answer to each call. When the waits of a thread have run out, one more wait comes back with
nothing ready, and with it a request to stop and a termination signal.
-/

namespace SpanEcho.Script

/-- Looks the first mishap for a call up: whether the call fails, and what is left of the
mishaps. -/
def takeMishap (operation : String) (fd : Option Int) :
    List Mishap → Option Errno × List Mishap
  | [] => (none, [])
  | m :: rest =>
    if m.operation = operation ∧ (m.fd = none ∨ m.fd = fd) then
      if 0 < m.skip then (none, { m with skip := m.skip - 1 } :: rest)
      else (some m.errno, rest)
    else
      let (errno, rest) := takeMishap operation fd rest
      (errno, m :: rest)

/-- Makes a call that fails only by mishap. -/
def unlessMishap {α : Type} (s : Script) (operation : String) (fd : Option Int)
    (act : Script → Answer α × Script) : Answer α × Script :=
  let (errno, mishaps) := takeMishap operation fd s.mishaps
  let s := { s with mishaps }
  match errno with
  | some errno => (.failed errno, s)
  | none => act s

/-- Makes a call on an open socket that fails only by mishap. -/
def onSocket {α : Type} (s : Script) (call : Call) (fd : Descriptor)
    (act : OpenSocket → α × OpenSocket) : Answer α × Script :=
  match s.socket? fd with
  | none => (.notOpen, s)
  | some o =>
    s.unlessMishap call.operation (some fd) fun s =>
      let (value, o) := act o
      (.ok value, s.withSocket o)

/-- Opens a socket under a number. What comes of accepting is written down by number, and goes to
the first socket that gets it, whether it listens or not. -/
def installed (s : Script) (o : OpenSocket) : Script :=
  let queue := (at? o.number s.queues).getD []
  { s with queues := s.queues.filter fun q => q.1 != o.number }.withSocket { o with queue }

def openSocket (s : Script) : Answer Nat × Script :=
  s.unlessMishap "socket" none fun s =>
    let (number, socketNumbers) := match s.socketNumbers with
      | [] => (s.lowestFree, [])
      | n :: rest => (n, rest)
    (.ok number, { s with socketNumbers }.installed { number })

def accept (s : Script) (fd : Descriptor) : Answer (Nat × SocketName) × Script :=
  match s.socket? fd with
  | none => (.notOpen, s)
  | some o =>
    match o.queue with
    | [] => (.failed .again, s)
    | .failed errno :: queue => (.failed errno, s.withSocket { o with queue })
    | .connection number name nonBlocking farEnd :: queue =>
      let s := s.withSocket { o with queue }
      let number := number.getD s.lowestFree
      let statusFlags := if nonBlocking then 2 ||| Descriptor.nonBlocking else 2
      (.ok (number, name), s.installed { number, statusFlags, farEnd })

def receive (s : Script) (fd : Descriptor) (room : Nat) : Answer Bytes × Script :=
  match s.socket? fd with
  | none => (.notOpen, s)
  | some o =>
    let (giving, farEnd) := o.farEnd.receive room
    let s := s.withSocket { o with farEnd }
    match giving with
    | .bytes data => (.ok data, s)
    | .failed errno => (.failed errno, s)
    | .blocked => (.failed .again, s)
    | .claimed count => (.ok (List.replicate count 0), s)

def send (s : Script) (fd : Descriptor) (bytes : Bytes) : Answer Nat × Script :=
  match s.socket? fd with
  | none => (.notOpen, s)
  | some o =>
    let (taking, farEnd) := o.farEnd.send bytes.length
    let s := s.withSocket { o with farEnd }
    match taking with
    | .atMost count => (.ok count, s)
    | .failed errno => (.failed errno, s)
    | .blocked => (.failed .again, s)

def close (s : Script) (fd : Descriptor) : Answer Unit × Script :=
  match s.socket? fd with
  | none => (.notOpen, s)
  | some _ => (.ok (), s.without fd)

/-- The next wait of a thread. -/
def takeWaking (s : Script) (t : Thread) : Waking × Script :=
  match (at? t s.waits).getD [] with
  | [] => ({ arrivals := [.stop, .signal Signals.terminate] }, s)
  | w :: rest => (w, { s with waits := filed t rest s.waits }.elapse t w.lasting)

/-- The condition a waking gives a descriptor: all that is listed for it taken together. -/
def Waking.conditionOf (w : Waking) (fd : Descriptor) : Condition :=
  ((w.ready.filter fun r => r.1 = fd).map (·.2)).foldl Condition.join {}

/-- The count that a wait returns, and the error number that goes with a negative one. A wait that
fails returns minus its error number, or `-1` if that would not be negative. -/
def Waking.returns (w : Waking) (count : Nat) : Int × Errno :=
  match w.errno with
  | some errno => (if 0 < errno then -errno else -1, errno)
  | none =>
    match w.returned with
    | some n => (n, .badDescriptor)
    | none => (count, 0)

def Waking.polled (w : Waking) (entries : List Registration) : Polled :=
  let conditions := entries.map fun e => w.conditionOf e.fd
  let (returned, errno) := w.returns (conditions.filter (·.any)).length
  { returned, errno, conditions }

def Waking.selected (w : Waking) : Selected :=
  let among (direction : Condition → Bool) : List Descriptor :=
    ((w.ready.filter fun r => direction r.2).map (·.1)).filter (fun fd => 0 ≤ fd && fd < 1024)
      |>.eraseDups
  let readable := among (·.readable)
  let writable := among (·.writable)
  let (returned, errno) := w.returns (readable.length + writable.length)
  { returned, errno, readable, writable }

def Waking.watched (w : Waking) : Answer (List Readiness) :=
  match w.errno with
  | some errno => .failed errno
  | none => .ok (w.ready.map fun (fd, c) => { fd, readable := c.readable, writable := c.writable })

def respond (t : Thread) (call : Call) (s : Script) : Response Script call :=
  match call with
  | .socket => let (r, s) := s.openSocket; { reply := r, next := s }
  | .descriptorFlags fd =>
    let (r, s) := s.onSocket (.descriptorFlags fd) fd fun o => (o.descriptorFlags, o)
    { reply := r, next := s }
  | .setDescriptorFlags fd flags =>
    let (r, s) := s.onSocket (.setDescriptorFlags fd flags) fd fun o =>
      ((), { o with descriptorFlags := flags })
    { reply := r, next := s }
  | .statusFlags fd =>
    let (r, s) := s.onSocket (.statusFlags fd) fd fun o => (o.statusFlags, o)
    { reply := r, next := s }
  | .setStatusFlags fd flags =>
    let (r, s) := s.onSocket (.setStatusFlags fd flags) fd fun o =>
      ((), { o with statusFlags := flags })
    { reply := r, next := s }
  | .setOption fd option value =>
    let (r, s) := s.onSocket (.setOption fd option value) fd fun o => ((), o)
    { reply := r, next := s }
  | .bind fd address =>
    let port := if address.port = 0 then s.ephemeralPort else address.port
    let (r, s) := s.onSocket (.bind fd address) fd fun o =>
      ((), { o with address := { address with port } })
    { reply := r, next := s }
  | .listen fd backlog =>
    let (r, s) := s.onSocket (.listen fd backlog) fd fun o => ((), o)
    { reply := r, next := s }
  | .localName fd =>
    let family := s.family
    let (r, s) := s.onSocket (.localName fd) fd fun o =>
      ({ family, length := 16, address := o.address }, o)
    { reply := r, next := s }
  | .accept fd => let (r, s) := s.accept fd; { reply := r, next := s }
  | .receive fd room => let (r, s) := s.receive fd room; { reply := r, next := s }
  | .send fd bytes _ => let (r, s) := s.send fd bytes; { reply := r, next := s }
  | .close fd => let (r, s) := s.close fd; { reply := r, next := s }
  | .poll entries _ =>
    let (w, s) := s.takeWaking t
    { reply := w.polled entries, arrivals := w.arrivals, next := s }
  | .select _ _ _ _ =>
    let (w, s) := s.takeWaking t
    { reply := w.selected, arrivals := w.arrivals, next := s }
  | .watch _ _ _ =>
    let (w, s) := s.takeWaking t
    { reply := w.watched, arrivals := w.arrivals, next := s }
  | .setDisposition signal _ _ =>
    let (r, s) := s.unlessMishap "sigaction" (some signal) fun s => (.ok (), s)
    { reply := r, next := s }
  | .spawn _ =>
    let (r, s) := s.unlessMishap "pthread_create" none fun s => (.ok (), s)
    { reply := r, next := s }
  | .clock => { reply := s.clock t, next := s }

instance : Kernel Script where
  respond := respond

end SpanEcho.Script

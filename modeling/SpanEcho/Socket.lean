import SpanEcho.Kernel.World
import SpanEcho.Session

/-!
# Sockets

Listening sockets, accepted connections and the bytes that pass over them. Whoever opens a
descriptor closes it again when what was to follow fails. Every socket is closed on execution of
another program, and reactors make theirs non-blocking.
-/

namespace SpanEcho.Socket

variable {κ α : Type} [Kernel κ]

/-- The flag that keeps a send to a closed peer from raising a signal. -/
def noSignal : Nat := 16384

def close (fd : Descriptor) : Sys κ Unit := do
  let _ ← Sys.call (.close fd)

/-- Closes descriptors one after the other. -/
def closeAll : List Descriptor → Sys κ Unit
  | [] => pure ()
  | fd :: rest => do
    close fd
    closeAll rest

/-- Runs `m` and closes `fds` if it ends without a value. -/
def closingOnFailure (fds : List Descriptor) (m : Sys κ α) : Sys κ α := do
  match ← Action.observe m with
  | .ok a => pure a
  | bad =>
    closeAll fds
    Action.ofOutcome bad

def setCloseOnExec (fd : Descriptor) : Sys κ Unit := do
  let flags ← Sys.ask (.descriptorFlags fd) id
  let flags := flags ||| Descriptor.closeOnExec
  Sys.ask (.setDescriptorFlags fd flags) id

/-- Makes `fd` non-blocking, which takes no second call if it is so already. -/
def setNonBlocking (fd : Descriptor) : Sys κ Unit := do
  let flags ← Sys.ask (.statusFlags fd) id
  if flags &&& Descriptor.nonBlocking ≠ 0 then pure ()
  else
    let flags := flags ||| Descriptor.nonBlocking
    Sys.ask (.setStatusFlags fd flags) id

def setOption (fd : Descriptor) (option : SocketOption) : Sys κ Unit :=
  Sys.ask (.setOption fd option 1) id

/-- A socket that listens on all version 4 interfaces. With `reusePort` several of them can listen
on one port. -/
def listenOn (port : Nat) (backlog : Int) (reusePort : Bool) : Sys κ Descriptor := do
  let number ← Sys.ask .socket id
  let fd : Descriptor := number
  closingOnFailure [fd] do
    setCloseOnExec fd
    setOption fd .reuseAddress
    Action.when reusePort (setOption fd .reusePort)
    Sys.ask (.bind fd ⟨.unspecified, port⟩) id
    Sys.ask (.listen fd backlog) id
    pure fd

/-- Accepts one connection. The peer's address is missing if it is not of version 4 or the report
of it was cut short. -/
def accept (listener : Descriptor) : Sys κ (Descriptor × Option Endpoint) := do
  let (number, name) ← Sys.ask (.accept listener) id
  let fd : Descriptor := number
  closingOnFailure [fd] do
    setCloseOnExec fd
    pure (fd, if SocketName.lengthV4 ≤ name.length then name.endpoint? else none)

def localAddress (fd : Descriptor) : Sys κ Endpoint := do
  let name ← Sys.ask (.localName fd) id
  match name.endpoint? with
  | some address => pure address
  | none => Action.fail (.invalidDescriptor fd)

def receive (fd : Descriptor) (room : Nat) : Sys κ Bytes :=
  Sys.ask (.receive fd room) id

/-- Receives into a buffer of `room` bytes. -/
def fill (fd : Descriptor) (room : Nat) : Sys κ Bytes := do
  let bytes ← receive fd room
  if room < bytes.length then Action.stop (.receiveOverrun bytes.length room) else pure bytes

def send (fd : Descriptor) (bytes : Bytes) : Sys κ Nat :=
  Sys.ask (.send fd bytes noSignal) id

def reportPeer (peer : Option Endpoint) : Sys κ Unit :=
  match peer with
  | some address =>
    Sys.log .info s!"peer ({address.ip.text}, {address.port}) connected"
  | none => Sys.log .info "peer (unknown) connected"

end SpanEcho.Socket

namespace SpanEcho

/-- The far end of an accepted socket. -/
structure SocketPeer (κ : Type) where
  fd : Descriptor
  world : World κ

def Inflow.ofResult : Except Failure Bytes → Inflow
  | .ok received => .bytes received
  | .error .wouldBlock => .blocked
  | .error e => .failed e

def Outflow.ofResult : Except Failure Nat → Outflow
  | .ok count => .taken count
  | .error .wouldBlock => .blocked
  | .error e => .failed e

/-- Sockets are peers: what can be tried again later has blocked. -/
instance {κ : Type} [Kernel κ] : Peer (SocketPeer κ) where
  receive room p :=
    let c := Call.receive p.fd room
    let (answer, world) := p.world.call c
    (.ofResult (Answer.result c.operation answer), { p with world })
  send bytes p :=
    let c := Call.send p.fd bytes Socket.noSignal
    let (answer, world) := p.world.call c
    (.ofResult (Answer.result c.operation answer), { p with world })

end SpanEcho

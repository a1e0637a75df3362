import SpanEcho.Session

/-!
# The far end of a connection

A client whose behaviour is written down beforehand: the bytes it gives, how many it takes, and
when it fails or blocks. A taped one also keeps what passed over the connection.
-/

namespace SpanEcho.Script

/-- What a peer does when it is asked for bytes. -/
inductive Giving where
  | bytes (data : Bytes)
  | failed (errno : Errno)
  | blocked
  /-- Claims to have given so many bytes, however many were asked for. -/
  | claimed (count : Nat)
deriving DecidableEq, Repr

/-- What a peer does when it is offered bytes. -/
inductive Taking where
  | atMost (count : Nat)
  | failed (errno : Errno)
  | blocked
deriving DecidableEq, Repr

/-- What the far end of a connection will do, in order. With nothing left to give it blocks, and
with nothing left to say about taking it takes everything. -/
structure FarEnd where
  giving : List Giving := []
  taking : List Taking := []
deriving DecidableEq, Repr, Inhabited

namespace FarEnd

/-- Asks for at most `room` bytes. Bytes that do not fit are given the next time. -/
def receive (room : Nat) (e : FarEnd) : Giving × FarEnd :=
  match e.giving with
  | [] => (.blocked, e)
  | .bytes data :: rest =>
    let left := data.drop room
    (.bytes (data.take room),
      { e with giving := if left.isEmpty then rest else .bytes left :: rest })
  | g :: rest => (g, { e with giving := rest })

/-- Offers `offered` bytes. -/
def send (offered : Nat) (e : FarEnd) : Taking × FarEnd :=
  match e.taking with
  | [] => (.atMost offered, e)
  | .atMost count :: rest => (.atMost (min count offered), { e with taking := rest })
  | t :: rest => (t, { e with taking := rest })

/-- What `e` does, and then what `more` does. -/
def append (e more : FarEnd) : FarEnd :=
  { giving := e.giving ++ more.giving, taking := e.taking ++ more.taking }

end FarEnd

/-- A far end, and what was asked of it. -/
structure Taped where
  farEnd : FarEnd := {}
  /-- The sizes of the receives. -/
  asked : List Nat := []
  /-- The sizes of the sends. -/
  offered : List Nat := []
  /-- The bytes taken. -/
  delivered : Bytes := []
deriving DecidableEq, Repr, Inhabited

instance : Peer Taped where
  receive room t :=
    let (giving, farEnd) := t.farEnd.receive room
    let t := { t with farEnd, asked := t.asked ++ [room] }
    match giving with
    | .bytes data => (.bytes data, t)
    | .failed errno => (.failed (.system "recv" errno), t)
    | .blocked => (.blocked, t)
    | .claimed count => (.bytes (List.replicate count 0), t)
  send bytes t :=
    let (taking, farEnd) := t.farEnd.send bytes.length
    let t := { t with farEnd, offered := t.offered ++ [bytes.length] }
    match taking with
    | .atMost count => (.taken count, { t with delivered := t.delivered ++ bytes.take count })
    | .failed errno => (.failed (.system "send" errno), t)
    | .blocked => (.blocked, t)

end SpanEcho.Script

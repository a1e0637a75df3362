import SpanEcho.Address
import SpanEcho.Client.Arguments
import SpanEcho.Client.Reader
import SpanEcho.Kernel.Call
import SpanEcho.Script.FarEnd
import SpanEcho.Socket

/-!
# A visit of the client

A visit is one connection of the client: it connects, waits for the greeting, starts a reader, and
sends three messages with a pause after each. It ends early if the connection, the greeting or a
message fails; the reader goes on to its own end all the same. What the server does in a visit is
written down beforehand.
-/

namespace SpanEcho.Client

/-- What a visit meets at the other end. Where what is given ends, so does the stream. -/
structure Host where
  /-- How the first attempt to connect fails. -/
  refusal : Option Errno := none
  farEnd : Script.FarEnd := {}
deriving DecidableEq, Repr, Inhabited

/-- What a thread of the client does that can be seen from outside. -/
inductive Deed where
  | connect (address : String) (answer : Answer Unit)
  | send (fd : Nat) (bytes : Bytes) (flags : Nat) (answer : Answer Nat)
  | sleep (millis : Nat)
deriving DecidableEq, Repr

/-- What a thread of the client has done and said. -/
structure Diary where
  thread : String
  deeds : List Deed := []
  lines : List Log.Line := []
deriving DecidableEq, Repr

/-- How long the thread has slept, in milliseconds. -/
def Diary.slept (d : Diary) : Nat :=
  d.deeds.foldl (fun total => fun
    | .sleep millis => total + millis
    | _ => total) 0

/-- Why a visit ended early. -/
inductive Trouble where
  | unknownHost
  | system (errno : Errno)
  /-- The stream ended before the greeting. -/
  | nothingGiven
  /-- The server took no byte of those offered. -/
  | nothingTaken
deriving DecidableEq, Repr

def Trouble.message : Trouble → String
  | unknownHost => "failed to lookup address information"
  | system errno => errnoText errno
  | nothingGiven => "failed to fill whole buffer"
  | nothingTaken => "failed to write whole buffer"

/-- The address of a host given by number, with a port. -/
def address? (host : String) (port : Nat) : Option String :=
  match IPv4.parse? host, IPv6.parse? host with
  | some ip, _ => some (ip.text ++ ":" ++ toString port)
  | none, some ip => some ("[" ++ ip.text ++ "]:" ++ toString port)
  | none, none => none

/-- The messages, with the pause after each in milliseconds. -/
def messages : List (String × Nat) :=
  [("^abc$de^abte$f", 1000), ("xyz^123", 1000), ("25$^ab0000$abab", 200)]

/-- The most bytes of a single read. -/
def readSize : Nat := 8192

/-- Connects: what is done for it, and why it comes to nothing. An interrupted attempt is repeated,
and a socket that is connected already is taken as it is. -/
def connect (address : String) : Option Errno → List Deed × Except Trouble Unit
  | none => ([.connect address (.ok ())], .ok ())
  | some errno =>
    let deed := Deed.connect address (.failed errno)
    if errno = .interrupted then ([deed, .connect address (.ok ())], .ok ())
    else if errno = .isConnected then ([deed], .ok ())
    else ([deed], .error (.system errno))

/-- The first byte that is given, and what is given after it. An interrupted read is repeated. -/
def greet : List Script.Giving → Except Trouble (UInt8 × List Script.Giving)
  | [] => .error .nothingGiven
  | .bytes [] :: _ => .error .nothingGiven
  | .bytes [b] :: rest => .ok (b, rest)
  | .bytes (b :: bs) :: rest => .ok (b, .bytes bs :: rest)
  | .failed errno :: rest => if errno = .interrupted then greet rest else .error (.system errno)
  | .blocked :: _ => .error (.system .again)
  | .claimed 0 :: _ => .error .nothingGiven
  | .claimed _ :: rest => .ok (0, rest)

/-- Cuts bytes into chunks of `readSize`, the last of which may be shorter. -/
def chunks (bytes : Bytes) : List Bytes :=
  if bytes.length ≤ readSize then [bytes]
  else bytes.take readSize :: chunks (bytes.drop readSize)
termination_by bytes.length
decreasing_by simp only [List.length_drop, readSize] at *; omega

/-- The reads that get at what is given. -/
def readings : Script.Giving → List Reading
  | .bytes data => (chunks data).map .ofBytes
  | .failed errno => [.failed errno]
  | .blocked => [.failed .again]
  | .claimed count => [.ofBytes (List.replicate count 0)]

/-- Sends all of `bytes`, in as many sends as it takes. An interrupted send is repeated. -/
def sendAll (fd : Nat) (bytes : Bytes) :
    List Script.Taking → List Deed × Except Trouble (List Script.Taking)
  | [] => ([.send fd bytes Socket.noSignal (.ok bytes.length)], .ok [])
  | .atMost count :: rest =>
    let taken := min count bytes.length
    let deed := Deed.send fd bytes Socket.noSignal (.ok taken)
    if taken = bytes.length then ([deed], .ok rest)
    else if taken = 0 then ([deed], .error .nothingTaken)
    else
      let (deeds, result) := sendAll fd (bytes.drop taken) rest
      (deed :: deeds, result)
  | .failed errno :: rest =>
    let deed := Deed.send fd bytes Socket.noSignal (.failed errno)
    if errno = .interrupted then
      let (deeds, result) := sendAll fd bytes rest
      (deed :: deeds, result)
    else ([deed], .error (.system errno))
  | .blocked :: _ =>
    ([.send fd bytes Socket.noSignal (.failed .again)], .error (.system .again))

def info (text : String) : Log.Line := ⟨some .info, text⟩

def error (text : String) : Log.Line := ⟨some .error, text⟩

/-- Sends the messages one after the other: what is done and said, and why it ended early. -/
def sendMessages (name : String) (fd : Nat) (taking : List Script.Taking) :
    List (String × Nat) → List Deed × List Log.Line × Option Trouble
  | [] => ([], [info (name ++ " disconnecting")], none)
  | (text, pause) :: rest =>
    let announcement := info (name ++ " sending " ++ Text.quoted text)
    let (deeds, result) := sendAll fd text.toUTF8.toList taking
    match result with
    | .error trouble => (deeds, [announcement], some trouble)
    | .ok taking =>
      let (more, lines, trouble) := sendMessages name fd taking rest
      (deeds ++ .sleep pause :: more, announcement :: lines, trouble)

/-- What is said when a visit ends early. -/
def complaint (name : String) (trouble : Trouble) : Log.Line :=
  error (name ++ " failed: " ++ trouble.message)

/-- One visit: the diary of its thread, and that of its reader if it comes to one. -/
def visit (name : String) (fd : Nat) (request : Request) (host : Host) : List Diary :=
  let early (deeds : List Deed) (trouble : Trouble) : List Diary :=
    [{ thread := name, deeds, lines := [complaint name trouble] }]
  match address? request.host request.port with
  | none => early [] .unknownHost
  | some address =>
    let (attempts, connected) := connect address host.refusal
    match connected with
    | .error trouble => early attempts trouble
    | .ok () =>
      match greet host.farEnd.giving with
      | .error trouble => early attempts trouble
      | .ok (b, given) =>
        let surprise :=
          if b = Span.greeting then [] else [error (name ++ " did not receive the * greeting")]
        let (deeds, lines, trouble) := sendMessages name fd host.farEnd.taking messages
        let reads := readsMade [] (given.flatMap readings)
        [{ thread := name
           deeds := attempts ++ deeds
           lines := surprise ++ info (name ++ " connected...") :: lines ++
             trouble.toList.map (complaint name) },
          { thread := name ++ "-reader", lines := reads.map (Reading.line name) }]

end SpanEcho.Client

import SpanEcho.Action
import SpanEcho.Kernel.Call
import SpanEcho.Log

/-!
# The world of a server

A server runs in a world: the kernel below it, the calls made so far, the log, and the two flags
that ask it to stop. One of the flags belongs to whoever started the server, the other is set by
the signal handler and is never cleared. Actions on a world are of type `Sys`.
-/

namespace SpanEcho

/-- What a reply to the call `operation` means. A call that was interrupted or would have to wait
can be tried again later. An error number without a meaning is not passed on. -/
def Answer.result {α : Type} (operation : String) : Answer α → Except Failure α
  | .ok value => .ok value
  | .notOpen => .error (.system operation .badDescriptor)
  | .failed errno =>
    if errno = .again ∨ errno = .interrupted then .error .wouldBlock
    else .error (.system operation errno.recognized)

/-- A line that a thread has written. -/
structure Remark where
  thread : Thread
  line : Log.Line
deriving DecidableEq, Repr

structure World (κ : Type) where
  kernel : κ
  /-- The thread whose turn it is. -/
  thread : Thread := .main
  /-- The calls made, the latest first. -/
  past : List Event := []
  level : Log.Level := .info
  /-- The lines written, the latest first. -/
  remarks : List Remark := []
  /-- The signals whose disposition was set, the latest first. -/
  dispositions : List (Nat × Disposition) := []
  /-- Somebody asked the server to stop. -/
  stopAsked : Bool := false
  /-- A signal asked the process to stop. -/
  signalled : Bool := false

namespace World

variable {κ : Type}

/-- The calls made, in order. -/
def trace (w : World κ) : List Event :=
  w.past.reverse

def disposition (w : World κ) (signal : Nat) : Disposition :=
  (w.dispositions.lookup signal).getD .default

/-- Takes notice of something from outside. A signal counts only if its handler is installed. -/
def notice (w : World κ) : Arrival → World κ
  | .stop => { w with stopAsked := true }
  | .signal number =>
    if w.disposition number = .handler then { w with signalled := true } else w

def stopping (w : World κ) : Bool :=
  w.stopAsked || w.signalled

/-- Makes a call. What arrived meanwhile takes effect at once. -/
def call [Kernel κ] (c : Call) (w : World κ) : c.Reply × World κ :=
  let r := Kernel.respond w.thread c w.kernel
  let w := { w with kernel := r.next, past := ⟨w.thread, c, r.reply, r.arrivals⟩ :: w.past }
  (r.reply, r.arrivals.foldl notice w)

/-- Writes a line if the level set for the process lets it through. -/
def write (line : Log.Line) (w : World κ) : World κ :=
  if line.shownAt w.level then { w with remarks := ⟨w.thread, line⟩ :: w.remarks } else w

/-- The calls of one thread, in order. -/
def traceOf (t : Thread) (w : World κ) : List Event :=
  w.trace.filter (·.thread = t)

/-- The lines of one thread, in order. -/
def linesOf (t : Thread) (w : World κ) : List Log.Line :=
  (w.remarks.reverse.filter (·.thread = t)).map (·.line)

end World

/-- Actions of a server on its world. -/
abbrev Sys (κ : Type) := Action (World κ)

namespace Sys

variable {κ α : Type}

def call [Kernel κ] (c : Call) : Sys κ c.Reply := fun w =>
  let (reply, w) := w.call c
  (.ok reply, w)

/-- The time now. -/
def now [Kernel κ] : Sys κ Duration :=
  call .clock

/-- The value of a reply, or the failure. -/
def demand (operation : String) (answer : Answer α) : Sys κ α :=
  match answer.result operation with
  | .ok value => pure value
  | .error e => Action.fail e

/-- Makes a call that can fail and takes the value of its reply; `read` says what that reply is. -/
def ask [Kernel κ] (c : Call) (read : c.Reply → Answer α) : Sys κ α := do
  let reply ← call c
  demand c.operation (read reply)

def log (level : Log.Level) (text : String) : Sys κ Unit :=
  Action.change (World.write ⟨some level, text⟩)

def logAll (level : Log.Level) : List String → Sys κ Unit
  | [] => pure ()
  | text :: rest => do
    log level text
    logAll level rest

def stopping : Sys κ Bool := fun w =>
  (.ok w.stopping, w)

/-- Asks the server to stop. -/
def askStop : Sys κ Unit :=
  Action.change fun w => { w with stopAsked := true }

/-- Makes `t` the running thread. -/
def switchTo (t : Thread) : Sys κ Unit :=
  Action.change fun w => { w with thread := t }

end Sys

end SpanEcho

import SpanEcho.Client.Visit
import SpanEcho.Settings.FromEnvironment

/-!
# The client command

The client makes as many visits at the same time as it is asked to, and says how long they took.
It comes to that even if every visit fails; only a command line that it cannot read ends it at
once.
-/

namespace SpanEcho.Command.Client

open SpanEcho.Client

/-- The exit status of the client and what its threads did and said. -/
structure Report where
  exit : Nat
  diaries : List Diary
deriving DecidableEq, Repr

/-- The number under which the kernel knows the connection of a visit. -/
def descriptor (index : Nat) : Nat :=
  1000 + 10 * index

/-- A length of time in milliseconds, as seconds with three places. -/
def secondsText (millis : Nat) : String :=
  toString (millis / 1000) ++ "." ++ Text.padded 3 (millis % 1000) ++ "s"

/-- Leaves out the lines that `level` does not let through. -/
def Diary.shownAt (level : Log.Level) (d : Diary) : Diary :=
  { d with lines := d.lines.filter (Log.Line.shownAt level) }

/-- The main thread, which speaks last. -/
def mainDiary (line : Log.Line) : Diary :=
  { thread := "main", lines := [line] }

/-- Everything that the visits of a request do and say. A visit beyond the listed hosts meets one
that closes the connection at once. -/
def visits (request : Request) (hosts : List Host) : List Diary :=
  (List.range request.concurrent).flatMap fun index =>
    visit ("conn" ++ toString index) (descriptor index) request (hosts.getD index {})

/-- The visits take as long as the longest of them. -/
def elapsed (diaries : List Diary) : Nat :=
  (diaries.map (·.slept)).foldl max 0

/-- The bytes that the client keeps for each visit. -/
def handleSize : Nat := 24

/-- Runs the command under the name `program`. There can be no more visits than handles in one
block of memory. The arguments are text: a command line with one that is not stops the program
before it is read, and is not among the command lines here. -/
def run (program : String) (args : List String) (env : Environment) (hosts : List Host) :
    Except Defect Report :=
  let shown := fun d => Diary.shownAt (.fromEnvironment env) d
  match Request.parse? args with
  | none =>
    let usage := error ("usage: " ++ program ++ " <host> <port> [-n num_concurrent]")
    .ok { exit := 1, diaries := [shown (mainDiary usage)] }
  | some request =>
    match Memory.refusal? (handleSize * request.concurrent) with
    | some d => .error d
    | none =>
      let diaries := visits request hosts
      let line := info ("Elapsed: " ++ secondsText (elapsed diaries))
      .ok { exit := 0, diaries := (mainDiary line :: diaries).map shown }

end SpanEcho.Command.Client

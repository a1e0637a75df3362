import SpanEcho.Command.Client
import SpanEcho.Command.Server
import SpanEcho.Script.Bounds

/-!
# The program

The two commands on a kernel where nothing happens: no client ever connects to the server, which is
asked to stop in its first wait, and every host closes the connection to the client at once. The
arguments after the name of the command and the environment are those of the process, and the log
goes to standard error.
-/

namespace SpanEcho

/-- The variables that the commands read. -/
def variableNames : List String :=
  ["SLOOP_PORT", "SLOOP_MAX_CONNECTIONS", "SLOOP_SEND_BUFFER", "SLOOP_RECV_CHUNK",
    "SLOOP_BACKLOG", "SLOOP_POLLER", "SLOOP_POLL_TIMEOUT_MS", "SLOOP_WORKERS",
    "SLOOP_STATS_INTERVAL_S", "SLOOP_LOG_LEVEL"]

def readEnvironment : List String → IO Environment
  | [] => pure []
  | name :: rest => do
    let others ← readEnvironment rest
    match ← IO.getEnv name with
    | some value => pure ((name, .text value) :: others)
    | none => pure others

def printLines (lines : List Log.Line) : IO Unit :=
  lines.forM fun line => IO.eprintln line.render

def serverMain (args : List String) (env : Environment) : IO UInt32 := do
  let kernel : Script := {}
  let (outcome, world) :=
    Command.Server.run "sloop-server" args env kernel.passes kernel.schedule { kernel }
  printLines (world.remarks.reverse.map (·.line))
  match outcome with
  | .ok (some status) => pure (UInt32.ofNat status)
  | _ => pure 1

def clientMain (args : List String) (env : Environment) : IO UInt32 := do
  match Command.Client.run "sloop-client" args env [] with
  | .ok report =>
    printLines (report.diaries.flatMap (·.lines))
    pure (UInt32.ofNat report.exit)
  | .error _ => pure 1

end SpanEcho

open SpanEcho in
def main (args : List String) : IO UInt32 := do
  let env ← readEnvironment variableNames
  match args with
  | "server" :: rest => serverMain rest env
  | "client" :: rest => clientMain rest env
  | _ => do
    IO.eprintln "usage: span-echo server [port] | client <host> <port> [-n num_concurrent]"
    pure 1

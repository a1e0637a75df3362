import SpanEcho.Serving
import SpanEcho.Settings.FromEnvironment
import SpanEcho.Signals

/-!
# The server command

The server takes its settings from the environment and the port, if one is given, from its first
argument. It installs its signal handlers before it serves. Arguments are text; one that is not
stops the program before it reads them.
-/

namespace SpanEcho.Command.Server

variable {κ : Type} [Kernel κ]

/-- The settings for a command line, or nothing if the port is not one. -/
def settings? (env : Environment) (args : List String) : Option Settings :=
  let s := Settings.fromEnvironment env
  match args with
  | [] => some s
  | arg :: _ => (Text.unsigned? 16 arg).map fun port => { s with port }

def complain (text : String) : Sys κ (Option Nat) := do
  Sys.log .error text
  pure (some 1)

/-- Runs the command under the name `program`, with the bounds of `Serving.serve`, of which the
schedule depends on the number of workers; answers the exit status, or nothing if the server is
still running. -/
def run (program : String) (args : List String) (env : Environment) (most : Nat)
    (schedule : Nat → List Turn) : Sys κ (Option Nat) := do
  Action.change fun w => { w with level := .fromEnvironment env }
  match settings? env args with
  | none => complain s!"usage: {program} [port]"
  | some s =>
    match s.failure? with
    | some e => complain ("sloop-server: " ++ e.message)
    | none =>
      match ← Action.attempt Signals.install with
      | .error e => complain ("sloop-server: " ++ e.describe)
      | .ok () =>
        Sys.log .info s!"Serving on port {s.port}"
        Sys.logAll .info s.listing
        match ← Action.attempt (Serving.serve most (schedule s.workers) s) with
        | .error e => complain ("sloop-server: " ++ e.describe)
        | .ok none => pure none
        | .ok (some tally) =>
          Sys.log .info s!"sloop-server: done. {tally.text}"
          pure (some 0)

end SpanEcho.Command.Server

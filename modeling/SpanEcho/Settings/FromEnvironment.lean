import SpanEcho.Environment
import SpanEcho.Log
import SpanEcho.Settings.Basic

/-!
# Settings from the environment

Each setting has a variable of its own, and keeps its default when the variable does not hold a
value for it. The two lengths of time are written as whole numbers, with 0 for none.
-/

namespace SpanEcho

namespace Settings

/-- A number of units of time, where zero stands for none. -/
def timed (unit : Nat → Duration) (n : Nat) : Option Duration :=
  if 0 < n then some (unit n) else none

def fromEnvironment (env : Environment) : Settings :=
  let base : Settings := {}
  { port := env.get (Text.unsigned? 16) base.port "SLOOP_PORT"
    maxConnections := env.get (Text.unsigned? 64) base.maxConnections "SLOOP_MAX_CONNECTIONS"
    sendCapacity := env.get (Text.unsigned? 64) base.sendCapacity "SLOOP_SEND_BUFFER"
    receiveChunk := env.get (Text.unsigned? 64) base.receiveChunk "SLOOP_RECV_CHUNK"
    backlog := env.get (Text.signed? 32) base.backlog "SLOOP_BACKLOG"
    method := env.get WaitMethod.parse? base.method "SLOOP_POLLER"
    waitLimit := timed Duration.ofMillis (env.get (Text.unsigned? 64) 0 "SLOOP_POLL_TIMEOUT_MS")
    workers := env.get (Text.unsigned? 64) base.workers "SLOOP_WORKERS"
    statsInterval :=
      timed Duration.ofSeconds (env.get (Text.unsigned? 64) 0 "SLOOP_STATS_INTERVAL_S") }

end Settings

/-- The log level that the environment asks for. -/
def Log.Level.fromEnvironment (env : Environment) : Log.Level :=
  env.get Log.Level.parse? .info "SLOOP_LOG_LEVEL"

end SpanEcho

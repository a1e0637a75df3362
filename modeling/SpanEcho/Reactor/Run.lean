import SpanEcho.Reactor.Pass

/-!
# Running a reactor

A reactor makes passes until it is asked to stop or a pass fails. It looks for a request to stop
before every pass, never within one. If an interval is set, the counters are logged after a pass
when the interval has gone by since they were last logged, or since the start.
-/

namespace SpanEcho.Reactor

variable {κ : Type} [Kernel κ]

/-- Announces the reactor; answers the time from which the first interval counts. -/
def start : Loop κ Duration := do
  let r ← Loop.reactor
  let address ← Action.attempt (Loop.sys (Socket.localAddress r.listener))
  let port := match address with
    | .ok address => address.port
    | .error _ => r.settings.port
  let method := r.multiplexor.name
  let most := r.settings.maxConnections
  Loop.log .info s!"reactor: port {port} ({method} poller, {most} connections max)"
  Loop.sys Sys.now

/-- Logs the counters if the interval has gone by since `last`; answers when they were last
logged. -/
def report (last : Duration) : Loop κ Duration := do
  match (← Loop.reactor).settings.statsInterval with
  | none => pure last
  | some interval =>
    let now ← Loop.sys Sys.now
    if interval ≤ now - last then
      Loop.log .info s!"stats: {(← Loop.reactor).stats.text}"
      Loop.sys Sys.now
    else pure last

/-- Takes leave; answers the counters. -/
def finish : Loop κ Tally := do
  let stats := (← Loop.reactor).stats
  Loop.log .info s!"reactor: shutting down, {stats.text}"
  pure stats

/-- Makes passes, at most `most` of them; answers the counters once it was asked to stop. -/
def passes (last : Duration) : (most : Nat) → Loop κ (Option Tally)
  | 0 => do
    if ← Loop.sys Sys.stopping then some <$> finish else pure none
  | most + 1 => do
    if ← Loop.sys Sys.stopping then some <$> finish
    else
      let _ ← pass
      let last ← report last
      passes last most

/-- Runs for at most `most` passes; no answer if it was not asked to stop by then. -/
def run (most : Nat) : Loop κ (Option Tally) := do
  passes (← start) most

end SpanEcho.Reactor

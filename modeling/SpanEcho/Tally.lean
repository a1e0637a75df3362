/-!
# Counters

What a server has done so far. Tallies of several servers add up field by field.
-/

namespace SpanEcho

structure Tally where
  loops : Nat := 0
  accepts : Nat := 0
  receives : Nat := 0
  sends : Nat := 0
  closes : Nat := 0
  bytesIn : Nat := 0
  bytesOut : Nat := 0
  errors : Nat := 0
  acceptErrors : Nat := 0
  /-- The connections open at the moment of counting. -/
  live : Nat := 0
deriving DecidableEq, Repr, Inhabited

namespace Tally

instance : Add Tally where
  add a b :=
    { loops := a.loops + b.loops
      accepts := a.accepts + b.accepts
      receives := a.receives + b.receives
      sends := a.sends + b.sends
      closes := a.closes + b.closes
      bytesIn := a.bytesIn + b.bytesIn
      bytesOut := a.bytesOut + b.bytesOut
      errors := a.errors + b.errors
      acceptErrors := a.acceptErrors + b.acceptErrors
      live := a.live + b.live }

/-- Counts what moved over a connection: a receive if bytes came in, and a send if bytes went
out. -/
def addTraffic (received sent : Nat) (t : Tally) : Tally :=
  { t with
    receives := t.receives + if 0 < received then 1 else 0
    bytesIn := t.bytesIn + received
    sends := t.sends + if 0 < sent then 1 else 0
    bytesOut := t.bytesOut + sent }

def text (t : Tally) : String :=
  s!"conns={t.live} loops={t.loops} accepts={t.accepts} recv={t.receives} send={t.sends} " ++
    s!"close={t.closes} bytes_in={t.bytesIn} bytes_out={t.bytesOut} err={t.errors} " ++
    s!"accept_err={t.acceptErrors}"

end Tally

end SpanEcho

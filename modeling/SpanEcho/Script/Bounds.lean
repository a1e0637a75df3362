import SpanEcho.Fleet
import SpanEcho.Script.Kernel

/-!
# How long a script lasts

Bounds within which a server on a scripted kernel comes to its end.
-/

namespace SpanEcho.Script

/-- The number of waits written down for a thread. -/
def waitsOf (s : Script) (t : Thread) : Nat :=
  ((at? t s.waits).getD []).length

/-- A number of passes within which a reactor on the main thread comes to its end. -/
def passes (s : Script) : Nat :=
  s.waitsOf .main + 1

/-- A schedule under which each of `workers` reactors goes through the waits written down for it
and then into one more. None of them comes out of its last wait before all have gone into it. -/
def schedule (s : Script) (workers : Nat) : List Turn :=
  let all := List.range workers
  let shard (index : Nat) := Turn.shard index
  let own (index : Nat) : List Turn :=
    (List.replicate (s.waitsOf (.reactor index)) [shard index, shard index]).flatten
  List.replicate workers .main ++ all.map shard ++ all.flatMap own ++ all.map shard ++
    all.map shard ++ all.map shard

end SpanEcho.Script

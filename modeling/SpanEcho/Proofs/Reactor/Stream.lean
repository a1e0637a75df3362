import SpanEcho.Proofs.Reactor.Reaches
import SpanEcho.Script.Kernel

/-!
# The stream of every connection

Whatever becomes of the other connections and however a run deals with them, what was sent over a
connection is the beginning of what is owed for the bytes that came in over it, and the rest is
pending. Nothing is pending any more when its peer's stream has ended.
-/

namespace SpanEcho

open SpanEcho.Action Scene Reactor

variable {κ : Type} [Kernel κ] {m : Multiplexor} {s : Settings} {n₀ n : Node κ}
  {due : List Readiness}

/-- **A connection is its own stream.** Of an accepted connection, what was delivered and what is
pending is the greeting and the echo of what was received; as long as the connection is not closed,
its entry holds what is pending; and where its peer's stream has ended, everything was delivered and
it is closed. -/
theorem stream_of_every_connection (hstart : Starting m s n₀) (hreach : n₀.Reaches n due)
    (hlaw : Lawful n.world.past) {before after : List Event} {e : Event} {fd : Descriptor}
    (htrace : n.world.trace = before ++ e :: after) (hcall : e.call = .accept n.reactor.listener)
    (hopened : e.opened? = some fd) :
    let own := lifetime fd after
    let received := own.flatMap (·.received fd)
    let delivered := own.flatMap (·.delivered fd)
    ∃ pending, delivered ++ pending = Span.greeting :: Span.echo received ∧
      ((∀ x ∈ own, x.closed? ≠ some fd) → ∃ t entry, (t, entry) ∈ n.reactor.registry.toList ∧
        entry.socket = fd ∧ entry.session.outbox.pending = pending) ∧
      (own.any (·.ends fd) → pending = [] ∧ ∃ x ∈ own, x.closed? = some fd) := by
  intro own received delivered
  obtain ⟨traffic, hledger, haccounts, -⟩ := hstart.sound_of_reaches hreach hlaw
  replace hledger : Ledger (n.reactor.held ++ []) traffic n.world.past := hledger
  rw [List.append_nil] at hledger
  rw [World.past_of_trace htrace] at hlaw hledger
  have htruth := hledger.truthful _ (lifetime_suffix fd before e after) fd
  rw [trafficOn_lifetime hopened] at htruth
  obtain ⟨pending, hstream⟩ := htruth.delivered
  have hended : own.any (·.ends fd) → pending = [] := fun he => by
    have hall : delivered = Span.greeting :: Span.echo received := htruth.ended he
    rw [← hall] at hstream
    exact List.append_right_eq_self.mp hstream
  refine ⟨pending, hstream, ?_⟩
  rcases closed_or_open hopened hlaw hledger.orderly with hclosed | ⟨hnot, hend, hopen⟩
  · have hclose : ∃ x ∈ own, x.closed? = some fd := by
      have hpos : 0 < own.countP fun x => x.closed? = some fd := by
        rw [show own.countP _ = 1 from hclosed]
        exact Nat.one_pos
      simpa using List.countP_pos_iff.mp hpos
    refine ⟨fun hnot => ?_, fun he => ⟨hended he, hclose⟩⟩
    obtain ⟨x, hx, hxc⟩ := hclose
    exact absurd hxc (hnot x hx)
  · -- It is open and not the listener, so there is an entry that accounts for its traffic.
    have hne : fd ≠ n.reactor.listener := by
      have hsuffix : e :: before.reverse <:+ (before ++ e :: after).reverse :=
        (List.suffix_append _ _).trans (lifetime_suffix fd before e after)
      have hnamed :=
        (hledger.orderly.of_suffix hsuffix).not_named_of_opened (hlaw.of_suffix hsuffix) hopened
      simpa [hcall, Call.names] using hnamed
    have hheld : fd ∈ n.reactor.held := hledger.mem_open.mp hopen
    obtain ⟨entry, hentry⟩ :=
      haccounts.filed.mem_sockets.mp ((List.mem_cons.mp hheld).resolve_left hne)
    have htraffic :
        traffic fd = ⟨received, delivered, own.any (·.asks fd), own.any (·.ends fd)⟩ := by
      have hnow : trafficOn fd (own.reverse ++ e :: before.reverse) = _ :=
        trafficOn_lifetime hopened
      rw [show own.reverse ++ e :: before.reverse = (before ++ e :: after).reverse by
        rw [show own = after from hend]; simp] at hnow
      rw [← hledger.traffic fd hheld, hnow]
    have hcarries := haccounts.session fd entry hentry
    have hrunning := haccounts.running fd entry hentry
    rw [htraffic] at hcarries hrunning
    refine ⟨fun _ => ⟨_, entry, Registry.mem_toList_of_entryAt haccounts.registry hentry,
      haccounts.socket fd entry hentry, ?_⟩, fun he => ?_⟩
    · exact List.append_cancel_left (hcarries.stream.trans hstream.symm)
    · exact absurd he (by simpa using hrunning)

namespace Visits

/-- Two connections in turns. The first ends its stream, and its descriptor is used again; the
second is slow to take what is sent. -/
def world : World Script :=
  let connection := Script.Arriving.connection none ⟨2, 16, ⟨.unspecified, 40001⟩⟩ true
  let listener : Descriptor × Condition := (3, { readable := true })
  { level := .off
    kernel :=
      { queues := [(3, [
          connection { giving := [.bytes [36, 94, 97, 98], .bytes []] },
          connection { giving := [.bytes [94, 48]], taking := [.atMost 1, .blocked] },
          connection {}])]
        waits := [(.main, [
          { ready := [listener] },
          { ready := [listener, (4, { writable := true })] },
          { ready := [(4, { readable := true }), (5, { writable := true })] },
          { ready := [(4, { writable := true }), (5, { readable := true })] },
          { ready := [(4, { readable := true }), (5, { writable := true })] },
          { ready := [listener] }])] } }

def settings : Settings :=
  { method := .select }

def launched : Node Script :=
  ⟨.fresh 3 .select settings, (Serving.launch settings world).2⟩

@[irreducible] def node : Node Script :=
  (Reactor.run 6 launched).2

/-- The acceptance of the first connection. -/
def accepted : Event :=
  node.world.trace.get ⟨12, by decide +kernel⟩

def after : List Event :=
  node.world.trace.drop 13

theorem starting : Starting .select settings launched := by
  have hmade : Serving.launch settings world = (.ok (.fresh 3 .select settings), launched.world) :=
    Prod.ext (by decide +kernel) rfl
  exact .launched rfl rfl hmade

theorem stream_of_first :
    node.world.trace = node.world.trace.take 12 ++ accepted :: after ∧ Lawful node.world.past ∧
      (lifetime 4 after).flatMap (·.received 4) = [36, 94, 97, 98] ∧
      (lifetime 4 after).flatMap (·.delivered 4) = [42, 98, 99] ∧
      ∃ pending, [42, 98, 99] ++ pending = Span.greeting :: Span.echo [36, 94, 97, 98] ∧
        pending = [] ∧ ∃ x ∈ lifetime 4 after, x.closed? = some 4 := by
  have htrace : node.world.trace = node.world.trace.take 12 ++ accepted :: after := by
    rw [accepted, after, List.get_eq_getElem, ← List.drop_eq_getElem_cons, List.take_append_drop]
  have hlaw : Lawful node.world.past := by decide +kernel
  have hreceived : (lifetime 4 after).flatMap (·.received 4) = [36, 94, 97, 98] := by decide +kernel
  have hdelivered : (lifetime 4 after).flatMap (·.delivered 4) = [42, 98, 99] := by decide +kernel
  have hreach : launched.Reaches node [] := by
    rw [node]
    exact Node.Reaches.here.run 6
  have hcall : accepted.call = .accept node.reactor.listener := by decide +kernel
  have hopened : accepted.opened? = some 4 := by decide +kernel
  refine ⟨htrace, hlaw, hreceived, hdelivered, ?_⟩
  obtain ⟨pending, hstream, -, hended⟩ :=
    stream_of_every_connection starting hreach hlaw htrace hcall hopened
  rw [hreceived, hdelivered] at hstream
  exact ⟨pending, hstream, hended (by decide +kernel)⟩

end Visits

end SpanEcho

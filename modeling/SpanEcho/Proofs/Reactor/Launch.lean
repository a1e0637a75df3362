import SpanEcho.Proofs.Reactor.Pass
import SpanEcho.Serving

/-!
# Reactors at the start

A reactor starts with a listener and no connections. If it cannot be made, its listener is closed.
-/

namespace SpanEcho

open SpanEcho.Action Scene

variable {κ : Type} [Kernel κ] {held others : List Descriptor} {traffic : Descriptor → Traffic}

namespace Reactor

/-- A reactor as it is made. -/
def fresh (listener : Descriptor) (m : Multiplexor) (s : Settings) : Reactor :=
  { listener, multiplexor := m, settings := s, registry := { capacity := s.maxConnections } }

theorem fresh_accounts (listener : Descriptor) (m : Multiplexor) (s : Settings) :
    (fresh listener m s).Accounts traffic where
  registry := Registry.sound_empty s.maxConnections
  socket := nofun
  session := nofun
  running := nofun

theorem sound_fresh {listener : Descriptor} {m : Multiplexor} {s : Settings} {past : List Event}
    (h : Holds [listener] past) : Scene.Sound [] (fun _ => {}) ⟨fresh listener m s, past⟩ := by
  obtain ⟨traffic, hl⟩ := h
  exact ⟨traffic, hl, fresh_accounts listener m s, nofun⟩

/-- A reactor is made with acceptable settings only. -/
theorem triple_create (listener : Descriptor) (m : Multiplexor) (s : Settings) :
    Triple (Ledger (listener :: held) traffic) (create listener m s : Sys κ Reactor)
      (Outcome.Ends
        (fun r past => (r = fresh listener m s ∧ Ledger (listener :: held) traffic past) ∧
          s.failure? = none)
        (Ledger held traffic)) := by
  have hmade : Triple (Ledger (listener :: held) traffic)
      (do
        Socket.setNonBlocking listener
        m.check listener
        Memory.reserve s.receiveChunk
        pure (fresh listener m s) : Sys κ Reactor)
      (Outcome.Ends (fun r past => r = fresh listener m s ∧ Ledger (listener :: held) traffic past)
        (Ledger (listener :: held) traffic)) := by
    refine Triple.bind (Socket.keeps_setNonBlocking List.mem_cons_self) fun _ => ?_
    refine Triple.bind (Q := fun _ => Ledger (listener :: held) traffic)
      (Triple.failIf (fun _ _ h => h) fun _ _ _ h => h) fun _ => ?_
    refine Triple.bind (Q := fun _ => Ledger (listener :: held) traffic)
      (Triple.reserve (fun _ _ h => h) fun _ _ _ h => h) fun _ => ?_
    exact Triple.pure fun _ _ h => ⟨rfl, h⟩
  refine Socket.triple_closingOnFailure ?_
    (Socket.triple_closeAll [listener])
  refine Triple.bind (Q := Outcome.Ends
      (fun _ past => Ledger (listener :: held) traffic past ∧ s.failure? = none)
      (Ledger (listener :: held) traffic)) ?_ fun _ => ?_
  · cases s.failure? with
    | none => exact Triple.pure fun _ _ h => ⟨h, rfl⟩
    | some e => exact Triple.fail fun _ _ h => h
  · apply (Triple.frame hmade).weaken (fun _ _ h => h)
    intro o _ _ h
    exact h.1.imp (fun r hr => ⟨hr, h.2⟩) fun hl => hl

end Reactor

namespace Serving

theorem holds_portOf (listener : Descriptor) :
    Triple (Holds [listener]) (portOf listener : Sys κ Nat)
      (Outcome.Ends (fun _ => Holds [listener]) (Holds [])) := by
  refine Socket.triple_closingOnFailure ?_ (Socket.holds_closeAll [listener])
  refine Triple.bind (Socket.holds_keeps fun _ => Socket.keeps_localAddress List.mem_cons_self)
    fun address => ?_
  exact Triple.pure fun _ _ h => h

/-- A reactor that is to serve alone is new, and its listener is all that is open. -/
theorem holds_launch (s : Settings) :
    Triple (Holds []) (launch s : Sys κ Reactor)
      (Outcome.Ends (fun r past => ∃ listener, r = .fresh listener s.method.multiplexor s ∧
        s.failure? = none ∧ Holds [listener] past) (Holds [])) := by
  refine Triple.bind (Socket.holds_listenOn _ _ _) fun listener => ?_
  refine Triple.bind (holds_portOf listener) fun port => ?_
  refine (Sys.silent_log _ _).bind (Triple.ofExists fun traffic => ?_)
  refine (Reactor.triple_create listener s.method.multiplexor s).weaken (fun _ _ h => h)
    fun o _ _ h => ?_
  exact h.imp (fun r h => ⟨listener, h.1.1, h.2, traffic, h.1.2⟩) fun h => ⟨traffic, h⟩

end Serving

end SpanEcho

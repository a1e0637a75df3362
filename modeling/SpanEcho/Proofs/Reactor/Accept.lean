import SpanEcho.Proofs.Reactor.Sound

/-!
# Accepting

When the listener is ready, one connection is filed at most. Whatever goes wrong on the way, the
accepted socket is closed and the reactor holds what it held before.
-/

namespace SpanEcho.Reactor

open SpanEcho.Action Scene Loop

variable {κ : Type} [Kernel κ] {r : Reactor} {held others : List Descriptor}
  {traffic : Descriptor → Traffic}

/-- The connection as it is filed. -/
def newcomer (r : Reactor) (fd : Descriptor) : Entry Descriptor :=
  let (session, interest) := Session.begin r.settings.sendCapacity
  { socket := fd, session, interest }

/-- The reactor with a newcomer filed. -/
def enrolled (r : Reactor) (fd : Descriptor) : Reactor :=
  { r with registry := (Registry.insert fd (r.newcomer fd) r.registry).2 }

/-- Either nothing has changed, or `fd` is filed and held besides. -/
def Admitted (r : Reactor) (held : List Descriptor) (traffic : Descriptor → Traffic) (v : Scene) :
    Prop :=
  v.Near r (Ledger held traffic) ∨
    ∃ fd, v.Near (r.enrolled fd) (Ledger (fd :: held) (Ledger.booked traffic fd {})) ∧
      ∃ t, (Registry.insert fd (r.newcomer fd) r.registry).1 = .ok t

theorem triple_acceptFailed (e : Failure) :
    Keeps (Near r (Ledger held traffic)) (acceptFailed e : Loop κ Unit) := by
  apply Keeps.bind keeps_count
  intro _
  split
  · refine (silent_log _ _).bind ?_
    exact Keeps.bind (triple_near Sys.keeps_now) fun _ => keeps_adjust fun _ => ⟨rfl, rfl, rfl, rfl⟩
  · exact (silent_log _ _).triple fun _ _ h => h

omit [Kernel κ] in
/-- What is tried once the socket is non-blocking. Until it succeeds nothing is filed. -/
theorem triple_filed (fd : Descriptor) {A law : List Event → Prop} [Hereditary law] :
    Triple (On r A)
      (do
        Loop.sys (r.multiplexor.check fd)
        Memory.reserve r.settings.sendCapacity
        let _ ← Loop.registry (Registry.insert fd (r.newcomer fd)) : Loop κ Unit)
      (Outcome.Ends (fun _ v => v.On (r.enrolled fd) A ∧
        ∃ t, (Registry.insert fd (r.newcomer fd) r.registry).1 = .ok t) (On r A)) law := by
  refine Triple.bind (triple_on (B := fun _ => A) (Triple.failIf (fun _ _ h => h) fun _ _ _ h => h))
    fun _ => ?_
  refine Triple.bind (Q := fun _ => On r A) (Triple.reserve (fun _ _ h => h) fun _ _ _ h => h)
    fun _ => ?_
  refine Triple.bind (Q := Outcome.Ends (fun _ (v : Scene) => v.On (r.enrolled fd) A ∧
      ∃ t, (Registry.insert fd (r.newcomer fd) r.registry).1 = .ok t) (On r A))
    (triple_registry ?_) fun _ => Triple.pure fun _ _ h => h
  intro v _ h
  obtain ⟨hr, hA⟩ := h
  rw [hr]
  rcases Registry.insert_cases fd (r.newcomer fd) r.registry with ⟨e, he⟩ | ⟨-, he⟩
  · rw [he]
    exact ⟨rfl, hA⟩
  · rw [he]
    exact ⟨⟨by rw [enrolled, he], hA⟩, _, rfl⟩

theorem triple_enrol (fd : Descriptor) (peer : Option Endpoint) :
    Triple (On r (Ledger (fd :: held) (Ledger.booked traffic fd {}))) (enrol fd peer : Loop κ Unit)
      fun _ => Admitted r held traffic := by
  refine Triple.attempt_bind ((triple_on (Socket.keeps_setNonBlocking List.mem_cons_self)).flawless
    (flawless_sys (Socket.flawless_setNonBlocking fd))) (fun _ => ?_) fun e => ?_
  · change Triple _ (Loop.reactor >>= _) _
    refine triple_look_any (A := fun _ => Ledger (fd :: held) (Ledger.booked traffic fd {}))
      (R := fun r _ => Admitted r held traffic) fun r => ?_
    have hclose : ∀ o : Outcome Unit,
        Triple (On r (Ledger (fd :: held) (Ledger.booked traffic fd {})))
          (do
            Loop.sys (Socket.close fd)
            Action.ofOutcome o : Loop κ Unit) fun _ => Admitted r held traffic := fun o =>
      Triple.bind (triple_on (Socket.triple_close_booked fd {}))
        (fun _ => Triple.ofOutcome fun _ _ h => .inl ⟨h.1 ▸ .refl r, h.2.2⟩)
        (fun _ _ h => nomatch h.2.1) (fun _ _ h => nomatch h.2.1)
    apply Triple.observe_bind (triple_filed fd)
    intro o
    cases o with
    | ok _ =>
      have hdone : Keeps (Near (r.enrolled fd) (Ledger (fd :: held) (Ledger.booked traffic fd {})))
          (do
            Loop.sys (Socket.reportPeer peer)
            Loop.log .debug s!"socket {fd} accepted, interest {Interest.write.text}" :
              Loop κ Unit) :=
        Keeps.bind (triple_near ((Socket.silent_reportPeer peer).triple fun _ _ h => h)) fun _ =>
          (silent_log _ _).triple fun _ _ h => h
      exact (Triple.frame (count_bind hdone)).weaken (fun _ _ h => ⟨h.1.near, h.2⟩)
        fun _ _ _ h => .inr ⟨fd, h⟩
    | failed e => exact hclose (.failed e)
    | defect d => exact hclose (.defect d)
  · refine (silent_log _ _).bind (Triple.strengthen (count_bind ?_) fun _ _ h => h.near)
    exact (triple_near (Socket.triple_close_booked fd {})).weaken (fun _ _ h => h)
      fun _ _ _ h => .inl ⟨h.1, h.2.2⟩

theorem triple_acceptOne (hl : r.listener ∈ held) :
    Triple (On r (Ledger held traffic)) (acceptOne : Loop κ Unit)
      fun _ => Admitted r held traffic := by
  refine triple_look tame_acceptOne ?_
  refine Triple.attempt_bind ((triple_on (Socket.triple_accept hl)).flawless
    (flawless_sys (Socket.flawless_accept _))) (fun accepted => ?_) fun e => ?_
  · exact triple_enrol accepted.1 accepted.2
  · have hfailed : ∀ {m : Loop κ Unit}, Keeps (Near r (Ledger held traffic)) m →
        Triple (On r (Ledger held traffic)) m fun _ => Admitted r held traffic := fun hm =>
      hm.weaken (fun _ _ h => h.near) fun _ _ _ h => .inl h
    split
    · exact hfailed ((silent_log _ _).triple fun _ _ h => h)
    · exact hfailed (triple_acceptFailed _)
    · rename_i heq
      cases heq

/-- A newcomer comes under a descriptor that nobody held. -/
theorem Admitted.cases {v : Scene} (h : r.Admitted (r.held ++ others) traffic v)
    (ha : r.Accounts traffic) (hlaw : Lawful v.past) :
    v.Near r (Ledger (r.held ++ others) traffic) ∨
      ∃ fd, fd ∉ r.held ∧ v.Altered r others traffic fd (some (r.newcomer fd)) := by
  refine h.imp_right ?_
  intro h
  obtain ⟨fd, ⟨halike, hledger⟩, t, ht⟩ := h
  obtain ⟨hsound, hsockets, hentryAt⟩ := Registry.insert_ok ha.registry ht
  have hfd : fd ∉ r.held ++ others := (List.nodup_cons.mp (hledger.nodup hlaw)).1
  have hperm : (fd :: (r.held ++ others)).Perm (v.reactor.held ++ others) := by
    rw [halike.held_eq, held, held, List.cons_append, List.cons_append]
    exact (List.Perm.swap _ _ _).trans ((hsockets.symm.append_right others).cons r.listener)
  refine ⟨fd, fun hm => hfd (List.mem_append_left _ hm), halike.listener, halike.multiplexor,
    halike.settings, ?_, ?_, fun hm => hfd (List.mem_append_right _ hm), {}, hledger.perm hperm, ?_⟩
  · rw [halike.registry]
    exact hsound
  · rw [halike.registry]
    exact hentryAt
  · rintro entry ⟨⟩
    exact ⟨rfl, Session.begin_carries _, rfl⟩

end SpanEcho.Reactor

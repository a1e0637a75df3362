import SpanEcho.Proofs.Reactor.Pass
import SpanEcho.Proofs.Registry.Requests

/-!
# What serving a connection touches

To serve a connection touches what is filed under its descriptor and nothing else, and calls are
made on its own socket only: that takes no more than a `Tidy` reactor, whatever the kernel replies
and however the handler ends. `Turned` says it of two states, so that it is put together step by
step.
-/

namespace SpanEcho

open SpanEcho.Action Scene Loop Reactor

/-- Connections are filed under their sockets, which are open, and the multiplexor can watch them
and the listener. -/
structure Reactor.Tidy (r : Reactor) (past : List Event) : Prop where
  used : Registry.Used r.settings.maxConnections r.registry
  listener : r.multiplexor.refusal? r.listener = none
  filed : ∀ fd entry, r.registry.entryAt fd = some entry →
    entry.socket = fd ∧ fd ∈ openAfter past ∧ r.multiplexor.refusal? fd = none

namespace Reactor.Tidy

variable {r r' : Reactor} {past past' : List Event}

theorem sound (h : r.Tidy past) : r.registry.Sound :=
  h.used.sound

theorem alike (h : r.Tidy past) (ha : r.Alike r') (ho : openAfter past' = openAfter past) :
    r'.Tidy past' where
  used := by rw [ha.settings, ha.registry]; exact h.used
  listener := by rw [ha.multiplexor, ha.listener]; exact h.listener
  filed := by rw [ha.registry, ha.multiplexor, ho]; exact h.filed

/-- Where every connection was there before and its descriptor is still open, nothing
gets untidy. -/
theorem less (h : r.Tidy past) (hs : r.Steady r')
    (hu : Registry.Used r.settings.maxConnections r'.registry)
    (hf : ∀ fd entry', r'.registry.entryAt fd = some entry' → fd ∈ openAfter past' ∧
      ∃ entry, r.registry.entryAt fd = some entry ∧ entry'.socket = entry.socket) :
    r'.Tidy past' where
  used := by rw [hs.settings]; exact hu
  listener := by rw [hs.multiplexor, hs.listener]; exact h.listener
  filed := fun fd entry' he => by
    obtain ⟨hopen, entry, hentry, hsocket⟩ := hf fd entry' he
    obtain ⟨hfiled, -, hwatch⟩ := h.filed fd entry hentry
    rw [hs.multiplexor]
    exact ⟨hsocket.trans hfiled, hopen, hwatch⟩

end Reactor.Tidy

namespace Node

variable {κ : Type}

abbrev Tidy (n : Node κ) : Prop :=
  n.reactor.Tidy n.world.past

/-- What may be called while a connection is served: its socket is closed once it is gone. -/
def ServingCall (fd : Descriptor) (r : Reactor) (c : Call) : Prop :=
  c.Quiet ∨ c.carrier? = some fd ∨ c = .close fd ∧ r.registry.entryAt fd = none

/-- What can come of serving the connection under `fd`. -/
structure Turned (fd : Descriptor) (n n' : Node κ) : Prop where
  tidy : n'.Tidy
  steady : n.reactor.Steady n'.reactor
  others : ∀ x, x ≠ fd → n'.reactor.registry.slotAt x = n.reactor.registry.slotAt x
  gone : n.reactor.registry.entryAt fd = none → n'.reactor.registry.entryAt fd = none
  calls : Added (ServingCall fd n'.reactor) n.world.past n'.world.past

variable {fd : Descriptor} {n n' n'' : Node κ}

theorem Turned.refl (h : n.Tidy) : Turned fd n n :=
  ⟨h, .refl _, fun _ _ => rfl, fun h => h, .refl _⟩

theorem Turned.trans (h : Turned fd n n') (h' : Turned fd n' n'') : Turned fd n n'' where
  tidy := h'.tidy
  steady := h.steady.trans h'.steady
  others := fun x hx => (h'.others x hx).trans (h.others x hx)
  gone := fun hg => h'.gone (h.gone hg)
  calls := by
    refine (h.calls.mono fun c hc => ?_).trans h'.calls
    exact hc.imp_right fun hc => hc.imp_right fun ⟨hclose, hg⟩ => ⟨hclose, h'.gone hg⟩

/-- What a tidy node turns into when its connections are refiled, with calls on its own socket. -/
theorem Turned.of_refile (h : n.Tidy) {t : Ticket} {f : Entry Descriptor → Entry Descriptor}
    (hr : n'.reactor = n.reactor.refile t f) (hf : ∀ entry, (f entry).socket = entry.socket)
    (hp : Added (fun c => c.carrier? = some t.fd) n.world.past n'.world.past) :
    Turned t.fd n n' := by
  have hopens : openAfter n'.world.past = openAfter n.world.past := 
    hp.openAfter_eq fun _ _ => openAfter_of_carrier
  have hsteady : n.reactor.Steady n'.reactor := by rw [hr]; exact ⟨rfl, rfl, rfl⟩
  refine ⟨h.less hsteady (by rw [hr]; exact h.used.modify t f) fun x entry' he => ?_, hsteady,
    fun x hx => ?_, fun hg => ?_, hp.mono fun c hc => .inr (.inl hc)⟩
  · rw [hr] at he
    obtain ⟨entry, hentry, hsame⟩ := Registry.entryAt_of_modify h.sound he
    rw [hopens]
    refine ⟨(h.filed x entry hentry).2.1, entry, hentry, ?_⟩
    rcases hsame with rfl | rfl
    · rfl
    · exact hf entry
  · rw [hr]
    exact Registry.slotAt_modify_of_ne h.sound t f hx
  · have hstale : n.reactor.registry.get? t = none := Registry.get?_of_entryAt_none hg
    rw [hr]
    show (n.reactor.registry.modify t f).entryAt t.fd = none
    rw [Registry.modify_of_stale hstale, hg]

theorem turned_quiet {α : Type} [Kernel κ] {m : Loop κ α} (hm : Quiet m) (h : n.Tidy) :
    Turned fd n (m n).2 := by
  obtain ⟨ha, hp⟩ := hm.along n
  refine ⟨h.alike ha (hp.openAfter_eq fun _ _ => openAfter_of_quiet), ha.steady, fun x _ => ?_,
    fun hg => ?_, hp.mono fun c hc => .inl hc⟩
  · rw [ha.registry]
  · rwa [ha.registry]

variable [Kernel κ] {t : Ticket} {entry : Entry Descriptor} {d : Direction}

theorem turned_exchange (h : n.Tidy) (hs : entry.socket = t.fd) :
    Turned t.fd n (exchange t entry d n).2 := by
  obtain ⟨session, hr⟩ : ∃ session, (exchange t entry d n).2.reactor =
      n.reactor.refile t fun e => { e with session } := ⟨_, rfl⟩
  refine .of_refile h hr (fun _ => rfl) ?_
  rcases exchange_world t entry d n with hw | ⟨c, hc, hw⟩
  · rw [hw]
    exact .refl _
  · rw [hw, World.call_past]
    exact .single (hc.trans (congrArg some hs))

/-- What it comes to when the connection of a good ticket is hung up. -/
theorem hangUp_apply (hs : n.reactor.registry.Sound) (hg : n.reactor.registry.get? t = some entry) :
    ∃ n', hangUp t n = (.ok (), n') ∧
      n'.reactor = { n.reactor.without t with
        tally := { n.reactor.tally with closes := n.reactor.tally.closes + 1 } } ∧
      n'.world.past = n.world.event (.close entry.socket) :: n.world.past := by
  obtain ⟨hlive, hentry, -⟩ := Registry.remove?_of_get? hs hg
  have hremove : n.reactor.registry.remove? t = (some entry, (n.reactor.without t).registry) := by
    rw [← hentry]
    rfl
  have happly : hangUp t n = (do
      Loop.adjust fun r => { r with registry := (n.reactor.without t).registry }
      Loop.sys (Socket.close entry.socket)
      Loop.log .info s!"socket {t.fd} closing"
      Loop.count fun t => { t with closes := t.closes + 1 } : Loop κ Unit) n := by
    simp only [hangUp, bind_apply, Loop.reactor, hremove]
    rw [if_neg (Nat.ne_of_gt hlive)]
    rfl
  exact ⟨_, happly.trans rfl, rfl, (World.write_past _ _).trans (World.call_past _ _)⟩

theorem hangUp_stale (hg : n.reactor.registry.get? t = none) : hangUp t n = (.ok (), n) := by
  simp only [hangUp, bind_apply, Loop.reactor, Registry.remove?_of_stale hg]
  rfl

theorem turned_hangUp (t : Ticket) (h : n.Tidy) : Turned t.fd n (hangUp t n).2 := by
  cases hg : n.reactor.registry.get? t with
  | none =>
    rw [hangUp_stale hg]
    exact .refl h
  | some entry =>
    obtain ⟨n', hn', hr, hp⟩ := hangUp_apply h.sound hg
    obtain ⟨hsocket, -⟩ := h.filed t.fd entry (Registry.entryAt_of_get? hg)
    obtain ⟨-, -, -, -, hentryAt⟩ := Registry.remove?_of_get? h.sound hg
    rw [hn']
    have hgone : n'.reactor.registry.entryAt t.fd = none := by
      rw [hr]
      exact (hentryAt t.fd).trans (if_pos rfl)
    have hsteady : n.reactor.Steady n'.reactor := by rw [hr]; exact ⟨rfl, rfl, rfl⟩
    refine ⟨h.less hsteady (by rw [hr]; exact h.used.remove? t) fun x entry' he => ?_, hsteady,
      fun x hx => ?_, fun _ => hgone, ?_⟩
    · have hx : x ≠ t.fd := fun hx => by
        rw [hx, hgone] at he
        cases he
      rw [hr] at he
      have hentry : n.reactor.registry.entryAt x = some entry' :=
        ((hentryAt x).trans (if_neg hx)).symm.trans he
      refine ⟨?_, entry', hentry, rfl⟩
      rw [hp, mem_openAfter_cons]
      refine .inr ⟨(h.filed x entry' hentry).2.1, fun hc => hx ?_⟩
      exact (Option.some.inj hc).symm.trans hsocket
    · rw [hr]
      exact Registry.slotAt_remove?_of_ne h.sound t hx
    · rw [hp]
      exact .single (.inr (.inr ⟨congrArg Call.close hsocket, hgone⟩))

/-- Put together from actions that touch the connection under `fd` alone. -/
abbrev Turning {α : Type} (fd : Descriptor) (m : Loop κ α) : Prop :=
  Composed (fun _ m => ∀ n : Node κ, n.Tidy → Turned fd n (m n).2) m

omit [Kernel κ] in
theorem Turning.turned {α : Type} {m : Loop κ α} (hm : Turning fd m) (h : n.Tidy) :
    Turned fd n (m n).2 :=
  Composed.along (R := fun n n' : Node κ => n.Tidy → Turned fd n n') (fun _ => .refl)
    (fun _ _ _ h h' ht => (h ht).trans (h' (h ht).tidy)) hm (fun _ _ hb => hb) n h

theorem turning_quiet {α : Type} {m : Loop κ α} (hm : Quiet m) : Turning fd m :=
  .basic fun _ => turned_quiet hm

theorem turning_keep (t : Ticket) (interest : Interest) :
    Turning t.fd (keep t interest : Loop κ Unit) := by
  unfold keep
  split
  · exact .basic fun _ => turned_hangUp t
  · exact .basic fun _ h => .of_refile h rfl (fun _ => rfl) (.refl _)

theorem turning_followUp (t : Ticket) (d : Direction) (old : Session)
    (answer : Except Failure Interest) : Turning t.fd (followUp t d old answer : Loop κ Unit) :=
  .bind (turning_quiet (quiet_countTraffic t old)) fun _ =>
    .bind (turning_quiet (quiet_verdict t answer)) fun _ =>
      .bind (turning_quiet (quiet_log _ _)) fun _ => turning_keep t _

/-- Whatever comes of it, serving a connection touches that connection alone. -/
theorem turned_serve (t : Ticket) (d : Direction) (h : n.Tidy) : Turned t.fd n (serve t d n).2 := by
  cases hg : n.reactor.registry.get? t with
  | none =>
    rw [serve_stale hg]
    exact .refl h
  | some entry =>
    have hsocket := (h.filed t.fd entry (Registry.entryAt_of_get? hg)).1
    have hserve : serve t d n =
        (Action.attempt (exchange t entry d) >>= followUp t d entry.session) n := by
      simp only [serve, bind_apply, Loop.reactor, hg]
    have hexchange : Turning t.fd (exchange t entry d : Loop κ Interest) :=
      .basic fun _ h => turned_exchange h hsocket
    rw [hserve]
    exact Turning.turned (.bind (.attempt hexchange) fun _ => turning_followUp t d _ _) h

/-- Serves a connection in the directions that are ready. -/
def serveReady (t : Ticket) (ready : Readiness) : Loop κ Unit := do
  Action.when ready.readable (serve t .receive)
  Action.when ready.writable (serve t .send)

theorem turning_serveReady (t : Ticket) (ready : Readiness) :
    Turning t.fd (serveReady t ready : Loop κ Unit) := by
  have hserve : ∀ d, Turning t.fd (serve t d : Loop κ Unit) :=
    fun d => .basic fun _ => turned_serve t d
  exact .bind (.when (hserve .receive)) fun _ => .when (hserve .send)

theorem dispatch_missing {ready : Readiness} (hne : ready.fd ≠ n.reactor.listener)
    (hf : n.reactor.registry.find? ready.fd = none) : dispatch ready n = (.ok (), n) := by
  simp only [dispatch, bind_apply, Loop.reactor, if_neg hne, hf]
  rfl

theorem dispatch_found {ready : Readiness} (hne : ready.fd ≠ n.reactor.listener)
    (hf : n.reactor.registry.find? ready.fd = some t) :
    dispatch ready n = serveReady t ready n := by
  simp only [dispatch, serveReady, bind_apply, Loop.reactor, if_neg hne, hf]

/-- A ready connection is all that is touched when it is dispatched. -/
theorem turned_dispatch {ready : Readiness} (hne : ready.fd ≠ n.reactor.listener) (h : n.Tidy) :
    Turned ready.fd n (dispatch ready n).2 := by
  cases hf : n.reactor.registry.find? ready.fd with
  | none =>
    rw [dispatch_missing hne hf]
    exact .refl h
  | some t =>
    rw [dispatch_found hne hf, ← Registry.fd_of_find? hf]
    exact (turning_serveReady t ready).turned h

end Node

end SpanEcho

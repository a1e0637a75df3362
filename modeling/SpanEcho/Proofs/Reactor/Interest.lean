import SpanEcho.Proofs.Reactor.Stream

/-!
# What connections are watched for

A reactor that waits with `select` or `poll` watches every connection for sending as long as
something is pending, and for receiving otherwise. A wait lists a connection in that direction at
most, and whatever is served before it, its entry is still there and still wants the same when its
turn comes: its handler then makes one call, and the greeting is out before anything is received.
-/

namespace SpanEcho

open SpanEcho.Action Scene Loop

theorem Settings.chunk_of_failure? {s : Settings} (h : s.failure? = none) :
    0 < s.receiveChunk ∧ s.receiveChunk ≤ s.sendCapacity := by
  simp only [failure?, Option.map_eq_none_iff, fault?] at h
  grind

namespace Session

theorem wants_readable {s : Session} : s.wants.readable ↔ s.outbox.pending = [] := by
  by_cases h : s.outbox.pending = [] <;> simp [wants, h, Interest.read, Interest.write]

theorem wants_writable {s : Session} : s.wants.writable ↔ s.outbox.pending ≠ [] := by
  by_cases h : s.outbox.pending = [] <;> simp [wants, h, Interest.read, Interest.write]

end Session

namespace Reactor

/-- The reactor waits with a method of the kernel, has acceptable settings, and watches every
connection for what its session wants. -/
structure Attentive (r : Reactor) : Prop where
  method : ∃ method : WaitMethod, r.multiplexor = method.multiplexor
  settings : r.settings.failure? = none
  interest : ∀ fd entry, r.registry.entryAt fd = some entry → entry.interest = entry.session.wants

/-- What is still to be served: the listener, or connections in directions that they are watched
for, each once. -/
structure Due (r : Reactor) (due : List Readiness) : Prop where
  nodup : (due.map (·.fd)).Nodup
  any : ∀ x ∈ due, x.any
  watched : ∀ x ∈ due, x.fd ≠ r.listener → ∃ entry, r.registry.entryAt x.fd = some entry ∧
    (x.readable → entry.interest.readable) ∧ (x.writable → entry.interest.writable)

variable {r r' : Reactor} {ready : Readiness} {due : List Readiness} {others : List Descriptor}
  {traffic : Descriptor → Traffic}

theorem due_nil (r : Reactor) : r.Due [] :=
  ⟨List.nodup_nil, nofun, nofun⟩

theorem Due.tail (h : r.Due (ready :: due)) : r.Due due where
  nodup := (List.nodup_cons.mp h.nodup).2
  any := fun x hx => h.any x (List.mem_cons_of_mem ready hx)
  watched := fun x hx => h.watched x (List.mem_cons_of_mem ready hx)

theorem Attentive.alike (ha : r.Alike r') (h : r.Attentive) : r'.Attentive where
  method := by rw [ha.multiplexor]; exact h.method
  settings := by rw [ha.settings]; exact h.settings
  interest := by rw [ha.registry]; exact h.interest

theorem Due.alike (ha : r.Alike r') (h : r.Due due) : r'.Due due where
  nodup := h.nodup
  any := h.any
  watched := by rw [ha.registry, ha.listener]; exact h.watched

theorem Attentive.within (h : r.Attentive) (hl : r.multiplexor.Lists r.registrations due) :
    Readiness.Within r.registrations due := by
  obtain ⟨method, hmethod⟩ := h.method
  rw [hmethod] at hl
  cases method with
  | select => exact hl
  | poll => exact hl

/-- What a wait lists is due. -/
theorem Accounts.due_of_within (h : r.Accounts traffic) (hn : r.held.Nodup)
    (hw : Readiness.Within r.registrations due) : r.Due due where
  nodup := (h.filed.registrations_nodup hn).sublist hw.sublist
  any := hw.any
  watched := fun x hx hne => by
    obtain ⟨e, he, hfd, hasked⟩ := hw.asked x hx
    rcases mem_registrations he with rfl | he
    · exact absurd hfd.symm hne
    · obtain ⟨entry, hentry, hinterest⟩ := mem_interests h.registry he
      rw [hfd] at hentry
      rw [← hinterest] at hasked
      exact ⟨entry, hentry, hasked⟩

theorem Due.subset_held (h : r.Due due) (ha : r.Accounts traffic) :
    ∀ {fd : Descriptor}, fd ∈ due.map (·.fd) → fd ∈ r.held := by
  intro fd hfd
  obtain ⟨x, hx, rfl⟩ := List.mem_map.mp hfd
  by_cases hne : x.fd = r.listener
  · rw [hne]
    exact List.mem_cons_self
  · obtain ⟨entry, hentry, -⟩ := h.watched x hx hne
    exact ha.filed.mem_held hentry

variable {fd : Descriptor} {found : Option (Entry Descriptor)} {v : Scene}

theorem Attentive.altered (h : r.Attentive) (hv : v.Altered r others traffic fd found)
    (hf : ∀ entry ∈ found, entry.interest = entry.session.wants) : v.reactor.Attentive where
  method := by rw [hv.multiplexor]; exact h.method
  settings := by rw [hv.settings]; exact h.settings
  interest := fun x entry hx => by
    rw [hv.entryAt] at hx
    split at hx
    · exact hf entry hx
    · exact h.interest x entry hx

/-- What happens under one descriptor is nothing to the others that are due. -/
theorem Due.altered (h : r.Due due) (hv : v.Altered r others traffic fd found)
    (hfd : fd ∉ due.map (·.fd)) : v.reactor.Due due where
  nodup := h.nodup
  any := h.any
  watched := fun x hx hne => by
    rw [hv.listener] at hne
    have hx' : x.fd ≠ fd := fun he => hfd (he ▸ List.mem_map_of_mem hx)
    rw [hv.entryAt, if_neg hx']
    exact h.watched x hx hne

/-- A newcomer is watched for its greeting, and nothing that is due is about it. -/
theorem Attentive.admitted (hi : r.Attentive) (hd : r.Due due) (ha : r.Accounts traffic)
    (h : r.Admitted (r.held ++ others) traffic v) (hlaw : Lawful v.past) :
    v.reactor.Attentive ∧ v.reactor.Due due := by
  rcases h.cases ha hlaw with hnear | ⟨fd, hfd, haltered⟩
  · exact ⟨hi.alike hnear.1, hd.alike hnear.1⟩
  · have hwants : ∀ entry ∈ some (r.newcomer fd), entry.interest = entry.session.wants := by
      intro entry he
      obtain rfl := Option.some.inj he
      exact Session.begin_interest _
    exact ⟨hi.altered haltered hwants, hd.altered haltered fun hm => hfd (hd.subset_held ha hm)⟩

/-- A connection that was served with a call is watched for what its session wants by now. -/
theorem Attentive.served (hi : r.Attentive) (hd : r.Due due) {past : List Event} {t : Ticket}
    {calls : List Call} (h : Served r others traffic past t calls v) (hcalls : calls ≠ [])
    (hfd : t.fd ∉ due.map (·.fd)) : v.reactor.Attentive ∧ v.reactor.Due due := by
  cases h with
  | kept entry moved altered current interest =>
    have hwants : ∀ x ∈ some entry, x.interest = x.session.wants := by
      intro x hx
      obtain rfl := Option.some.inj hx
      exact interest hcalls
    exact ⟨hi.altered altered hwants, hd.altered altered hfd⟩
  | closed moved altered => exact ⟨hi.altered altered nofun, hd.altered altered hfd⟩

/-! ## Serving what is due -/

/-- The call that serves a connection in a direction. -/
def callFor (r : Reactor) (entry : Entry Descriptor) : Direction → Call
  | .receive => .receive entry.socket r.settings.receiveChunk
  | .send => .send entry.socket entry.session.outbox.pending Socket.noSignal

/-- A connection that is due in a direction. -/
structure Awaits (r : Reactor) (ready : Readiness) (t : Ticket) (entry : Entry Descriptor)
    (d : Direction) : Prop where
  fd : t.fd = ready.fd
  found : r.registry.find? ready.fd = some t
  filed : r.registry.get? t = some entry
  readable : ready.readable = decide (d = .receive)
  writable : ready.writable = decide (d = .send)
  calls : handlerCalls r.settings.receiveChunk entry d = [r.callFor entry d]
  pending : d = .send → entry.session.outbox.pending ≠ []

/-- A connection is due in the one direction that its session wants. -/
theorem Due.awaits (h : r.Due (ready :: due)) (ha : r.Accounts traffic) (hi : r.Attentive)
    (hne : ready.fd ≠ r.listener) : ∃ t entry d, r.Awaits ready t entry d := by
  obtain ⟨entry, hentry, hreadable, hwritable⟩ := h.watched ready List.mem_cons_self hne
  have hany := h.any ready List.mem_cons_self
  have hfound :
      r.registry.find? ready.fd = some ⟨ready.fd, (r.registry.slotAt ready.fd).generation⟩ :=
    Registry.find?_eq_some.mpr ⟨entry, hentry, rfl⟩
  have hget : r.registry.get? ⟨ready.fd, (r.registry.slotAt ready.fd).generation⟩ = some entry :=
    Registry.get?_eq_some.mpr ⟨rfl, hentry⟩
  rw [hi.interest ready.fd entry hentry, Session.wants_readable] at hreadable
  rw [hi.interest ready.fd entry hentry, Session.wants_writable] at hwritable
  have hcarries := ha.session ready.fd entry hentry
  obtain ⟨hpos, hle⟩ := Settings.chunk_of_failure? hi.settings
  by_cases hp : entry.session.outbox.pending = []
  · have hw : ready.writable = false := Bool.eq_false_iff.mpr fun hw => hwritable hw hp
    have hr : ready.readable = true := by simpa [Readiness.any, hw] using hany
    have hroom : entry.session.room r.settings.receiveChunk = r.settings.receiveChunk := by
      rw [hcarries.room_eq, if_pos hp, hcarries.capacity_eq]
      omega
    refine ⟨_, entry, .receive, rfl, hfound, hget, hr, hw, ?_, nofun⟩
    simp only [handlerCalls, hroom, callFor]
    rw [if_neg (by omega)]
  · have hr : ready.readable = false := Bool.eq_false_iff.mpr fun hr => hp (hreadable hr)
    have hw : ready.writable = true := by simpa [Readiness.any, hr] using hany
    refine ⟨_, entry, .send, rfl, hfound, hget, hr, hw, ?_, fun _ => hp⟩
    simp only [handlerCalls, callFor]
    rw [if_neg hp]

variable {κ : Type} [Kernel κ] {n : Node κ} {t : Ticket} {entry : Entry Descriptor} {d : Direction}

/-- A connection that is due is served in that direction and no other. -/
theorem Awaits.dispatch_apply (h : n.reactor.Awaits ready t entry d)
    (hne : ready.fd ≠ n.reactor.listener) : dispatch ready n = serve t d n := by
  have hboth : dispatch ready n = (do
      Action.when ready.readable (serve t .receive)
      Action.when ready.writable (serve t .send) : Loop κ Unit) n := by
    simp only [dispatch, bind_apply, Loop.reactor, if_neg hne, h.found]
  rw [hboth, h.readable, h.writable]
  cases d with
  | receive =>
    show (serve t .receive >>= fun _ => Action.pure ()) n = _
    rw [bind_apply]
    split <;> rename_i heq <;> rw [heq]
    rfl
  | send => rfl

/-- What it takes to serve a connection that is due. -/
theorem triple_dispatch_due {past : List Event} (hl : Ledger (r.held ++ others) traffic past)
    (ha : r.Accounts traffic) (hi : r.Attentive) (hd : r.Due (ready :: due))
    (hne : ready.fd ≠ r.listener) (hlaw : Lawful past) :
    Triple (On r (· = past)) (dispatch ready : Loop κ Unit) fun o v => o = .ok () ∧
      ∃ t entry d, r.Awaits ready t entry d ∧
        Served r others traffic past t [r.callFor entry d] v := by
  refine ⟨(tame_dispatch ready).grows.grows, ?_⟩
  intro n h hdone
  obtain ⟨hr, hpast⟩ := h
  obtain rfl : n.reactor = r := hr
  obtain ⟨t, entry, d, hawaits⟩ := hd.awaits ha hi hne
  have hserve := triple_serve (κ := κ) hl ha hawaits.filed hlaw d
  rw [hawaits.calls] at hserve
  rw [hawaits.dispatch_apply hne] at hdone ⊢
  obtain ⟨ho, hserved⟩ := hserve.ensures n ⟨rfl, hpast⟩ hdone
  exact ⟨ho, t, entry, d, hawaits, hserved⟩

omit [Kernel κ] in
/-- Serving a connection with one call adds that call, and the close if there is one. -/
theorem Served.trace {past : List Event} {call : Call} {v : Scene}
    (h : Served r others traffic past t [call] v) :
    ∃ e closing, v.past.reverse = past.reverse ++ e :: closing ∧ e.call = call ∧
      (closing = [] ∨ closing.map (·.call) = [.close t.fd]) := by
  cases h with
  | kept entry moved altered current interest hpast hcalls =>
    obtain ⟨e, rfl, hcall⟩ := List.map_eq_singleton_iff.mp hcalls
    exact ⟨e, [], by rw [hpast]; simp, hcall, .inl rfl⟩
  | closed moved altered hpast hcalls =>
    obtain ⟨close, rest, rfl, hclose, hrest⟩ := List.map_eq_cons_iff.mp hcalls
    obtain ⟨e, rfl, hcall⟩ := List.map_eq_singleton_iff.mp hrest
    exact ⟨e, [close], by rw [hpast]; simp, hcall, .inr (by rw [List.map_singleton, hclose])⟩

/-! ## Throughout a run -/

variable {theirs : Descriptor → Traffic}

/-- The reactor is sound and attentive, and `due` is due. -/
def Attended (others : List Descriptor) (theirs : Descriptor → Traffic) (due : List Readiness)
    (v : Scene) : Prop :=
  (v.Sound others theirs ∧ v.reactor.Attentive) ∧ v.reactor.Due due

theorem attended_quiet {α : Type} {m : Loop κ α} (hm : Quiet m)
    (h : Keeps (Scene.Sound others theirs) m) : Keeps (Attended others theirs []) m :=
  (hm.carry Attentive.alike h).weaken (fun _ _ h => h.1) fun _ v _ h => ⟨h, due_nil v.reactor⟩

theorem attended_await (plan : Plan) :
    Triple (fun v => (v.Sound others theirs ∧ plan.entries = v.reactor.registrations) ∧
        v.reactor.Attentive) (await plan : Loop κ (List Readiness))
      fun o => Attended others theirs (Readiness.afterWait o) where
  grows := (quiet_await plan).tame.grows.grows
  ensures := by
    intro n h hlaw
    obtain ⟨⟨⟨traffic, hl, ha, hothers⟩, hentries⟩, hi⟩ := h
    have hq := (triple_await ha hentries).ensures n ⟨rfl, hl⟩ hlaw
    have halike := ((quiet_await plan).alike n.reactor).ensures n (.refl n.reactor) hlaw
    have hsound := (sound_await plan).ensures n ⟨⟨traffic, hl, ha, hothers⟩, hentries⟩ hlaw
    refine ⟨⟨hsound, hi.alike halike⟩, ?_⟩
    cases ho : (await plan n).1 with
    | ok ready =>
      rw [ho] at hq
      have hpast : Lawful n.world.past := hlaw.of_suffix ((quiet_await plan).tame.grows.grows n)
      have hnodup : n.reactor.held.Nodup := (List.nodup_append.mp (hl.nodup hpast)).1
      exact (ha.due_of_within hnodup (hi.within hq.2)).alike halike
    | failed e => exact due_nil _
    | defect d => exact due_nil _

theorem attended_dispatch (ready : Readiness) (due : List Readiness) :
    Triple (Attended others theirs (ready :: due)) (dispatch ready : Loop κ Unit)
      fun o => Attended others theirs (if o.isOk then due else []) where
  grows := (tame_dispatch ready).grows.grows
  ensures := by
    intro n h hlaw
    obtain ⟨⟨hsound, hi⟩, hd⟩ := h
    have hsound' := (sound_dispatch ready).ensures n hsound hlaw
    suffices h : (dispatch ready n).2.reactor.Attentive ∧ (dispatch ready n).2.reactor.Due due by
      refine ⟨⟨hsound', h.1⟩, ?_⟩
      split
      · exact h.2
      · exact due_nil _
    obtain ⟨traffic, hl, ha, hothers⟩ := hsound
    by_cases hne : ready.fd = n.reactor.listener
    · have happly : dispatch ready n = Action.when ready.readable acceptOne n := by
        show (if ready.fd = n.reactor.listener then _ else _ : Loop κ Unit) n = _
        rw [if_pos hne]
      cases hr : ready.readable with
      | false =>
        rw [happly, hr]
        exact ⟨hi, hd.tail⟩
      | true =>
        rw [happly, hr] at hlaw ⊢
        have hlistener : n.reactor.listener ∈ n.reactor.held ++ others := List.mem_cons_self
        have hadmitted := (triple_acceptOne (r := n.reactor) hlistener).ensures n ⟨rfl, hl⟩ hlaw
        exact hi.admitted hd.tail ha hadmitted hlaw
    · have hpast : Lawful n.world.past := hlaw.of_suffix ((tame_dispatch ready).grows.grows n)
      obtain ⟨-, t, entry, d, hawaits, hserved⟩ :=
        (triple_dispatch_due hl ha hi hd hne hpast).ensures n ⟨rfl, rfl⟩ hlaw
      have hfd : t.fd ∉ due.map (·.fd) := by
        rw [hawaits.fd]
        exact (List.nodup_cons.mp hd.nodup).1
      exact hi.served hd.tail hserved (List.cons_ne_nil _ _) hfd

theorem invariant_attended : Node.Invariant κ (Attended others theirs) where
  start := attended_quiet quiet_start sound_start
  wait := by
    have hprepare : Triple (fun v => v.Sound others theirs ∧ v.reactor.Attentive)
        (prepare : Loop κ Plan) _ := quiet_prepare.carry Attentive.alike sound_prepare
    refine Triple.bind (hprepare.strengthen fun _ _ h => h.1) attended_await ?_ ?_
    · exact fun _ v h => ⟨h, due_nil v.reactor⟩
    · exact fun _ v h => ⟨h, due_nil v.reactor⟩
  dispatch := attended_dispatch
  report := fun last => attended_quiet (quiet_report last) (sound_report last)
  finish := attended_quiet quiet_finish sound_finish

end Reactor

open Reactor

variable {κ : Type} [Kernel κ] {s : Settings} {method : WaitMethod} {n₀ n : Node κ}
  {due : List Readiness}

/-- A started reactor is attentive in every state it comes to. -/
theorem Starting.attended (hstart : Starting method.multiplexor s n₀) (hreach : n₀.Reaches n due)
    (hlaw : Lawful n.world.past) :
    n.reactor.settings = s ∧ Attended [] (fun _ => {}) due (Viewed.view n) := by
  obtain ⟨⟨listener, hfresh⟩, hs, hsound⟩ := hstart.sound (hlaw.of_suffix hreach.grows)
  have hsteady := (Node.invariant_steady n₀.reactor).holds hreach (fun _ => ⟨rfl, rfl, rfl⟩) hlaw
  have hsettings : n₀.reactor.settings = s := by
    rw [hfresh]
    rfl
  refine ⟨hsteady.settings.trans hsettings, ?_⟩
  refine invariant_attended.holds hreach (fun _ => ⟨⟨hsound, ?_⟩, due_nil _⟩) hlaw
  show n₀.reactor.Attentive
  rw [hfresh]
  exact ⟨⟨method, rfl⟩, hs, nofun⟩

/-- Before the greeting is out, nothing has passed over a connection and nothing was asked for. -/
theorem Reactor.Accounts.traffic_of_greeting {r : Reactor} {held : List Descriptor}
    {traffic : Descriptor → Traffic} {past : List Event} {fd : Descriptor}
    {entry : Entry Descriptor}
    (ha : r.Accounts traffic) (hl : Ledger held traffic past) (hfd : fd ∈ held)
    (hentry : r.registry.entryAt fd = some entry) (hp : entry.session.phase = .greeting) :
    trafficOn fd past = {} := by
  have hcarries := ha.session fd entry hentry
  have hdelivered := hcarries.phase_eq_greeting_iff.mp hp
  have hreceived := hcarries.silent hdelivered
  have hended := ha.running fd entry hentry
  have hasked : (traffic fd).asked = false := by
    have htruth := (hl.truthful_now fd).asked
    rw [hl.traffic fd hfd] at htruth
    exact Bool.eq_false_iff.mpr fun h => htruth h hdelivered
  rw [hl.traffic fd hfd]
  generalize traffic fd = t at *
  cases t
  simp_all

/-- **Connections are watched for what they have to do.** Between two dispatches an entry is watched
for sending if something is pending and for receiving otherwise; the greeting is out before anything
is asked for. What is still to be served is listed once, and a connection in one direction: its
handler makes the one call of that direction, and the connection may be closed after it. -/
theorem interest_of_every_connection (hstart : Starting method.multiplexor s n₀)
    (hreach : n₀.Reaches n due) (hlaw : Lawful n.world.past) :
    (∀ t entry, (t, entry) ∈ n.reactor.registry.toList →
      entry.interest = (if entry.session.outbox.pending = [] then .read else .write) ∧
      (entry.session.phase = .greeting → entry.session.outbox.pending = [Span.greeting] ∧
        trafficOn entry.socket n.world.past = {})) ∧
    (due.map (·.fd)).Nodup ∧ 0 < s.receiveChunk ∧
    ∀ ready rest, due = ready :: rest → ready.fd ≠ n.reactor.listener →
      Lawful (Reactor.dispatch ready n).2.world.past →
      (Reactor.dispatch ready n).1 = .ok () ∧
      ∃ t entry, (t, entry) ∈ n.reactor.registry.toList ∧ entry.socket = ready.fd ∧
        ∃ e closing, (Reactor.dispatch ready n).2.world.trace = n.world.trace ++ e :: closing ∧
          (closing = [] ∨ closing.map (·.call) = [.close ready.fd]) ∧
          ((ready.readable ∧ ¬ ready.writable ∧ e.call = .receive ready.fd s.receiveChunk) ∨
            (ready.writable ∧ ¬ ready.readable ∧ entry.session.outbox.pending ≠ [] ∧
              e.call = .send ready.fd entry.session.outbox.pending Socket.noSignal)) := by
  obtain ⟨hsettings, ⟨⟨traffic, hl, ha, -⟩, hi⟩, hd⟩ := hstart.attended hreach hlaw
  replace hl : Ledger (n.reactor.held ++ []) traffic n.world.past := hl
  have hfiled : ∀ {t : Ticket} {entry : Entry Descriptor}, n.reactor.registry.get? t = some entry →
      entry.socket = t.fd ∧ (t, entry) ∈ n.reactor.registry.toList := fun hg =>
    ⟨ha.socket _ _ (Registry.entryAt_of_get? hg), (Registry.mem_toList ha.registry).mpr hg⟩
  have hs : s.failure? = none := hsettings ▸ hi.settings
  refine ⟨fun t entry hmem => ?_, hd.nodup, (Settings.chunk_of_failure? hs).1, ?_⟩
  · have hentry := Registry.entryAt_of_get? ((Registry.mem_toList ha.registry).mp hmem)
    refine ⟨hi.interest t.fd entry hentry, fun hp => ⟨?_, ?_⟩⟩
    · exact (ha.session t.fd entry hentry).pending_of_greeting hp
    · rw [ha.socket t.fd entry hentry]
      exact ha.traffic_of_greeting hl (List.mem_append_left _ (ha.filed.mem_held hentry)) hentry hp
  · rintro ready rest rfl hne hdone
    obtain ⟨ho, t, entry, d, hawaits, hserved⟩ :=
      (triple_dispatch_due hl ha hi hd hne hlaw).ensures n ⟨rfl, rfl⟩ hdone
    obtain ⟨hsocket, hmem⟩ := hfiled hawaits.filed
    rw [hawaits.fd] at hsocket
    obtain ⟨e, closing, htrace, hcall, hclosing⟩ := hserved.trace
    rw [hawaits.fd] at hclosing
    refine ⟨ho, t, entry, hmem, hsocket, e, closing, htrace, hclosing, ?_⟩
    rw [hawaits.readable, hawaits.writable, hcall]
    cases d with
    | receive => exact .inl ⟨rfl, nofun, by rw [← hsocket, ← hsettings]; rfl⟩
    | send => exact .inr ⟨rfl, nofun, hawaits.pending rfl, by rw [← hsocket]; rfl⟩

namespace Visits

/-- The third wait: the first connection may send its bytes, the second is owed the greeting. -/
@[irreducible] def woken : Outcome (List Readiness) × Node Script :=
  (prepare >>= await : Loop Script (List Readiness)) (Reactor.run 2 launched).2

theorem interest_of_woken :
    Readiness.afterWait woken.1 = [⟨4, true, false⟩, ⟨5, false, true⟩] ∧
      Lawful woken.2.world.past ∧ (4 : Descriptor) ≠ woken.2.reactor.listener ∧
      Lawful (Reactor.dispatch ⟨4, true, false⟩ woken.2).2.world.past ∧
      ∃ e closing,
        (Reactor.dispatch ⟨4, true, false⟩ woken.2).2.world.trace =
          woken.2.world.trace ++ e :: closing ∧
          e.call = .receive 4 1024 := by
  have hdue : Readiness.afterWait woken.1 = [⟨4, true, false⟩, ⟨5, false, true⟩] := by
    decide +kernel
  have hreach : launched.Reaches woken.2 (Readiness.afterWait woken.1) := by
    rw [woken]
    exact (Node.Reaches.here.run 2).wait
  have hstart : Starting WaitMethod.select.multiplexor settings launched := starting
  have hlaw : Lawful woken.2.world.past := by decide +kernel
  have hne : (4 : Descriptor) ≠ woken.2.reactor.listener := by decide +kernel
  have hdone : Lawful (Reactor.dispatch ⟨4, true, false⟩ woken.2).2.world.past := by decide +kernel
  refine ⟨hdue, hlaw, hne, hdone, ?_⟩
  obtain ⟨-, -, -, hserved⟩ := interest_of_every_connection hstart hreach hlaw
  obtain ⟨-, t, entry, -, -, e, closing, htrace, -, hcall⟩ := hserved _ _ hdue hne hdone
  refine ⟨e, closing, htrace, ?_⟩
  rcases hcall with ⟨-, -, hcall⟩ | ⟨hwritable, -⟩
  · exact hcall
  · cases hwritable

end Visits

end SpanEcho

import SpanEcho.Proofs.Custody
import SpanEcho.Proofs.Reactor.Planning

/-!
# Reactors use what is ready

What a reactor holds is ready, its listener and the sockets of its connections alike: it is made of
a listener that became ready, and files a socket once it is. It waits for what it holds, and serves
what is filed; so it uses nothing else.
-/

namespace SpanEcho

open SpanEcho.Action

/-- What a reactor holds is ready. -/
def Reactor.custody (r : Reactor) : List (Descriptor × Standing) :=
  r.held.map (·, .ready)

/-- A reactor has its descriptors in custody, in a world where others have `others`. -/
structure Scene.Guards (born : List Event → Flags) (others : List (Descriptor × Standing))
    (doomed : Option Descriptor) (v : Scene) : Prop where
  custody : Custody born (others ++ v.reactor.custody) doomed v.past
  filed : v.reactor.Filed

open Scene

variable {κ α : Type} {born : List Event → Flags} {others : List (Descriptor × Standing)}
  {doomed : Option Descriptor} {r r' : Reactor} {past : List Event} {fd : Descriptor}

theorem Reactor.mem_custody (h : fd ∈ r.held) : (fd, .ready) ∈ others ++ r.custody :=
  List.mem_append_right _ (List.mem_map_of_mem h)

theorem Reactor.Alike.custody_eq (h : r.Alike r') : r'.custody = r.custody := by
  rw [Reactor.custody, Reactor.custody, h.held_eq]

/-- Connections may be changed where they are filed. -/
theorem Scene.Guards.refile (h : Guards born others doomed ⟨r, past⟩) (t : Ticket)
    {f : Entry Descriptor → Entry Descriptor} (hf : ∀ entry, (f entry).socket = entry.socket) :
    Guards born others doomed ⟨r.refile t f, past⟩ := by
  have hsound : r.registry.Sound := h.filed.registry
  have hheld : (r.refile t f).held = r.held := by
    show r.listener :: (r.registry.modify t f).sockets = r.held
    cases hg : r.registry.get? t with
    | none => rw [Registry.modify_of_stale hg]; rfl
    | some entry => rw [(Registry.modify_of_get? hsound hg f (hf entry)).2.1]; rfl
  refine ⟨?_, Registry.sound_modify hsound t f, fun x entry he => ?_⟩
  · show Custody born (others ++ (r.refile t f).held.map (·, .ready)) doomed past
    rw [hheld]
    exact h.custody
  · obtain ⟨entry', hentry', hsame⟩ := Registry.entryAt_of_modify hsound he
    have hsocket := h.filed.socket x entry' hentry'
    rcases hsame with rfl | rfl
    · exact hsocket
    · rw [hf, hsocket]

/-- A newcomer is held when it is filed. -/
theorem Scene.Guards.enrolled {t : Ticket}
    (h : Guards born ((fd, .ready) :: others) none ⟨r, past⟩)
    (ht : (Registry.insert fd (r.newcomer fd) r.registry).1 = .ok t) :
    Guards born others none ⟨r.enrolled fd, past⟩ := by
  obtain ⟨hsound, hsockets, hentryAt⟩ := Registry.insert_ok h.filed.registry ht
  have hheld : (r.enrolled fd).held.Perm (fd :: r.held) :=
    (hsockets.cons r.listener).trans (List.Perm.swap _ _ _)
  refine ⟨h.custody.perm ?_, hsound, fun x entry he => ?_⟩
  · have hcustody :
        ((fd :: r.held).map fun x => (x, Standing.ready)).Perm (r.enrolled fd).custody :=
      hheld.symm.map _
    exact List.perm_middle.symm.trans (hcustody.append_left others)
  · have hentry : (if x = fd then some (r.newcomer fd) else r.registry.entryAt x) = some entry :=
      (hentryAt x).symm.trans he
    split at hentry
    · rename_i hx
      cases hentry
      exact hx.symm
    · exact h.filed.socket x entry hentry

/-- A connection is held no longer when it is closed. -/
theorem Scene.Guards.hungUp {t : Ticket} {entry : Entry Descriptor} {e : Event} {tally : Tally}
    (h : Guards born others none ⟨r, past⟩) (hg : r.registry.get? t = some entry)
    (he : e.call = .close entry.socket) :
    Guards born others none ⟨{ r.without t with tally }, e :: past⟩ := by
  obtain ⟨-, -, hsound, hsockets, hentryAt⟩ := Registry.remove?_of_get? h.filed.registry hg
  have hheld : r.held.Perm (entry.socket :: (r.without t).held) :=
    (hsockets.cons r.listener).trans (List.Perm.swap _ _ _)
  have hcustody : (others ++ r.custody).Perm
      ((entry.socket, .ready) :: (others ++ (r.without t).custody)) :=
    ((hheld.map (·, Standing.ready)).append_left others).trans List.perm_middle
  refine ⟨(h.custody.perm hcustody).condemn.close he, hsound, fun x entry' hx => ?_⟩
  have hentry : (if x = t.fd then none else r.registry.entryAt x) = some entry' :=
    (hentryAt x).symm.trans hx
  split at hentry
  · cases hentry
  · exact h.filed.socket x entry' hentry

/-- Where nothing was filed anew and only what is ready was used, all is as it was. -/
theorem Scene.Guards.along {n n' : Node κ} (h : Guards born others none (Viewed.view n))
    (ha : n.reactor.Alike n'.reactor)
    (hp : Added (Call.Plain (others ++ n.reactor.custody)) n.world.past n'.world.past) :
    Guards born others none (Viewed.view n') := by
  refine ⟨?_, h.filed.alike ha⟩
  show Custody born (others ++ n'.reactor.custody) none n'.world.past
  rw [ha.custody_eq]
  exact h.custody.added hp

namespace Reactor

open Loop

variable [Kernel κ]

/-! ## Quiet actions -/

/-- Quiet actions with calls on what is ready leave all as it was. -/
theorem guards_quiet {m : Loop κ α} (hq : Quiet m)
    (hc : ∀ n : Node κ, n.reactor.Filed →
      Added (Call.Plain (others ++ n.reactor.custody)) n.world.past (m n).2.world.past) :
    Keeps (Guards born others none) m (Trusted born) where
  grows := hq.tame.grows.grows
  ensures := fun n h _ => h.along (hq.along n).1 (hc n h.filed)

theorem plain_clock {held : List (Descriptor × Standing)} {c : Call} (hc : c = .clock) :
    c.Plain held :=
  hc ▸ ⟨.inl trivial, rfl, nofun⟩

/-- To read the clock is to use nothing. -/
theorem guards_clock {m : Loop κ α} (hq : Quiet m) (hc : Calling (· = .clock) m) :
    Keeps (Guards born others none) m (Trusted born) :=
  guards_quiet hq fun n _ => (hc.added n).mono fun _ => plain_clock

theorem guards_start :
    Keeps (Guards born others none) (start : Loop κ Duration) (Trusted born) := by
  refine guards_quiet quiet_start fun n _ => (added_start n).mono fun c hc => ?_
  rcases hc with rfl | rfl
  · exact ⟨.inl trivial, rfl, nofun⟩
  · exact plain_clock rfl

theorem guards_report (last : Duration) :
    Keeps (Guards born others none) (report last : Loop κ Duration) (Trusted born) :=
  guards_clock (quiet_report last) (calling_report last)

theorem guards_finish : Keeps (Guards born others none) (finish : Loop κ Tally) (Trusted born) :=
  guards_clock quiet_finish calling_finish

/-- A wait is a call on what it is for. -/
theorem plain_of_asks {m : Multiplexor} {entries : List Registration} {highest : Descriptor}
    {limit : Option Duration} {held : List (Descriptor × Standing)} {c : Call}
    (hc : m.Asks entries highest limit c)
    (hready : ∀ fd ∈ entries.map (·.fd), (fd, .ready) ∈ held) : c.Plain held := by
  cases m with
  | select =>
    obtain ⟨-, rfl⟩ := hc
    refine ⟨.inl trivial, rfl, fun fd hfd => hready fd ?_⟩
    rcases List.mem_append.mp hfd with hfd | hfd
    · exact Multiplexor.mem_watched hfd
    · exact Multiplexor.mem_watched hfd
  | poll =>
    obtain rfl := hc
    exact ⟨.inl trivial, rfl, hready⟩
  | external name bound =>
    obtain rfl := hc
    exact ⟨.inl trivial, rfl, hready⟩

/-- A plan is for what the reactor watches. -/
theorem guards_prepare : Triple (Guards born others none) (prepare : Loop κ Plan)
    (Outcome.Ends
      (fun plan v => Guards born others none v ∧ plan.entries = v.reactor.registrations)
      (Guards born others none)) (Trusted born) := by
  have hkeeps : Keeps (Guards born others none) (prepare : Loop κ Plan) (Trusted born) :=
    guards_clock quiet_prepare calling_prepare
  refine ⟨hkeeps.grows, fun n h hlaw => ?_⟩
  have hafter := hkeeps.ensures n h hlaw
  obtain ⟨plan, n', hprepare, hprepares⟩ := Node.prepares_prepare n
  rw [hprepare] at hafter ⊢
  refine ⟨hafter, ?_⟩
  rw [hprepares.plan_eq]
  rfl

theorem guards_await (plan : Plan) :
    Triple (fun v => Guards born others none v ∧ plan.entries = v.reactor.registrations)
      (await plan : Loop κ (List Readiness)) (fun _ => Guards born others none) (Trusted born) where
  grows := (quiet_await plan).tame.grows.grows
  ensures := by
    intro n h _
    obtain ⟨h, hentries⟩ := h
    replace hentries : plan.entries = n.reactor.registrations := hentries
    refine h.along ((quiet_await plan).along n).1 ((added_await plan n).mono fun c hc => ?_)
    refine plain_of_asks hc fun fd hfd => mem_custody (h.filed.mem_held_of_registrations ?_)
    exact hentries ▸ hfd

/-! ## Accepting -/

omit [Kernel κ] in
theorem guards_log (level : Log.Level) (text : String) :
    Keeps (Guards born others doomed) (Loop.log level text : Loop κ Unit) (Trusted born) :=
  (silent_log _ _).triple fun _ _ h => h

omit [Kernel κ] in
theorem guards_adjust {f : Reactor → Reactor} (hf : ∀ r : Reactor, r.Alike (f r)) :
    Triple (Guards born others doomed) (Loop.adjust f : Loop κ Unit)
      (fun o v => o = .ok () ∧ Guards born others doomed v) (Trusted born) :=
  triple_adjust fun v _ h =>
    ⟨rfl, by rw [(hf v.reactor).custody_eq]; exact h.custody, h.filed.alike (hf _)⟩

omit [Kernel κ] in
/-- Counting is the first step of more. -/
theorem guards_count_bind {f : Tally → Tally} {g : Unit → Loop κ α} {R : Outcome α → Scene → Prop}
    (h : Triple (Guards born others doomed) (g ()) R (Trusted born)) :
    Triple (Guards born others doomed) (Loop.count f >>= g) R (Trusted born) :=
  Triple.done_bind (guards_adjust fun _ => ⟨rfl, rfl, rfl, rfl⟩) h

section

variable {m : Sys κ α} {good : α → List (Descriptor × Standing)}
  {bad : List (Descriptor × Standing)} {doomed' : Option Descriptor}

omit [Kernel κ] in
/-- What an action on the world does to what a known reactor has in custody. -/
theorem guards_sys_on (h : Triple (Custody born (others ++ r.custody) doomed) m
      (Outcome.Ends (fun a => Custody born (good a ++ r.custody) none)
        (Custody born (bad ++ r.custody) doomed')) (Trusted born)) :
    Triple (fun v => Guards born others doomed v ∧ v.reactor = r) (Loop.sys m)
      (Outcome.Ends (fun a => Guards born (good a) none) (Guards born bad doomed'))
      (Trusted born) where
  grows := fun n => h.grows n.world
  ensures := by
    intro n hn hlaw
    obtain ⟨⟨hcustody, hfiled⟩, rfl⟩ := hn
    exact (h.ensures n.world hcustody hlaw).imp (fun _ hc => ⟨hc, hfiled⟩) fun hc => ⟨hc, hfiled⟩

omit [Kernel κ] in
theorem guards_sys (h : ∀ held, Triple (Custody born (others ++ held) doomed) m
      (Outcome.Ends (fun a => Custody born (good a ++ held) none)
        (Custody born (bad ++ held) doomed')) (Trusted born)) :
    Triple (Guards born others doomed) (Loop.sys m)
      (Outcome.Ends (fun a => Guards born (good a) none) (Guards born bad doomed'))
      (Trusted born) where
  grows := fun n => (h []).grows n.world
  ensures := fun n hn hlaw => (guards_sys_on (h n.reactor.custody)).ensures n ⟨hn, rfl⟩ hlaw

end

theorem guards_close (fd : Descriptor) :
    Triple (Guards born others (some fd)) (Loop.sys (Socket.close fd) : Loop κ Unit)
      (fun o v => o = .ok () ∧ Guards born others none v) (Trusted born) := by
  have hclose : ∀ held, Triple (Custody born (others ++ held) (some fd))
      (Socket.close fd : Sys κ Unit) _ (Trusted born) := fun _ => Socket.custody_close fd
  refine triple_sys fun r => ⟨(hclose []).grows, fun w h hlaw => ?_⟩
  obtain ⟨ho, hcustody⟩ := (hclose r.custody).ensures w h.custody hlaw
  exact ⟨ho, hcustody, h.filed⟩

theorem guards_setNonBlocking (fd : Descriptor) :
    Triple (Guards born ((fd, .sealed) :: others) none)
      (Loop.sys (Socket.setNonBlocking fd) : Loop κ Unit)
      (Outcome.Ends (fun _ => Guards born ((fd, .ready) :: others) none)
        (Guards born others (some fd))) (Trusted born) :=
  guards_sys fun _ => Socket.custody_setNonBlocking fd

/-- An accepted socket is filed when it is ready, and closed if it does not come to that. -/
theorem guards_enrol (fd : Descriptor) (peer : Option Endpoint) :
    Triple (Guards born ((fd, .sealed) :: others) none) (enrol fd peer : Loop κ Unit)
      (fun _ => Guards born others none) (Trusted born) := by
  refine Triple.attempt_bind ((guards_setNonBlocking fd).flawless
    (flawless_sys (Socket.flawless_setNonBlocking fd))) (fun _ => ?_) fun e => ?_
  · refine triple_reactor_bind fun r => ?_
    have hclose : ∀ o : Outcome Unit,
        Triple (On r fun past => Guards born ((fd, .ready) :: others) none ⟨r, past⟩)
          (do
            Loop.sys (Socket.close fd)
            Action.ofOutcome o : Loop κ Unit)
          (fun _ => Guards born others none) (Trusted born) := by
      intro o
      refine Triple.done_bind ((guards_close fd).strengthen ?_) (Triple.ofOutcome fun _ _ h => h)
      rintro ⟨_, past⟩ _ ⟨rfl, h⟩
      exact ⟨h.custody.condemn, h.filed⟩
    refine Triple.strengthen
      (P := On r fun past => Guards born ((fd, .ready) :: others) none ⟨r, past⟩)
      (Triple.observe_bind (triple_filed fd) fun o => ?_) ?_
    · cases o with
      | ok _ =>
        refine Triple.strengthen (P := Guards born others none) ?_ ?_
        · refine guards_count_bind (Triple.bind (Q := fun _ => Guards born others none) ?_ fun _ =>
            guards_log _ _)
          exact triple_sys fun r => (Socket.silent_reportPeer peer).triple fun _ _ h => h
        · rintro ⟨_, past⟩ _ ⟨⟨rfl, h⟩, t, ht⟩
          exact h.enrolled ht
      | failed e => exact hclose (.failed e)
      | defect d => exact hclose (.defect d)
    · rintro ⟨_, past⟩ _ ⟨h, rfl⟩
      exact ⟨rfl, h⟩
  · refine (silent_log _ _).bind (guards_count_bind ?_)
    exact (guards_close fd).weaken (fun _ _ h => h) fun _ _ _ h => h.2

theorem guards_acceptOne :
    Keeps (Guards born others none) (acceptOne : Loop κ Unit) (Trusted born) := by
  refine triple_reactor_bind fun r => ?_
  have haccept : Triple (fun v => Guards born others none v ∧ v.reactor = r)
      (Loop.sys (Socket.accept r.listener) : Loop κ (Descriptor × Option Endpoint))
      (Outcome.Ends (fun accepted => Guards born ((accepted.1, .sealed) :: others) none)
        (Guards born others none)) (Trusted born) :=
    guards_sys_on (Socket.custody_accept (mem_custody List.mem_cons_self))
  refine Triple.attempt_bind (haccept.flawless (flawless_sys (Socket.flawless_accept _)))
    (fun accepted => guards_enrol accepted.1 accepted.2) fun e => ?_
  split
  · exact guards_log _ _
  · exact guards_clock (quiet_acceptFailed _) (calling_acceptFailed _)
  · rename_i heq
    cases heq

/-! ## Serving -/

/-- A handler receives or sends over the socket of its connection. -/
theorem guards_exchange {t : Ticket} {entry : Entry Descriptor}
    (hg : r.registry.get? t = some entry) (d : Direction) :
    Triple (fun v => Guards born others none v ∧ v.reactor = r)
      (exchange t entry d : Loop κ Interest) (fun _ => Guards born others none) (Trusted born) where
  grows := (exchange_grows t entry d).grows
  ensures := by
    intro n hn _
    obtain ⟨h, hr⟩ := hn
    obtain rfl : n.reactor = r := hr
    have hheld : entry.socket ∈ n.reactor.held := by
      refine List.mem_cons_of_mem _ ((Registry.mem_sockets h.filed.registry).mpr ?_)
      exact ⟨t.fd, entry, Registry.entryAt_of_get? hg, rfl⟩
    have hcalls : Calling (Call.Plain (others ++ n.reactor.custody))
        (exchange t entry d : Loop κ Interest) :=
      calling_exchange t entry d fun c hc => hc.plain (mem_custody hheld)
    have hafter : Guards born others none ⟨n.reactor, (exchange t entry d n).2.world.past⟩ :=
      ⟨h.custody.added (hcalls.added n), h.filed⟩
    obtain ⟨session, hr⟩ : ∃ session, (exchange t entry d n).2.reactor =
        n.reactor.refile t fun e => { e with session } := ⟨_, rfl⟩
    show Guards born others none ⟨(exchange t entry d n).2.reactor, _⟩
    rw [hr]
    exact hafter.refile t fun _ => rfl

theorem guards_hangUp (t : Ticket) :
    Keeps (Guards born others none) (hangUp t : Loop κ Unit) (Trusted born) where
  grows := (tame_hangUp t).grows.grows
  ensures := by
    intro n h _
    cases hg : n.reactor.registry.get? t with
    | none =>
      rw [Node.hangUp_stale hg]
      exact h
    | some entry =>
      obtain ⟨n', hn', hr, hp⟩ := Node.hangUp_apply h.filed.registry hg
      rw [hn']
      show Guards born others none ⟨n'.reactor, n'.world.past⟩
      rw [hr, hp]
      exact h.hungUp hg rfl

theorem guards_keep (t : Ticket) (interest : Interest) :
    Keeps (Guards born others none) (keep t interest : Loop κ Unit) (Trusted born) := by
  unfold keep
  split
  · exact guards_hangUp t
  · exact triple_adjust fun _ _ h => h.refile t fun _ => rfl

theorem guards_followUp (t : Ticket) (d : Direction) (old : Session)
    (answer : Except Failure Interest) :
    Keeps (Guards born others none) (followUp t d old answer : Loop κ Unit) (Trusted born) :=
  Keeps.bind (guards_clock (quiet_countTraffic t old) (calling_countTraffic t old)) fun _ =>
    Keeps.bind (guards_clock (quiet_verdict t answer) (calling_verdict t answer)) fun _ =>
      Keeps.bind (guards_log _ _) fun _ => guards_keep t _

theorem guards_serve (t : Ticket) (d : Direction) :
    Keeps (Guards born others none) (serve t d : Loop κ Unit) (Trusted born) := by
  refine triple_reactor_bind fun r => ?_
  split
  · exact Triple.pure fun _ _ h => h.1
  · rename_i entry hg
    exact Triple.attempt_bind (guards_exchange hg d) (fun _ => guards_followUp t d _ _)
      (fun _ => guards_followUp t d _ _) fun _ _ h => h

theorem guards_dispatch (ready : Readiness) :
    Keeps (Guards born others none) (dispatch ready : Loop κ Unit) (Trusted born) := by
  refine triple_reactor_bind fun r =>
    Triple.strengthen (P := Guards born others none) ?_ fun _ _ h => h.1
  split
  · exact Triple.when guards_acceptOne fun _ _ h => h
  · split
    · exact Triple.pure fun _ _ h => h
    · exact Keeps.bind (Triple.when (guards_serve _ _) fun _ _ h => h) fun _ =>
        Triple.when (guards_serve _ _) fun _ _ h => h

theorem guards_dispatchAll (ready : List Readiness) :
    Keeps (Guards born others none) (dispatchAll ready : Loop κ Unit) (Trusted born) := by
  induction ready with
  | nil => exact Triple.pure fun _ _ h => h
  | cons r rest ih => exact Keeps.bind (guards_dispatch r) fun _ => ih

theorem guards_complete (plan : Plan) :
    Triple (fun v => Guards born others none v ∧ plan.entries = v.reactor.registrations)
      (complete plan : Loop κ Nat) (fun _ => Guards born others none) (Trusted born) :=
  Triple.bind (guards_await plan) fun ready =>
    Keeps.bind (guards_dispatchAll ready) fun _ => Triple.pure fun _ _ h => h

theorem invariant_guards : Node.Invariant κ (fun _ => Guards born others none) (Trusted born) where
  start := guards_start
  wait := Triple.bind guards_prepare guards_await
  dispatch := fun ready _ => guards_dispatch ready
  report := guards_report
  finish := guards_finish

/-- Whatever comes of it, a run uses nothing but what is ready. -/
theorem guards_run (most : Nat) :
    Keeps (Guards born others none) (run most : Loop κ (Option Tally)) (Trusted born) where
  grows := fun _ => (Node.Reaches.here.run most).grows
  ensures := fun _ h hlaw => invariant_guards.holds (Node.Reaches.here.run most) (fun _ => h) hlaw

end Reactor

end SpanEcho

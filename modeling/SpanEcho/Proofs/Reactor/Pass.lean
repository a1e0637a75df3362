import SpanEcho.Proofs.Reactor.Accept
import SpanEcho.Proofs.Reactor.Serve

/-!
# Reactors stay sound

Every part of a pass takes a sound reactor to a sound one, however it ends, whatever the kernel
reports and whoever else lives in the same world.
-/

namespace SpanEcho.Reactor

open SpanEcho.Action Scene Loop

/-! ## What is waited for -/

theorem insertAscending_perm (r : Registration) (entries : List Registration) :
    (insertAscending r entries).Perm (r :: entries) := by
  induction entries with
  | nil => exact List.Perm.refl _
  | cons e rest ih =>
    rw [insertAscending]
    split
    · exact List.Perm.refl _
    · exact (ih.cons e).trans (List.Perm.swap _ _ _)

variable {r : Reactor} {traffic : Descriptor → Traffic}

theorem mem_interests (h : r.registry.Sound) {e : Registration} (he : e ∈ r.interests) :
    ∃ entry, r.registry.entryAt e.fd = some entry ∧ entry.interest = e.interest := by
  obtain ⟨⟨t, entry⟩, hmem, rfl⟩ := List.mem_map.mp he
  exact ⟨entry, Registry.entryAt_of_get? ((Registry.mem_toList h).mp hmem), rfl⟩

theorem Filed.interests_fd (h : r.Filed) :
    r.interests.map (·.fd) = r.registry.sockets := by
  rw [interests, Registry.sockets, List.map_map]
  refine List.map_congr_left fun ⟨t, entry⟩ hmem => ?_
  exact (h.socket t.fd entry
    (Registry.entryAt_of_get? ((Registry.mem_toList h.registry).mp hmem))).symm

/-- A registration is the listener's, or a connection's as its handler last asked. -/
theorem mem_registrations {e : Registration} (he : e ∈ r.registrations) :
    e = ⟨r.listener, .read⟩ ∨ e ∈ r.interests := by
  rw [registrations] at he
  split at he
  · rcases List.mem_cons.mp ((insertAscending_perm _ _).mem_iff.mp he) with h | h
    · exact .inl h
    · exact .inr (List.mem_filter.mp h).1
  · exact .inr (List.mem_filter.mp he).1

/-- What is waited for is part of what is held. -/
theorem Filed.registrations_held (h : r.Filed) :
    ∃ fds, fds.Sublist r.held ∧ (r.registrations.map (·.fd)).Perm fds := by
  have hconnections : ((r.interests.filter fun e => !e.interest.isEmpty).map (·.fd)).Sublist
      r.registry.sockets := by
    rw [← h.interests_fd]
    exact List.filter_sublist.map _
  rw [registrations]
  split
  · exact ⟨_, hconnections.cons_cons r.listener, (insertAscending_perm _ _).map _⟩
  · exact ⟨_, hconnections.cons r.listener, List.Perm.refl _⟩

theorem Filed.mem_held_of_registrations (h : r.Filed) {fd : Descriptor}
    (hfd : fd ∈ r.registrations.map (·.fd)) : fd ∈ r.held := by
  obtain ⟨fds, hsub, hperm⟩ := h.registrations_held
  exact hsub.subset (hperm.mem_iff.mp hfd)

theorem Filed.registrations_nodup (h : r.Filed) (hn : r.held.Nodup) :
    (r.registrations.map (·.fd)).Nodup := by
  obtain ⟨fds, hsub, hperm⟩ := h.registrations_held
  exact hperm.nodup_iff.mpr (hn.sublist hsub)

/-! ## Soundness -/

variable {κ α : Type} {others : List Descriptor} {theirs : Descriptor → Traffic}

/-- The reactor is `r`, and sound. -/
def SoundOn (r : Reactor) (others : List Descriptor) (theirs : Descriptor → Traffic) (v : Scene) :
    Prop :=
  v.Sound others theirs ∧ v.reactor = r

theorem sound_sys {m : Sys κ α} (h : ∀ traffic, Keeps (Ledger (r.held ++ others) traffic) m) :
    Keeps (SoundOn r others theirs) (Loop.sys m) where
  grows := fun n => (h fun _ => {}).grows n.world
  ensures := by
    intro n h hlaw
    obtain ⟨⟨traffic, hl, ha, hothers⟩, hr⟩ := h
    obtain rfl : n.reactor = r := hr
    exact ⟨⟨traffic, (h traffic).ensures n.world hl hlaw, ha, hothers⟩, rfl⟩

theorem sound_adjust {f : Reactor → Reactor} (h : ∀ r : Reactor, r.Alike (f r)) :
    Keeps (Sound others theirs) (Loop.adjust f : Loop κ Unit) := by
  refine triple_adjust ?_
  intro v _ h
  obtain ⟨traffic, hl, ha, hothers⟩ := h
  exact .of_near ha hothers ⟨h _, hl⟩

theorem sound_log (level : Log.Level) (text : String) :
    Keeps (Sound others theirs) (Loop.log level text : Loop κ Unit) :=
  (silent_log _ _).triple fun _ _ h => h

/-- A look at a sound reactor. -/
theorem sound_look {f : Reactor → Loop κ α} {Q : Outcome α → Scene → Prop}
    (h : ∀ r, Triple (SoundOn r others theirs) (f r) Q) :
    Triple (Sound others theirs) (Loop.reactor >>= f) Q :=
  triple_reactor_bind h

variable [Kernel κ]

theorem sound_now : Keeps (SoundOn r others theirs) (Loop.sys Sys.now : Loop κ Duration) :=
  sound_sys fun _ => Sys.keeps_now

theorem sound_acceptOne : Keeps (Sound others theirs) (acceptOne : Loop κ Unit) where
  grows := tame_acceptOne.grows.grows
  ensures := by
    intro n h hlaw
    obtain ⟨traffic, hl, ha, hothers⟩ := h
    have hlistener : n.reactor.listener ∈ n.reactor.held ++ others := List.mem_cons_self
    have hadmitted := (triple_acceptOne (r := n.reactor) hlistener).ensures n ⟨rfl, hl⟩ hlaw
    rcases hadmitted.cases ha hlaw with h | ⟨fd, -, h⟩
    · exact .of_near ha hothers h
    · exact .of_altered ha hothers h

/-- A ticket that no longer finds its connection is passed over. -/
theorem serve_stale {t : Ticket} {n : Node κ} (h : n.reactor.registry.get? t = none)
    (d : Direction) : serve t d n = (.ok (), n) := by
  simp only [serve, bind_apply, Loop.reactor, h]
  rfl

theorem sound_serve (t : Ticket) (d : Direction) :
    Keeps (Sound others theirs) (serve t d : Loop κ Unit) where
  grows := (tame_serve t d).grows.grows
  ensures := by
    intro n h hlaw
    obtain ⟨traffic, hl, ha, hothers⟩ := h
    cases hg : n.reactor.registry.get? t with
    | none =>
      rw [serve_stale hg]
      exact ⟨traffic, hl, ha, hothers⟩
    | some entry =>
      have hpast := hlaw.of_suffix ((tame_serve t d).grows.grows n)
      obtain ⟨-, hserved⟩ := (triple_serve hl ha hg hpast d).ensures n ⟨rfl, rfl⟩ hlaw
      cases hserved with
      | kept _ _ altered => exact .of_altered ha hothers altered
      | closed _ altered => exact .of_altered ha hothers altered

theorem sound_dispatch (ready : Readiness) :
    Keeps (Sound others theirs) (dispatch ready : Loop κ Unit) := by
  have hwhen : ∀ (c : Bool) {m : Loop κ Unit}, Keeps (Sound others theirs) m →
      Keeps (Sound others theirs) (Action.when c m) := fun c _ hm => Triple.when hm fun _ _ h => h
  refine sound_look fun r => Triple.strengthen (P := Sound others theirs) ?_ fun _ _ h => h.1
  split
  · exact hwhen _ sound_acceptOne
  · split
    · exact Triple.pure fun _ _ h => h
    · exact Keeps.bind (hwhen _ (sound_serve _ _)) fun _ => hwhen _ (sound_serve _ _)

theorem sound_dispatchAll (ready : List Readiness) :
    Keeps (Sound others theirs) (dispatchAll ready : Loop κ Unit) := by
  induction ready with
  | nil => exact Triple.pure fun _ _ h => h
  | cons r rest ih => exact Keeps.bind (sound_dispatch r) fun _ => ih

theorem sound_resumeAccepting : Keeps (Sound others theirs) (resumeAccepting : Loop κ Unit) := by
  apply sound_look
  intro r
  split
  · exact Triple.pure fun _ _ h => h.1
  · refine Triple.bind sound_now (fun now => ?_) (fun _ _ h => h.1) fun _ _ h => h.1
    refine Triple.strengthen (P := Sound others theirs) ?_ fun _ _ h => h.1
    split
    · exact Keeps.bind (sound_log _ _) fun _ => sound_adjust fun _ => ⟨rfl, rfl, rfl, rfl⟩
    · exact Triple.pure fun _ _ h => h

theorem sound_waitLimit :
    Keeps (SoundOn r others theirs) (waitLimit : Loop κ (Option Duration)) := by
  refine triple_reactor_bind fun r' => Triple.strengthen (P := SoundOn r others theirs) ?_
    fun _ _ h => h.1
  split
  · exact Triple.pure fun _ _ h => h
  · apply Keeps.bind sound_now
    intro now
    split <;> exact Triple.pure fun _ _ h => h

/-- A plan is for what the reactor is watching now. -/
theorem sound_prepare :
    Triple (Sound others theirs) (prepare : Loop κ Plan)
      (Outcome.Ends (fun plan v => v.Sound others theirs ∧ plan.entries = v.reactor.registrations)
        (Sound others theirs)) := by
  refine Triple.bind sound_resumeAccepting fun _ => sound_look fun r => ?_
  refine Triple.bind sound_waitLimit (fun limit => ?_) (fun _ _ h => h.1) fun _ _ h => h.1
  exact Triple.pure fun _ _ ⟨hs, hr⟩ => ⟨hs, by rw [hr]⟩

/-- The wait of a plan that is for what the reactor watches. -/
theorem triple_await {plan : Plan} (ha : r.Accounts traffic)
    (hentries : plan.entries = r.registrations) :
    Triple (On r (Ledger (r.held ++ others) traffic)) (await plan : Loop κ (List Readiness))
      (Outcome.Ends
        (fun ready v => v.Near r (Ledger (r.held ++ others) traffic) ∧
          r.multiplexor.Lists r.registrations ready)
        (Near r (Ledger (r.held ++ others) traffic))) := by
  have hn : ∀ fd ∈ plan.entries.map (·.fd), fd ∈ r.held ++ others := by
    rw [hentries]
    exact fun fd hfd => List.mem_append_left _ (ha.filed.mem_held_of_registrations hfd)
  rw [← hentries]
  refine triple_look (quiet_await plan).tame ?_
  refine Triple.bind (triple_on (r.multiplexor.triple_wait plan.highest plan.limit hn))
    (fun ready => ?_) (fun _ _ h => h.near) fun _ _ h => h.near
  refine Triple.strengthen (count_bind ?_) fun _ _ h => h.near
  refine triple_reactor_bind fun r' => (silent_log _ _).bind ?_
  exact Triple.pure fun _ _ h => ⟨⟨h.1.1, h.1.2.1⟩, h.1.2.2⟩

theorem sound_await (plan : Plan) :
    Triple (fun v => v.Sound others theirs ∧ plan.entries = v.reactor.registrations)
      (await plan : Loop κ (List Readiness)) fun _ => Sound others theirs where
  grows := (quiet_await plan).tame.grows.grows
  ensures := by
    intro n h hlaw
    obtain ⟨⟨traffic, hl, ha, hothers⟩, hentries⟩ := h
    have hq := (triple_await ha hentries).ensures n ⟨rfl, hl⟩ hlaw
    exact hq.either (fun ready h => .of_near ha hothers h.1) fun h => .of_near ha hothers h

theorem sound_complete (plan : Plan) :
    Triple (fun v => v.Sound others theirs ∧ plan.entries = v.reactor.registrations)
      (complete plan : Loop κ Nat) fun _ => Sound others theirs :=
  Triple.bind (sound_await plan) fun ready =>
    Keeps.bind (sound_dispatchAll ready) fun _ => Triple.pure fun _ _ h => h

theorem sound_start : Keeps (Sound others theirs) (start : Loop κ Duration) := by
  apply sound_look
  intro r
  refine Triple.bind
    (Keeps.attempt (sound_sys fun _ => Socket.keeps_localAddress List.mem_cons_self))
    (fun address => ?_) (fun _ _ h => h.1) fun _ _ h => h.1
  refine (silent_log _ _).bind ?_
  exact sound_now.weaken (fun _ _ h => h) fun _ _ _ h => h.1

theorem sound_report (last : Duration) :
    Keeps (Sound others theirs) (report last : Loop κ Duration) := by
  apply sound_look
  intro r
  split
  · exact Triple.pure fun _ _ h => h.1
  · refine Triple.bind sound_now (fun now => ?_) (fun _ _ h => h.1) fun _ _ h => h.1
    split
    · refine triple_reactor_bind fun r' => (silent_log _ _).bind ?_
      exact sound_now.weaken (fun _ _ h => h.1) fun _ _ _ h => h.1
    · exact Triple.pure fun _ _ h => h.1

omit [Kernel κ] in
theorem sound_finish : Keeps (Sound others theirs) (finish : Loop κ Tally) :=
  sound_look fun _ => (silent_log _ _).bind (Triple.pure fun _ _ h => h.1)

end SpanEcho.Reactor

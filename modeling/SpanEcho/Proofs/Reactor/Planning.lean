import SpanEcho.Proofs.Reactor.Regular
import SpanEcho.Script.Kernel

/-!
# What a wait is for

Every wait is for all live connections, each as its handler last asked, and for the listener unless
accepting is paused, in ascending order of descriptor. The listener may have any number among the
others; it never has the number of a connection, as long as the kernel hands out no descriptor that
is open.
-/

namespace SpanEcho

open SpanEcho.Action Loop Reactor

/-! ## Registrations -/

namespace Reactor

variable {r : Reactor} {e : Registration} {entries : List Registration}

/-- The plan for a wait of at most `limit`. -/
def planFor (r : Reactor) (limit : Option Duration) : Plan :=
  { entries := r.registrations, highest := r.highest, limit }

theorem mem_insertAscending {x : Registration} :
    x ∈ insertAscending e entries ↔ x = e ∨ x ∈ entries :=
  (insertAscending_perm e entries).mem_iff.trans List.mem_cons

/-- A registration comes to stand before, between or after the others. -/
theorem insertAscending_pairwise (h : entries.Pairwise (·.fd < ·.fd))
    (hnew : ∀ x ∈ entries, x.fd ≠ e.fd) : (insertAscending e entries).Pairwise (·.fd < ·.fd) := by
  induction entries with
  | nil => exact List.pairwise_singleton _ e
  | cons x rest ih =>
    obtain ⟨hx, hrest⟩ := List.pairwise_cons.mp h
    rw [insertAscending]
    split
    · rename_i hlt
      refine List.pairwise_cons.mpr ⟨fun y hy => ?_, h⟩
      rcases List.mem_cons.mp hy with rfl | hy
      · exact hlt
      · exact Int.lt_trans hlt (hx y hy)
    · rename_i hle
      have hlt : x.fd < e.fd :=
        Int.lt_iff_le_and_ne.mpr ⟨Int.not_lt.mp hle, hnew x List.mem_cons_self⟩
      refine List.pairwise_cons.mpr ⟨fun y hy => ?_,
        ih hrest fun y hy => hnew y (List.mem_cons_of_mem x hy)⟩
      rcases mem_insertAscending.mp hy with rfl | hy
      · exact hlt
      · exact hx y hy

theorem interests_pairwise (h : r.registry.Sound) : r.interests.Pairwise (·.fd < ·.fd) :=
  List.pairwise_map.mpr (Registry.toList_ascending h)

/-- The connections as they are registered. -/
theorem mem_interests_iff :
    e ∈ r.interests ↔ ∃ t entry, (t, entry) ∈ r.registry.toList ∧ e = ⟨t.fd, entry.interest⟩ := by
  simp only [interests, List.mem_map, Prod.exists]
  exact exists_congr fun _ => exists_congr fun _ => and_congr_right fun _ => eq_comm

theorem Regular.asking_of_interests (h : r.Regular) (he : e ∈ r.interests) :
    e.interest.isEmpty = false := by
  obtain ⟨entry, hentry, hinterest⟩ := mem_interests h.sound he
  rw [← hinterest]
  exact h.asking e.fd entry hentry

/-- No connection is left out for want of an interest. -/
theorem Regular.registrations_eq (h : r.Regular) :
    r.registrations =
      if r.pausedUntil.isNone then insertAscending ⟨r.listener, .read⟩ r.interests
      else r.interests := by
  have hall : r.interests.filter (fun e => !e.interest.isEmpty) = r.interests :=
    List.filter_eq_self.mpr fun e he => by rw [h.asking_of_interests he]; rfl
  rw [registrations, hall]

theorem Regular.mem_registrations_iff (h : r.Regular) :
    e ∈ r.registrations ↔ r.pausedUntil = none ∧ e = ⟨r.listener, .read⟩ ∨
      ∃ t entry, (t, entry) ∈ r.registry.toList ∧ e = ⟨t.fd, entry.interest⟩ := by
  rw [← mem_interests_iff, h.registrations_eq]
  cases hpause : r.pausedUntil with
  | none => simp [mem_insertAscending]
  | some deadline => simp

theorem Regular.asking_of_registrations (h : r.Regular) (he : e ∈ r.registrations) :
    e.interest.isEmpty = false := by
  rcases mem_registrations he with rfl | he
  · rfl
  · exact h.asking_of_interests he

theorem Regular.registrations_pairwise (h : r.Regular)
    (hlistener : r.registry.entryAt r.listener = none) :
    r.registrations.Pairwise (·.fd < ·.fd) := by
  rw [h.registrations_eq]
  split
  · refine insertAscending_pairwise (interests_pairwise h.sound) fun x hx heq => ?_
    obtain ⟨entry, hentry, -⟩ := mem_interests h.sound hx
    rw [heq, hlistener] at hentry
    cases hentry
  · exact interests_pairwise h.sound

theorem Regular.le_highest (h : r.Regular) (he : e ∈ r.registrations) : e.fd ≤ r.highest := by
  rcases mem_registrations he with rfl | he
  · exact Int.le_max_left _ _
  · obtain ⟨entry, hentry, -⟩ := mem_interests h.sound he
    exact Int.le_trans (h.bounded e.fd entry hentry) (Int.le_max_right _ _)

/-- What is registered under the descriptor of the listener in a pause is a connection. -/
theorem Regular.own_of_registrations (h : r.Regular) (hpause : r.pausedUntil ≠ none)
    (he : e ∈ r.registrations) (hfd : e.fd = r.listener) : e.interest = .write := by
  rcases h.mem_registrations_iff.mp he with ⟨hnone, -⟩ | ⟨t, entry, hmem, rfl⟩
  · exact absurd hnone hpause
  · have hentry := Registry.entryAt_of_get? ((Registry.mem_toList h.sound).mp hmem)
    rw [show t.fd = r.listener from hfd] at hentry
    exact h.own entry hentry

/-- The listener is registered unless accepting is paused. -/
theorem Regular.listener_mem_iff (h : r.Regular) :
    ⟨r.listener, .read⟩ ∈ r.registrations ↔ r.pausedUntil = none := by
  constructor
  · intro he
    by_contra hpause
    exact nomatch h.own_of_registrations hpause he rfl
  · exact fun hpause => h.mem_registrations_iff.mpr (.inl ⟨hpause, rfl⟩)

/-- How long a wait may take with `left` to go until the end of a pause. -/
def patience (r : Reactor) (left : Duration) : Duration :=
  match r.settings.waitLimit with
  | none => left
  | some limit => min limit left

end Reactor

/-! ## Preparing -/

namespace Node

variable {κ : Type} [Kernel κ] {n n₁ : Node κ} {plan : Plan}

/-- How a wait is prepared. -/
inductive Prepares (n : Node κ) : Plan → Node κ → Prop
  /-- Accepting is not paused. -/
  | accepting (pause : n.reactor.pausedUntil = none) :
      Prepares n (n.reactor.planFor n.reactor.settings.waitLimit) n
  /-- The pause is over. -/
  | resumed {deadline : Duration} {n₁ : Node κ} (pause : n.reactor.pausedUntil = some deadline)
      (due : deadline ≤ (n.world.call .clock).1)
      (reactor : n₁.reactor = { n.reactor with pausedUntil := none })
      (past : n₁.world.past = (n.world.call .clock).2.past) :
      Prepares n (n₁.reactor.planFor n.reactor.settings.waitLimit) n₁
  /-- The pause goes on, and the wait does not outlast it. -/
  | paused {deadline : Duration} (pause : n.reactor.pausedUntil = some deadline)
      (early : (n.world.call .clock).1 < deadline) :
      Prepares n
        (n.reactor.planFor
          (some (n.reactor.patience (deadline - ((n.world.call .clock).2.call .clock).1))))
        { n with world := ((n.world.call .clock).2.call .clock).2 }

/-- A wait is always prepared. -/
theorem prepares_prepare (n : Node κ) :
    ∃ plan n₁, prepare n = (.ok plan, n₁) ∧ Prepares n plan n₁ := by
  cases hpause : n.reactor.pausedUntil with
  | none =>
    refine ⟨_, _, ?_, .accepting hpause⟩
    simp only [prepare, resumeAccepting, waitLimit, bind_apply, Loop.reactor, hpause, pure_apply]
    rfl
  | some deadline =>
    by_cases hdue : deadline ≤ (n.world.call .clock).1
    · let n₁ : Node κ :=
        { reactor := { n.reactor with pausedUntil := none }
          world := (n.world.call .clock).2.write ⟨some .debug, "resuming accepts"⟩ }
      refine ⟨_, n₁, ?_, .resumed hpause hdue rfl (World.write_past _ _)⟩
      simp only [prepare, resumeAccepting, waitLimit, bind_apply, Loop.reactor, hpause, pure_apply,
        Loop.sys, Sys.now, Sys.call, Action.onPart, if_pos hdue]
      rfl
    · refine ⟨_, _, ?_, .paused hpause (Nat.lt_of_not_le hdue)⟩
      simp only [prepare, resumeAccepting, waitLimit, bind_apply, Loop.reactor, hpause, pure_apply,
        Loop.sys, Sys.now, Sys.call, Action.onPart, if_neg hdue]
      unfold patience planFor
      cases n.reactor.settings.waitLimit <;> rfl

/-- What comes out of the preparation is known once it has ended. -/
theorem prepares_of_prepare (h : prepare n = (.ok plan, n₁)) : Prepares n plan n₁ := by
  obtain ⟨plan', n', hprepare, hprepares⟩ := prepares_prepare n
  rw [h] at hprepare
  cases hprepare
  exact hprepares

/-- A plan is for the reactor as it is at the wait. -/
theorem Prepares.plan_eq (h : Prepares n plan n₁) : plan = n₁.reactor.planFor plan.limit := by
  cases h <;> rfl

theorem Prepares.alike (h : Prepares n plan n₁) : n.reactor.Alike n₁.reactor := by
  cases h with
  | accepting => exact .refl _
  | resumed _ _ reactor => exact reactor ▸ ⟨rfl, rfl, rfl, rfl⟩
  | paused => exact .refl _

theorem Prepares.regular (h : Prepares n plan n₁) (hr : n.reactor.Regular) :
    n₁.reactor.Regular := by
  refine hr.alike h.alike ?_ ?_ <;> cases h with
  | accepting => rfl
  | resumed _ _ reactor => rw [reactor]
  | paused => rfl

/-! ## The descriptor of the listener -/

/-- The listener is open, and no connection has its descriptor. -/
structure Listening (n : Node κ) : Prop where
  opened : n.reactor.listener ∈ openAfter n.world.past
  apart : n.reactor.registry.entryAt n.reactor.listener = none

variable {n' : Node κ} {α : Type}

omit [Kernel κ] in
theorem Listening.of_alike (h : Listening n) (ha : n.reactor.Alike n'.reactor)
    (ho : openAfter n'.world.past = openAfter n.world.past) : Listening n' where
  opened := by rw [ho, ha.listener]; exact h.opened
  apart := by rw [ha.registry, ha.listener]; exact h.apart

theorem Listening.quiet {m : Loop κ α} (hm : Quiet m) (h : Listening n) : Listening (m n).2 := by
  obtain ⟨halike, hadded⟩ := hm.along n
  exact h.of_alike halike (hadded.openAfter_eq fun _ _ => openAfter_of_quiet)

theorem closed?_of_quiet {e : Event} (h : e.call.Quiet) : e.closed? = none := by
  obtain ⟨thread, call, reply, arrivals⟩ := e
  cases call <;> first | rfl | exact h.elim

/-- A descriptor stays open if it is not closed. -/
theorem mem_openAfter_of_added {allowed : Call → Prop} {past past' : List Event} {fd : Descriptor}
    (h : Added allowed past past') (hkept : ∀ e : Event, allowed e.call → e.closed? ≠ some fd)
    (hopen : fd ∈ openAfter past) : fd ∈ openAfter past' := by
  obtain ⟨moved, rfl, hmoved⟩ := h
  induction moved with
  | nil => exact hopen
  | cons e moved ih =>
    refine mem_openAfter_cons.mpr (.inr ⟨?_, hkept e (hmoved e List.mem_cons_self)⟩)
    exact ih fun x hx => hmoved x (List.mem_cons_of_mem e hx)

omit [Kernel κ] in
/-- What is accepted is not the listener, which was open. -/
theorem Accepting.listening {e : Event} {o : Outcome Unit} (h : Accepting n e o n')
    (hcall : e.call = .accept n.reactor.listener) (hl : Listening n) (ht : n.Tidy)
    (hfresh : Fresh n'.world.past) : Listening n' := by
  have hclosed : e.closed? = none := by rw [Event.closed?, hcall]
  have hnew : ∀ fd, e.opened? = some fd → fd ≠ n.reactor.listener := by
    rintro fd ho rfl
    exact (hfresh.of_suffix h.calls.suffix).1 _ ho hl.opened
  cases h with
  | nothing opened alike _ calls _ =>
    refine hl.of_alike alike ?_
    rw [calls.openAfter_eq fun _ _ => openAfter_of_quiet, openAfter_of_idle opened hclosed]
  | dropped opened _ alike before close after =>
    refine ⟨?_, by rw [alike.registry, alike.listener]; exact hl.apart⟩
    rw [alike.listener, after.openAfter_eq fun _ _ => openAfter_of_quiet, mem_openAfter_cons,
      before.openAfter_eq fun _ _ => openAfter_of_quiet, openAfter_of_opened opened]
    refine .inr ⟨List.mem_cons_of_mem _ hl.opened, fun hc => hnew _ opened ?_⟩
    rw [Event.closed?, close] at hc
    exact Option.some.inj hc
  | @filed _ fd opened _ inserted alike calls =>
    obtain ⟨t, hinserted⟩ := inserted
    have hlistener : n'.reactor.listener = n.reactor.listener := alike.listener
    refine ⟨?_, ?_⟩
    · rw [hlistener, calls.openAfter_eq fun _ _ => openAfter_of_quiet, openAfter_of_opened opened]
      exact List.mem_cons_of_mem _ hl.opened
    · rw [hlistener, alike.registry]
      exact ((Registry.insert_ok ht.sound hinserted).2.2 n.reactor.listener).trans
        ((if_neg (hnew fd opened).symm).trans hl.apart)

omit [Kernel κ] in
/-- A connection that is served closes its own socket at most. -/
theorem Turned.listening {fd : Descriptor} (h : Turned fd n n') (hne : fd ≠ n.reactor.listener)
    (hl : Listening n) : Listening n' := by
  have hlistener : n'.reactor.listener = n.reactor.listener := h.steady.listener
  refine ⟨?_, ?_⟩
  · rw [hlistener]
    refine mem_openAfter_of_added h.calls (fun e he hc => ?_) hl.opened
    rcases he with hquiet | hcarrier | ⟨hclose, -⟩
    · rw [closed?_of_quiet hquiet] at hc
      cases hc
    · rw [Event.closed?_of_carrier hcarrier] at hc
      cases hc
    · rw [Event.closed?, hclose] at hc
      exact hne (Option.some.inj hc)
  · rw [hlistener, Registry.entryAt, h.others _ hne.symm]
    exact hl.apart

theorem listening_dispatch (ready : Readiness) (hl : Listening n) (ht : n.Tidy)
    (hfresh : Fresh (dispatch ready n).2.world.past) : Listening (dispatch ready n).2 := by
  by_cases he : ready.fd = n.reactor.listener
  · rw [dispatch_listener he] at hfresh ⊢
    cases hr : ready.readable with
    | true =>
      rw [hr] at hfresh
      exact (accepting_acceptOne n).listening rfl hl ht hfresh
    | false => exact hl
  · exact (turned_dispatch he ht).listening he hl

end Node

open Node

/-! ## Reactors at the start -/

namespace Socket

variable {κ α : Type} [Kernel κ] {fd : Descriptor} {w w' : World κ}

/-- What goes well is not closed. -/
theorem openAfter_closingOnFailure {m : Sys κ α} {a : α} (hm : Sys.Quiet m)
    (h : closingOnFailure [fd] m w = (.ok a, w')) : openAfter w'.past = openAfter w.past := by
  have hadded := hm.added w
  rw [closingOnFailure_ok h] at hadded
  exact hadded.openAfter_eq fun _ _ => openAfter_of_quiet

/-- A socket that listens is open. -/
theorem mem_openAfter_listenOn {port : Nat} {backlog : Int} {reusePort : Bool}
    (h : listenOn port backlog reusePort w = (.ok fd, w')) : fd ∈ openAfter w'.past := by
  obtain ⟨number, w₁, hsocket, hlisten⟩ := bind_eq_ok.mp h
  have hquiet : Sys.Quiet (do
      setCloseOnExec (number : Descriptor)
      setOption number .reuseAddress
      Action.when reusePort (setOption number .reusePort)
      Sys.ask (.bind number ⟨.unspecified, port⟩) id
      Sys.ask (.listen number backlog) id
      pure (number : Descriptor) : Sys κ Descriptor) :=
    .bind (quiet_setCloseOnExec _) fun _ => .bind (Sys.quiet_ask (by exact trivial) _) fun _ =>
      .bind (.when (Sys.quiet_ask (by exact trivial) _)) fun _ =>
        .bind (Sys.quiet_ask (by exact trivial) _) fun _ =>
          .bind (Sys.quiet_ask (by exact trivial) _) fun _ => .pure _
  have hopened : (w.event .socket).opened? = some (number : Descriptor) ∧
      w₁.past = w.event .socket :: w.past := by
    rw [Sys.ask_apply] at hsocket
    obtain ⟨hreply, rfl⟩ := Prod.mk.inj hsocket
    refine ⟨?_, World.call_past _ _⟩
    have hok : (w.call .socket).1 = .ok number := Sys.ending_ok.mp hreply
    change Event.opened? ⟨_, .socket, (w.call .socket).1, _⟩ = _
    rw [hok]
    rfl
  have hfd : (number : Descriptor) = fd := by
    have hvalue := closingOnFailure_ok hlisten
    obtain ⟨_, _, -, hvalue⟩ := bind_eq_ok.mp hvalue
    obtain ⟨_, _, -, hvalue⟩ := bind_eq_ok.mp hvalue
    obtain ⟨_, _, -, hvalue⟩ := bind_eq_ok.mp hvalue
    obtain ⟨_, _, -, hvalue⟩ := bind_eq_ok.mp hvalue
    obtain ⟨_, _, -, hvalue⟩ := bind_eq_ok.mp hvalue
    exact Outcome.ok.inj (congrArg Prod.fst hvalue)
  rw [openAfter_closingOnFailure hquiet hlisten, hopened.2, openAfter_of_opened hopened.1, hfd]
  exact List.mem_cons_self

end Socket

section

variable {κ : Type} [Kernel κ] {m : Multiplexor} {s : Settings} {n₀ n : Node κ}
  {due : List Readiness}

theorem Reactor.openAfter_create {listener : Descriptor} {w w' : World κ} {r : Reactor}
    (h : create listener m s w = (.ok r, w')) : openAfter w'.past = openAfter w.past := by
  refine Socket.openAfter_closingOnFailure ?_ h
  exact .bind (.failIf _) fun _ => .bind (Socket.quiet_setNonBlocking _) fun _ =>
    .bind (.failIf _) fun _ => .bind (.reserve _) fun _ => .pure _

theorem Starting.listening (h : Starting m s n₀) : Listening n₀ := by
  suffices h : ∃ listener, n₀.reactor = fresh listener m s ∧ listener ∈ openAfter n₀.world.past by
    obtain ⟨listener, hr, hopen⟩ := h
    exact ⟨by rw [hr]; exact hopen, by rw [hr]; rfl⟩
  cases h with
  | created _ opened made =>
    refine ⟨_, (create_ok made).1, ?_⟩
    rw [openAfter_create made]
    exact Socket.mem_openAfter_listenOn opened
  | launched _ method made =>
    obtain ⟨listener, w₁, hlisten, made⟩ := bind_eq_ok.mp made
    obtain ⟨port, w₂, hport, made⟩ := bind_eq_ok.mp made
    obtain ⟨_, w₃, hlog, made⟩ := bind_eq_ok.mp made
    have hquiet : Sys.Quiet (do
        let address ← Socket.localAddress listener
        pure address.port : Sys κ Nat) :=
      .bind (Socket.quiet_localAddress _) fun _ => .pure _
    have hlogged : w₃.past = w₂.past := by
      obtain rfl : w₂.write _ = w₃ := congrArg Prod.snd hlog
      exact World.write_past _ _
    rw [method]
    refine ⟨listener, (create_ok made).1, ?_⟩
    rw [openAfter_create made, hlogged, Socket.openAfter_closingOnFailure hquiet hport]
    exact Socket.mem_openAfter_listenOn hlisten

theorem Starting.listening_of_reaches (hstart : Starting m s n₀) (hreach : n₀.Reaches n due)
    (hfresh : Fresh n.world.past) : Listening n := by
  induction hreach with
  | here => exact hstart.listening
  | start _ ih => exact (ih (hfresh.of_suffix (quiet_start.tame.grows.grows _))).quiet quiet_start
  | wait _ ih =>
    exact (ih (hfresh.of_suffix (quiet_wait.tame.grows.grows _))).quiet quiet_wait
  | dispatch hreach ih =>
    have hbefore := hfresh.of_suffix ((tame_dispatch _).grows.grows _)
    exact listening_dispatch _ (ih hbefore) (hstart.tidy_of_reaches hreach hbefore) hfresh
  | report _ last ih =>
    exact (ih (hfresh.of_suffix ((quiet_report last).tame.grows.grows _))).quiet (quiet_report last)
  | finish _ ih =>
    exact (ih (hfresh.of_suffix (quiet_finish.tame.grows.grows _))).quiet quiet_finish

/-! ## Waits -/

/-- **Every wait is for what it should be.** Whatever state a started reactor comes to, as long as
the kernel hands out no descriptor that is open, the next wait is for registrations in ascending
order of descriptor and without an empty interest; they are the live connections, each as its
handler last asked, and the listener, for reading, exactly if accepting is not paused. The bound of
the wait is no lower than any of them, and never lower than at an earlier wait. -/
theorem plan_of_reaches (hstart : Starting m s n₀) (hreach : n₀.Reaches n [])
    (hfresh : Fresh n.world.past) :
    ∃ plan n₁, prepare n = (.ok plan, n₁) ∧ Reactor.pass n = complete plan n₁ ∧
      plan.entries.Pairwise (·.fd < ·.fd) ∧
      (∀ e ∈ plan.entries, e.interest.isEmpty = false ∧ e.fd ≤ plan.highest) ∧
      (∀ e, e ∈ plan.entries ↔
        n₁.reactor.pausedUntil = none ∧ e = ⟨n₁.reactor.listener, .read⟩ ∨
          ∃ t entry, (t, entry) ∈ n₁.reactor.registry.toList ∧ e = ⟨t.fd, entry.interest⟩) ∧
      ∀ n' plan' n₁', n.Reaches n' [] → prepare n' = (.ok plan', n₁') →
        plan.highest ≤ plan'.highest := by
  have hregular := hstart.regular_of_reaches hreach
  obtain ⟨plan, n₁, hprepare, hprepares⟩ := prepares_prepare n
  have hregular₁ := hprepares.regular hregular
  have hlistening₁ : Listening n₁ := by
    have hquiet := (hstart.listening_of_reaches hreach hfresh).quiet quiet_prepare
    rwa [hprepare] at hquiet
  refine ⟨plan, n₁, hprepare, bind_of_ok hprepare, ?_⟩
  rw [hprepares.plan_eq]
  refine ⟨hregular₁.registrations_pairwise hlistening₁.apart,
    fun e he => ⟨hregular₁.asking_of_registrations he, hregular₁.le_highest he⟩,
    fun e => hregular₁.mem_registrations_iff, fun n' plan' n₁' hreach' hprepare' => ?_⟩
  have hprepares' := prepares_of_prepare hprepare'
  have hcontinued := hreach'.continued hregular
  rw [hprepares'.plan_eq]
  change max _ _ ≤ max _ _
  rw [hprepares.alike.listener, hprepares.alike.registry, hprepares'.alike.listener,
    hprepares'.alike.registry, hcontinued.steady.listener]
  exact max_le_max le_rfl hcontinued.highest

end

namespace Between

/-- Two connections are accepted, one under a lower and one under a higher descriptor than the
listener's. -/
def world : World Script :=
  let connection (fd : Nat) :=
    Script.Arriving.connection (some fd) ⟨2, 16, ⟨.unspecified, 40001⟩⟩ true {}
  let listener : Descriptor × Condition := (5, { readable := true })
  { level := .off
    kernel :=
      { socketNumbers := [5]
        queues := [(5, [connection 8, connection 4])]
        waits := [(.main, [{ ready := [listener] }, { ready := [listener] }])] } }

def settings : Settings := {}

def launched : Node Script :=
  ⟨.fresh 5 .poll settings, (Serving.launch settings world).2⟩

@[irreducible] def node : Node Script :=
  (Reactor.run 2 launched).2

def planned : Plan :=
  { entries := [⟨4, .write⟩, ⟨5, .read⟩, ⟨8, .write⟩], highest := 8, limit := none }

theorem plan_of_between :
    Fresh node.world.past ∧ prepare node = (.ok planned, (prepare node).2) ∧
      planned.entries.Pairwise (·.fd < ·.fd) ∧
      (∀ e ∈ planned.entries, e.interest.isEmpty = false ∧ e.fd ≤ 8) ∧
      ∀ e, e ∈ planned.entries ↔
        (prepare node).2.reactor.pausedUntil = none ∧
            e = ⟨(prepare node).2.reactor.listener, .read⟩ ∨
          ∃ t entry, (t, entry) ∈ (prepare node).2.reactor.registry.toList ∧
            e = ⟨t.fd, entry.interest⟩ := by
  have hmade : Serving.launch settings world = (.ok (.fresh 5 .poll settings), launched.world) :=
    Prod.ext (by decide +kernel) rfl
  have hstart : Starting .poll settings launched := .launched rfl rfl hmade
  have hreach : launched.Reaches node [] := by
    rw [node]
    exact Node.Reaches.here.run 2
  have hlaw : Lawful node.world.past := by decide +kernel
  have hprepare : prepare node = (.ok planned, (prepare node).2) := Prod.ext (by decide +kernel) rfl
  obtain ⟨plan, n₁, hplan, -, hascending, hasking, hmem, -⟩ :=
    plan_of_reaches hstart hreach hlaw.fresh
  rw [hprepare] at hplan
  cases hplan
  exact ⟨hlaw.fresh, hprepare, hascending, hasking, hmem⟩

end Between

end SpanEcho

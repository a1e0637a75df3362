import SpanEcho.Proofs.Reactor.Counters

/-!
# Accepted descriptors are accounted for

A socket that was accepted is filed, or it is closed again, and then the reactor tells why: it could
not be made non-blocking, which counts as an error, or it was refused, which ends the pass. One that
could not be made to close on execution is no error of a connection: it counts as a failed accept,
pauses accepting like one, or is not counted at all if the call was only put off. All this holds
whatever a kernel receives and sends.
-/

namespace SpanEcho

open SpanEcho.Action Loop Reactor

/-- A call to accept a connection, or to make one close on execution, failed for want of descriptors
or memory. -/
def Event.exhausts (e : Event) : Bool :=
  match e.call with
  | .accept _ | .descriptorFlags _ | .setDescriptorFlags _ _ => e.failure?.any (·.isExhaustion)
  | _ => false

theorem Event.exhausts_of_accept {e : Event} {fd : Descriptor} {why : Failure}
    (hcall : e.call = .accept fd) (hfailure : e.failure? = some why) (hwhy : why.isExhaustion) :
    e.exhausts := by
  rw [exhausts, hcall, hfailure]
  exact hwhy

theorem Event.exhausts_of_seals {e : Event} {fd : Descriptor} {why : Failure}
    (hcall : e.call.Seals fd) (hfailure : e.failure? = some why) (hwhy : why.isExhaustion) :
    e.exhausts := by
  rcases hcall with hcall | ⟨flags, hcall⟩ <;>
  · rw [exhausts, hcall, hfailure]
    exact hwhy

namespace Node

variable {κ : Type} {n n' n'' : Node κ}

/-! ## One accepted descriptor -/

/-- What becomes of a socket that was accepted under `fd`; `past` has the events up to
the accept. -/
inductive Accounted (fd : Descriptor) (n : Node κ) (past : List Event) :
    Outcome Unit → Node κ → Prop
  | filed {n' : Node κ} (entry : n'.reactor.registry.entryAt fd = some (n.reactor.newcomer fd))
      (opened : fd ∈ openAfter n'.world.past)
      (tally : n'.reactor.tally = { n.reactor.tally with accepts := n.reactor.tally.accepts + 1 })
      (pause : n'.reactor.pausedUntil = n.reactor.pausedUntil) : Accounted fd n past (.ok ()) n'
  /-- The pass ends, and nothing is counted. -/
  | refused {n' : Node κ} {why : Failure} (refuses : n.reactor.Refuses fd why) (fatal : why.isFatal)
      (closed : fd ∉ openAfter n'.world.past) (reactor : n'.reactor = n.reactor) :
      Accounted fd n past (.failed why) n'
  /-- The thread ends. -/
  | oversized {n' : Node κ} (large : Memory.largestBlock < n.reactor.settings.sendCapacity)
      (closed : fd ∉ openAfter n'.world.past) (reactor : n'.reactor = n.reactor) :
      Accounted fd n past (.defect (.blockTooLarge n.reactor.settings.sendCapacity)) n'
  /-- It could not be made non-blocking. -/
  | obstructed {n' : Node κ} {moved : List Event} {last : Event} {why : Failure}
      (calls : n'.world.past = moved ++ past) (made : last ∈ moved) (call : last.call.Unblocks fd)
      (failure : last.failure? = some why) (closed : fd ∉ openAfter n'.world.past)
      (reactor : n'.reactor = n.reactor.erring) : Accounted fd n past (.ok ()) n'
  /-- It could not be made to close on execution, and no error is counted. -/
  | exposed {n' : Node κ} {moved : List Event} {last : Event} {why : Failure}
      (calls : n'.world.past = moved ++ past) (made : last ∈ moved) (call : last.call.Seals fd)
      (failure : last.failure? = some why) (closed : fd ∉ openAfter n'.world.past)
      (reactor : if why.isWouldBlock then n'.reactor = n.reactor
        else ∃ now, n'.reactor = n.reactor.refused why now) : Accounted fd n past (.ok ()) n'

theorem Noted.refused {r : Reactor} {past : List Event} {why : Failure} (h : Noted r past why n') :
    Added (· = .clock) past n'.world.past ∧
      if why.isWouldBlock then n'.reactor = r else ∃ now, n'.reactor = r.refused why now := by
  cases h with
  | passed blocked reactor calls =>
    subst blocked
    exact ⟨calls ▸ .refl _, reactor⟩
  | @counted now hard reactor calls =>
    have hhard : why.isWouldBlock = false := by cases why <;> first | rfl | exact absurd rfl hard
    rw [hhard]
    exact ⟨calls, now, reactor⟩

theorem not_open_of_close {past : List Event} {closing : Event} {fd : Descriptor}
    (h : closing.call = .close fd) : fd ∉ openAfter (closing :: past) := by
  have hclosed : closing.closed? = some fd := by rw [Event.closed?, h]
  rw [openAfter_of_closed (Event.opened?_of_closed? hclosed) hclosed]
  simp

variable [Kernel κ] {e : Event} {o : Outcome Unit} {fd : Descriptor}

omit [Kernel κ] in
theorem Enrolling.accounted {later : List Event}
    (h : Enrolling n.reactor (later ++ e :: n.world.past) fd o n') (ho : e.opened? = some fd)
    (hquiet : ∀ x ∈ later, x.call.Quiet) (ht : n.Tidy) (hnew : fd ∉ openAfter n.world.past) :
    Accounted fd n (e :: n.world.past) o n' := by
  have hfd : 0 ≤ fd := Event.nonneg_of_opened? ho
  have hnone : n.reactor.registry.entryAt fd = none := Option.eq_none_iff_forall_not_mem.mpr
    fun entry hentry => hnew (ht.filed fd entry hentry).2.1
  cases h with
  | @blocking _ _ why closing unblocking close reactor calls =>
    have hclosed : fd ∉ openAfter n'.world.past := by
      rw [calls]
      exact not_open_of_close close
    cases unblocking with
    | @failed _ last before call failure _ =>
      have hpast : n'.world.past = (closing :: last :: before ++ later) ++ e :: n.world.past := by
        rw [calls]
        simp
      exact .obstructed hpast (by simp) call failure hclosed reactor
  | turnedAway _ bad cause close reactor calls =>
    have hclosed : fd ∉ openAfter n'.world.past := by
      rw [calls]
      exact not_open_of_close close
    cases o with
    | ok _ => exact absurd rfl bad
    | defect d =>
      obtain ⟨-, rfl, hlarge⟩ := cause
      exact .oversized hlarge hclosed reactor
    | failed why =>
      have hrefuses : n.reactor.Refuses fd why := by
        rcases cause with hrefusal | ⟨-, hinsert⟩
        · exact refuses_of_refusal hrefusal hfd
        · exact refuses_of_insert ht hinsert hfd hnone
      exact .refused hrefuses hrefuses.isFatal hclosed reactor
  | filed unblocking _ inserted reactor calls =>
    obtain ⟨t, hinsert⟩ := inserted
    have hadded : Added Call.Quiet (e :: n.world.past) n'.world.past := by
      rw [calls, ← List.append_assoc]
      refine .of_quiet fun x hx => ?_
      rcases List.mem_append.mp hx with hx | hx
      · exact (unblocking.allowed x hx).quiet
      · exact hquiet x hx
    refine .filed ?_ ?_ (by rw [reactor]; rfl) (by rw [reactor]; rfl)
    · have hentryAt := (Registry.insert_ok ht.sound hinsert).2.2 fd
      rw [if_pos rfl] at hentryAt
      rw [reactor]
      exact hentryAt
    · rw [hadded.openAfter_eq fun _ _ => openAfter_of_quiet, openAfter_of_opened ho]
      exact List.mem_cons_self

omit [Kernel κ] in
/-- Whichever way accepting goes, a descriptor that was not open before is accounted for. -/
theorem Reception.accounted (h : Reception n e o n') (ho : e.opened? = some fd) (ht : n.Tidy)
    (hnew : fd ∉ openAfter n.world.past) : Accounted fd n (e :: n.world.past) o n' := by
  cases h with
  | failed opened =>
    rw [opened] at ho
    cases ho
  | @unsealed _ number _ why closing opened sealing close noted =>
    obtain rfl : number = fd := Option.some.inj (opened.symm.trans ho)
    obtain ⟨⟨clocks, hpast, hclocks⟩, hreactor⟩ := noted.refused
    have hclosed : number ∉ openAfter n'.world.past := by
      have hquiet : ∀ x ∈ clocks, x.call.Quiet := fun x hx => by
        rw [show x.call = .clock from hclocks x hx]
        exact trivial
      rw [hpast, (Added.of_quiet hquiet).openAfter_eq fun _ _ => openAfter_of_quiet]
      exact not_open_of_close close
    cases sealing with
    | @failed _ last before call failure _ =>
      have hcalls : n'.world.past = (clocks ++ closing :: last :: before) ++ e :: n.world.past := by
        rw [hpast]
        simp
      exact .exposed hcalls (by simp) call failure hclosed hreactor
  | @sealed _ _ number _ opened sealing enrolling =>
    obtain rfl : number = fd := Option.some.inj (opened.symm.trans ho)
    exact enrolling.accounted opened (fun x hx => (sealing.allowed x hx).quiet) ht hnew

/-! ## All of a run -/

/-- Failed accepts are counted as they happen, and accepting is paused after one for want of
descriptors or memory only. -/
structure Charges (n n' : Node κ) : Prop where
  grows : n.world.past <:+ n'.world.past
  acceptErrors : n'.reactor.tally.acceptErrors + (tallyOf n.world.past).acceptErrors =
    n.reactor.tally.acceptErrors + (tallyOf n'.world.past).acceptErrors
  pause : n'.reactor.pausedUntil = n.reactor.pausedUntil ∨ n'.reactor.pausedUntil = none ∨
    ∃ e ∈ n'.world.past, e.exhausts

omit [Kernel κ] in
theorem Charges.refl (n : Node κ) : Charges n n :=
  ⟨List.suffix_rfl, rfl, .inl rfl⟩

omit [Kernel κ] in
theorem Charges.trans (h : Charges n n') (h' : Charges n' n'') : Charges n n'' where
  grows := h.grows.trans h'.grows
  acceptErrors := by
    have herrors := h.acceptErrors
    have herrors' := h'.acceptErrors
    omega
  pause := by
    rcases h'.pause with hpause | hpause
    · rw [hpause]
      exact h.pause.imp_right fun hp => hp.imp_right fun ⟨e, he, hexhausts⟩ =>
        ⟨e, h'.grows.subset he, hexhausts⟩
    · exact .inr hpause

omit [Kernel κ] in
theorem Idle.charges (h : Idle n n') (hgrows : n.world.past <:+ n'.world.past) : Charges n n' where
  grows := hgrows
  acceptErrors := by rw [h.tally, h.past]
  pause := h.pause.imp_right .inl

omit [Kernel κ] in
theorem Counts.charges {d : Tally} (h : Counts d n n') (hgrows : n.world.past <:+ n'.world.past)
    (hpause : n'.reactor.pausedUntil = n.reactor.pausedUntil ∨ n'.reactor.pausedUntil = none ∨
      ∃ e ∈ n'.world.past, e.exhausts) : Charges n n' where
  grows := hgrows
  acceptErrors := by
    have htally :
        n'.reactor.tally.acceptErrors = n.reactor.tally.acceptErrors + d.acceptErrors := by
      rw [h.tally]
      rfl
    have hpast : (tallyOf n'.world.past).acceptErrors =
        (tallyOf n.world.past).acceptErrors + d.acceptErrors := by
      rw [h.past]
      rfl
    omega
  pause := hpause

omit [Kernel κ] in
theorem Reception.charges (h : Reception n e o n') (hcall : e.call = .accept n.reactor.listener)
    (hgrows : n.world.past <:+ n'.world.past) : Charges n n' := by
  obtain ⟨d, hcounts, -⟩ := h.counts hcall
  refine hcounts.charges hgrows ?_
  have hnoted : ∀ {past : List Event} {why : Failure}, Noted n.reactor past why n' →
      (why.isExhaustion → ∃ x ∈ past, x.exhausts) →
      n'.reactor.pausedUntil = n.reactor.pausedUntil ∨ n'.reactor.pausedUntil = none ∨
        ∃ x ∈ n'.world.past, x.exhausts := by
    intro past why hn hexhausted
    cases hn with
    | passed _ reactor => exact .inl (by rw [reactor])
    | counted _ reactor calls =>
      by_cases hwhy : why.isExhaustion
      · obtain ⟨x, hx, hexhausts⟩ := hexhausted hwhy
        exact .inr (.inr ⟨x, calls.suffix.subset hx, hexhausts⟩)
      · exact .inl (by rw [reactor, Reactor.refused, if_neg hwhy])
  cases h with
  | failed opened failure noted =>
    exact hnoted noted fun hwhy =>
      ⟨e, List.mem_cons_self, Event.exhausts_of_accept hcall failure hwhy⟩
  | unsealed opened sealing close noted =>
    cases sealing with
    | @failed _ last before call failure _ =>
      exact hnoted noted fun hwhy => ⟨last, by simp, Event.exhausts_of_seals call failure hwhy⟩
  | sealed opened sealing enrolling =>
    cases enrolling with
    | blocking _ _ reactor => exact .inl (by rw [reactor]; rfl)
    | turnedAway _ _ _ _ reactor => exact .inl (by rw [reactor])
    | filed _ _ _ reactor => exact .inl (by rw [reactor]; rfl)

/-! ### Serving -/

/-- Put together from actions that charge only what they should. -/
abbrev Charging {α : Type} (m : Loop κ α) : Prop :=
  Composed (fun _ m => ∀ n : Node κ, Charges n (m n).2) m

omit [Kernel κ] in
theorem Charging.charges {α : Type} {m : Loop κ α} (hm : Charging m) (n : Node κ) :
    Charges n (m n).2 :=
  Composed.along (R := Charges) .refl (fun _ _ _ h h' => h.trans h') hm (fun _ _ hb => hb) n

omit [Kernel κ] in
theorem charging_adjust {f : Reactor → Reactor}
    (herrors : ∀ r, (f r).tally.acceptErrors = r.tally.acceptErrors)
    (hpause : ∀ r, (f r).pausedUntil = r.pausedUntil) : Charging (Loop.adjust f : Loop κ Unit) :=
  .basic fun n => ⟨List.suffix_rfl, congrArg (· + _) (herrors n.reactor), .inl (hpause n.reactor)⟩

omit [Kernel κ] in
theorem charging_count {f : Tally → Tally} (h : ∀ t, (f t).acceptErrors = t.acceptErrors) :
    Charging (Loop.count f : Loop κ Unit) :=
  charging_adjust (fun r => h r.tally) fun _ => rfl

omit [Kernel κ] in
theorem charging_log (level : Log.Level) (text : String) :
    Charging (Loop.log level text : Loop κ Unit) :=
  .basic fun n => by
    have hpast : (n.world.write ⟨some level, text⟩).past = n.world.past := World.write_past _ _
    exact ⟨hpast ▸ List.suffix_rfl,
      congrArg (fun past => _ + (tallyOf past).acceptErrors) hpast.symm, .inl rfl⟩

omit [Kernel κ] in
theorem charging_reactor : Charging (Loop.reactor : Loop κ Reactor) :=
  .basic .refl

theorem charging_close (fd : Descriptor) : Charging (Loop.sys (Socket.close fd) : Loop κ Unit) :=
  .basic fun n => by
    have hpast : ((n.world.call (.close fd)).2).past = n.world.event (.close fd) :: n.world.past :=
      World.call_past _ _
    refine ⟨hpast ▸ List.suffix_cons _ _, ?_, .inl rfl⟩
    show _ + _ = _ + (tallyOf (n.world.call (.close fd)).2.past).acceptErrors
    rw [hpast, tallyOf, Event.tally_of_close rfl, Tally.add_empty]
    rfl

/-- Only accepting fails as an accept. -/
theorem charging_exchange (t : Ticket) (entry : Entry Descriptor) (d : Direction) :
    Charging (exchange t entry d : Loop κ Interest) :=
  .basic fun n => by
    have hgrows := (exchange_grows t entry d).grows n
    refine ⟨hgrows, ?_, .inl rfl⟩
    show n.reactor.tally.acceptErrors + _ = _
    rcases exchange_world t entry d n with hworld | ⟨c, hcarrier, hworld⟩
    · rw [hworld]
    · have hevent : (n.world.event c).tally.acceptErrors = 0 := by
        rw [Event.tally_of_carrier hcarrier]
        rfl
      rw [hworld, World.call_past, tallyOf, Tally.acceptErrors_add, hevent]
      rfl

theorem charging_hangUp (t : Ticket) : Charging (hangUp t : Loop κ Unit) := by
  refine .bind charging_reactor fun r => ?_
  split
  · exact .pure ()
  · split
    · exact .stop _
    · refine .bind (charging_adjust (fun _ => rfl) fun _ => rfl) fun _ => ?_
      refine .bind (charging_close _) fun _ => .bind (charging_log _ _) fun _ => ?_
      exact charging_count fun _ => rfl

theorem charging_followUp (t : Ticket) (d : Direction) (old : Session)
    (answer : Except Failure Interest) : Charging (followUp t d old answer : Loop κ Unit) := by
  refine .bind ?_ fun _ => .bind ?_ fun interest => .bind (charging_log _ _) fun _ => ?_
  · refine .bind charging_reactor fun r => ?_
    split
    · exact .pure ()
    · split
      · exact .stop _
      · exact charging_count fun _ => rfl
  · cases answer with
    | ok interest => exact .pure interest
    | error why =>
      exact .bind (charging_log _ _) fun _ => .bind (charging_count fun _ => rfl) fun _ => .pure _
  · unfold keep
    split
    · exact charging_hangUp t
    · exact charging_adjust (fun _ => rfl) fun _ => rfl

theorem charging_serve (t : Ticket) (d : Direction) : Charging (serve t d : Loop κ Unit) := by
  refine .bind charging_reactor fun r => ?_
  split
  · exact .pure ()
  · exact .bind (.attempt (charging_exchange _ _ _)) fun answer => charging_followUp _ _ _ answer

theorem charges_dispatch (ready : Readiness) (n : Node κ) : Charges n (dispatch ready n).2 := by
  by_cases he : ready.fd = n.reactor.listener
  · have hgrows := (tame_dispatch ready).grows.grows n
    rw [dispatch_listener he] at hgrows ⊢
    cases hr : ready.readable with
    | true =>
      rw [hr] at hgrows
      exact (reception_acceptOne n).charges rfl hgrows
    | false => exact .refl n
  · cases hf : n.reactor.registry.find? ready.fd with
    | none =>
      rw [dispatch_missing he hf]
      exact .refl n
    | some t =>
      rw [dispatch_found he hf]
      have hboth : Charging (serveReady t ready : Loop κ Unit) :=
        .bind (.when (charging_serve t .receive)) fun _ => .when (charging_serve t .send)
      exact hboth.charges n

theorem charges_wait (n : Node κ) : Charges n ((prepare >>= await) n).2 := by
  refine (counts_wait n).charges (quiet_wait.tame.grows.grows n) ?_
  obtain ⟨plan, n₁, hprepare⟩ := sure_prepare n
  have hidle := (idling_prepare (κ := κ)).idle n
  rw [hprepare] at hidle
  rw [bind_of_ok hprepare, (counts_await plan n₁).2.2]
  exact hidle.pause.imp_right .inl

/-- Whatever happens between two states, failed accepts are charged. -/
theorem Reaches.charges {n₀ : Node κ} {due : List Readiness} (h : n₀.Reaches n due) :
    Charges n₀ n := by
  induction h with
  | here => exact .refl n₀
  | @start n _ ih => exact ih.trans ((idling_start.idle n).charges (quiet_start.tame.grows.grows n))
  | @wait n _ ih => exact ih.trans (charges_wait n)
  | @dispatch n ready _ _ ih => exact ih.trans (charges_dispatch ready n)
  | @report n _ last ih =>
    exact ih.trans (((idling_report last).idle n).charges ((quiet_report last).tame.grows.grows n))
  | @finish n _ ih =>
    exact ih.trans ((idling_finish.idle n).charges (quiet_finish.tame.grows.grows n))

end Node

open Node

variable {κ : Type} [Kernel κ] {m : Multiplexor} {s : Settings} {n₀ n : Node κ}
  {due : List Readiness}

/-- A reactor is made without failed accepts, and with no pause. -/
theorem Starting.uncharged (h : Starting m s n₀) :
    n₀.reactor.tally.acceptErrors = 0 ∧ n₀.reactor.pausedUntil = none := by
  obtain ⟨listener, hfresh, -⟩ := h.made
  rw [hfresh]
  exact ⟨rfl, rfl⟩

/-- **Accepted descriptors are accounted for.** In every state a started reactor comes to, the
failed accepts are the calls to accept and the calls to make a socket close on execution that
failed, and accepting is paused only after one that failed for want of descriptors or memory. What
is accepted there under a descriptor that was not open is accounted for. -/
theorem accounted_of_accepted (hstart : Starting m s n₀) (hreach : n₀.Reaches n due) :
    n.reactor.stats.acceptErrors =
        n.world.trace.countP (·.refuses) + n.world.trace.countP (·.exposes) ∧
      (n.reactor.pausedUntil ≠ none → ∃ e ∈ n.world.trace, e.exhausts) ∧
      ∀ ready rest, due = ready :: rest → ready.fd = n.reactor.listener → ready.readable →
        Fresh (Reactor.dispatch ready n).2.world.past →
        ∃ e, e = n.world.event (.accept n.reactor.listener) ∧
          e :: n.world.past <:+ (Reactor.dispatch ready n).2.world.past ∧
          ∀ fd, e.opened? = some fd → Accounted fd n (e :: n.world.past)
            (Reactor.dispatch ready n).1 (Reactor.dispatch ready n).2 := by
  obtain ⟨herrors, hpause⟩ := hstart.uncharged
  have hcharges := hreach.charges
  refine ⟨?_, fun hpaused => ?_, ?_⟩
  · have hcounted := hcharges.acceptErrors
    rw [hstart.tallyOf_eq, herrors, tallyOf_eq] at hcounted
    simp only [Reactor.stats, World.trace, List.countP_reverse]
    exact hcounted.trans (Nat.zero_add _)
  · rcases hcharges.pause with hp | hp | ⟨e, he, hexhausts⟩
    · rw [hp, hpause] at hpaused
      exact absurd rfl hpaused
    · exact absurd hp hpaused
    · exact ⟨e, List.mem_reverse.mpr he, hexhausts⟩
  · rintro ready rest rfl hfd hreadable hfresh
    have hgrows := (tame_dispatch ready).grows.grows n
    have ht : n.Tidy := hstart.tidy_of_reaches hreach (hfresh.of_suffix hgrows)
    have hdispatch : Reactor.dispatch ready n = acceptOne n := by
      rw [dispatch_listener hfd, hreadable]
      rfl
    have hreception := reception_acceptOne n
    have hsuffix := (hreception.accepting rfl).calls.suffix
    rw [hdispatch] at hfresh ⊢
    have hnew := hfresh.of_suffix hsuffix
    exact ⟨_, rfl, hsuffix, fun fd ho => hreception.accounted ho ht (hnew.1 fd ho)⟩

namespace Exposed

/-- A connection that cannot be made to close on execution. -/
def world : World Script :=
  { level := .off
    kernel :=
      { queues := [(3, [.connection none ⟨2, 16, ⟨.unspecified, 40001⟩⟩ true {}])]
        waits := [(.main, [{ ready := [(3, { readable := true })] }])]
        mishaps := [{ operation := "fcntl(F_GETFD)", errno := 5, fd := some 4 }] } }

def settings : Settings := {}

def launched : Node Script :=
  ⟨.fresh 3 .poll settings, (Serving.launch settings world).2⟩

/-- The first wait. -/
@[irreducible] def woken : Outcome (List Readiness) × Node Script :=
  (prepare >>= await : Loop Script (List Readiness)) launched

/-- The accept that follows. -/
@[irreducible] def served : Outcome Unit × Node Script :=
  Reactor.dispatch ⟨3, true, false⟩ woken.2

theorem starting : Starting .poll settings launched := by
  have hmade : Serving.launch settings world = (.ok (.fresh 3 .poll settings), launched.world) :=
    Prod.ext (by decide +kernel) rfl
  exact .launched rfl rfl hmade

theorem reaches_woken : launched.Reaches woken.2 [⟨3, true, false⟩] := by
  have hdue : Readiness.afterWait woken.1 = [⟨3, true, false⟩] := by decide +kernel
  rw [← hdue, woken]
  exact Node.Reaches.here.wait

theorem accounted_of_exposed :
    woken.2.reactor.stats.acceptErrors =
        woken.2.world.trace.countP (·.refuses) + woken.2.world.trace.countP (·.exposes) ∧
      Fresh served.2.world.past ∧ ∃ e : Event, e.opened? = some 4 ∧
        Accounted 4 woken.2 (e :: woken.2.world.past) served.1 served.2 := by
  have hfresh : Fresh served.2.world.past := Lawful.fresh (by decide +kernel)
  have hlistener : (3 : Descriptor) = woken.2.reactor.listener := by decide +kernel
  have hopened : (woken.2.world.event (.accept woken.2.reactor.listener)).opened? = some 4 := by
    decide +kernel
  obtain ⟨herrors, -, haccounted⟩ := accounted_of_accepted starting reaches_woken
  refine ⟨herrors, hfresh, _, hopened, ?_⟩
  rw [served] at hfresh ⊢
  obtain ⟨e, rfl, -, h⟩ := haccounted _ _ rfl hlistener rfl hfresh
  exact h 4 hopened

/-- The socket is closed again because a call that was to prepare it failed, and neither counter is
what it should be: no error is counted, but an accept that never failed. -/
theorem errors_of_exposed :
    Starting .poll settings launched ∧ launched.Reaches woken.2 [⟨3, true, false⟩] ∧
      woken.2.reactor.listener = 3 ∧ Fresh served.2.world.past ∧ served.1 = .ok () ∧
      (4 : Descriptor) ∉ openAfter woken.2.world.past ∧
      served.2.world.past.any (fun e => e.opened? = some 4) ∧
      (4 : Descriptor) ∉ openAfter served.2.world.past ∧
      served.2.reactor.stats = { woken.2.reactor.stats with acceptErrors := 1 } ∧
      woken.2.reactor.stats.acceptErrors = 0 ∧ served.2.world.trace.countP (·.refuses) = 0 := by
  refine ⟨starting, reaches_woken, by decide +kernel, Lawful.fresh (by decide +kernel), ?_⟩
  refine ⟨by decide +kernel, by decide +kernel, by decide +kernel, by decide +kernel, ?_⟩
  exact ⟨by decide +kernel, by decide +kernel, by decide +kernel⟩

end Exposed

end SpanEcho

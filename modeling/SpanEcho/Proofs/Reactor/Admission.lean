import SpanEcho.Proofs.Reactor.Reception

/-!
# What can come of accepting

A connection is accepted and filed, or its socket is closed again, or there was none. `Accepting`
has the cases with what the reactor and the past are in each, whatever the kernel replies.
-/

namespace SpanEcho

open SpanEcho.Action Loop Reactor

/-- Events of quiet calls before a past. -/
theorem Added.of_quiet {moved past : List Event} (h : ∀ e ∈ moved, e.call.Quiet) :
    Added Call.Quiet past (moved ++ past) :=
  ⟨moved, rfl, h⟩

namespace Node

variable {κ : Type} [Kernel κ] {n : Node κ}

/-- What can come of accepting; `e` is the event of the call. -/
inductive Accepting (n : Node κ) (e : Event) : Outcome Unit → Node κ → Prop
  /-- Nothing was accepted. -/
  | nothing {n' : Node κ} (opened : e.opened? = none) (alike : n.reactor.Alike n'.reactor)
      (errors : n'.reactor.tally.errors = n.reactor.tally.errors)
      (calls : Added Call.Quiet (e :: n.world.past) n'.world.past)
      (deferred : e.Deferred → n'.reactor = n.reactor ∧ n'.world.past = e :: n.world.past) :
      Accepting n e (.ok ()) n'
  /-- A socket was accepted and closed again. -/
  | dropped {o : Outcome Unit} {n' : Node κ} {fd : Descriptor} {past : List Event} {closing : Event}
      (opened : e.opened? = some fd) (ending : Drops n.reactor fd o)
      (alike : n.reactor.Alike n'.reactor) (before : Added Call.Quiet (e :: n.world.past) past)
      (close : closing.call = .close fd)
      (after : Added Call.Quiet (closing :: past) n'.world.past) : Accepting n e o n'
  /-- A socket was accepted and filed. -/
  | filed {n' : Node κ} {fd : Descriptor} (opened : e.opened? = some fd)
      (watchable : n.reactor.multiplexor.refusal? fd = none)
      (inserted : ∃ t, (Registry.insert fd (n.reactor.newcomer fd) n.reactor.registry).1 = .ok t)
      (alike : (n.reactor.enrolled fd).Alike n'.reactor)
      (calls : Added Call.Quiet (e :: n.world.past) n'.world.past) : Accepting n e (.ok ()) n'

omit [Kernel κ] in
theorem Noted.alike {r : Reactor} {past : List Event} {why : Failure} (h : Noted r past why n) :
    r.Alike n.reactor ∧ n.reactor.tally.errors = r.tally.errors ∧
    Added Call.Quiet past n.world.past := by
  cases h with
  | passed _ reactor calls => exact ⟨reactor ▸ .refl r, by rw [reactor], calls ▸ .refl _⟩
  | counted _ reactor calls =>
    refine ⟨reactor ▸ ⟨rfl, rfl, rfl, rfl⟩, by rw [reactor]; rfl, calls.mono fun c hc => ?_⟩
    subst hc
    exact trivial

omit [Kernel κ] in
/-- Whichever way accepting goes, it is one of the three. -/
theorem Reception.accepting {e : Event} {o : Outcome Unit} {n' : Node κ} (h : Reception n e o n')
    (hcall : e.call = .accept n.reactor.listener) : Accepting n e o n' := by
  cases h with
  | failed opened failure noted =>
    obtain ⟨halike, herrors, hadded⟩ := noted.alike
    refine .nothing opened halike herrors hadded fun hdeferred => ?_
    cases noted with
    | passed _ reactor past => exact ⟨reactor, past⟩
    | counted hard _ _ => exact absurd (e.failure?_of_deferred hcall hdeferred failure) hard
  | unsealed opened sealing close noted =>
    obtain ⟨halike, -, hadded⟩ := noted.alike
    have hquiet : Added Call.Quiet (e :: n.world.past) _ :=
      .of_quiet fun x hx => (sealing.allowed x hx).quiet
    exact .dropped opened trivial halike hquiet close hadded
  | sealed opened sealing enrolling =>
    have hquiet : Added Call.Quiet (e :: n.world.past) _ :=
      .of_quiet fun x hx => (sealing.allowed x hx).quiet
    cases enrolling with
    | blocking unblocking close reactor calls =>
      refine .dropped opened trivial (reactor ▸ ⟨rfl, rfl, rfl, rfl⟩)
        (hquiet.trans (.of_quiet fun x hx => (unblocking.allowed x hx).quiet)) close
        (calls ▸ .refl _)
    | turnedAway unblocking _ cause close reactor calls =>
      refine .dropped opened cause (reactor ▸ .refl _)
        (hquiet.trans (.of_quiet fun x hx => (unblocking.allowed x hx).quiet)) close
        (calls ▸ .refl _)
    | filed unblocking watchable inserted reactor calls =>
      refine .filed opened watchable inserted (reactor ▸ ⟨rfl, rfl, rfl, rfl⟩) ?_
      rw [calls]
      exact hquiet.trans (.of_quiet fun x hx => (unblocking.allowed x hx).quiet)

theorem accepting_acceptOne (n : Node κ) :
    Accepting n (n.world.event (.accept n.reactor.listener)) (acceptOne n).1 (acceptOne n).2 :=
  (reception_acceptOne n).accepting rfl

/-! ## Dispatching -/

/-- What can come of dispatching a ready descriptor: other connections stay as they are, bytes move
over a ready connection only, and only a ready listener brings a descriptor, which was not open. -/
structure Dispatched (fd : Descriptor) (n n' : Node κ) : Prop where
  tidy : n'.Tidy
  steady : n.reactor.Steady n'.reactor
  others : ∀ x entry, x ≠ fd → n.reactor.registry.entryAt x = some entry →
    n'.reactor.registry.slotAt x = n.reactor.registry.slotAt x
  calls : ∃ moved, n'.world.past = moved ++ n.world.past ∧ ∀ e ∈ moved, ∀ x,
    (Call.carrier? (Event.call e) = some x → x = fd ∧ fd ≠ n.reactor.listener) ∧
    (e.opened? = some x → fd = n.reactor.listener ∧ x ∉ openAfter n.world.past)

variable {n' : Node κ} {e : Event} {o : Outcome Unit}

omit [Kernel κ] in
/-- After the call that accepts, calls are quiet or close what was accepted. -/
theorem Accepting.calls (h : Accepting n e o n') :
    Added (fun c => c.Quiet ∨ ∃ fd, c = .close fd) (e :: n.world.past) n'.world.past := by
  cases h with
  | nothing _ _ _ calls _ => exact calls.mono fun _ => .inl
  | dropped _ _ _ before close after =>
    exact ((before.mono fun _ => .inl).trans (.single (.inr ⟨_, close⟩))).trans
      (after.mono fun _ => .inl)
  | filed _ _ _ _ calls => exact calls.mono fun _ => .inl

omit [Kernel κ] in
theorem Accepting.tidy (h : Accepting n e o n') (hcall : e.call = .accept n.reactor.listener)
    (ht : n.Tidy) (hfresh : Fresh n'.world.past) : n'.Tidy := by
  have hclosed : e.closed? = none := by rw [Event.closed?, hcall]
  have hnew : ∀ fd, e.opened? = some fd → fd ∉ openAfter n.world.past :=
    (hfresh.of_suffix h.calls.suffix).1
  cases h with
  | nothing opened alike _ calls _ =>
    refine ht.alike alike ?_
    rw [calls.openAfter_eq fun _ _ => openAfter_of_quiet, openAfter_of_idle opened hclosed]
  | dropped opened _ alike before close after =>
    refine ht.less alike.steady (by rw [alike.registry]; exact ht.used) fun x entry hx => ?_
    rw [alike.registry] at hx
    have hopen := (ht.filed x entry hx).2.1
    refine ⟨?_, entry, hx, rfl⟩
    rw [after.openAfter_eq fun _ _ => openAfter_of_quiet, mem_openAfter_cons,
      before.openAfter_eq fun _ _ => openAfter_of_quiet, openAfter_of_opened opened]
    refine .inr ⟨List.mem_cons_of_mem _ hopen, fun hc => hnew _ opened ?_⟩
    rw [Event.closed?, close] at hc
    rwa [Option.some.inj hc]
  | @filed _ fd opened watchable inserted alike calls =>
    obtain ⟨t, ht'⟩ := inserted
    obtain ⟨-, -, hentryAt⟩ := Registry.insert_ok ht.sound ht'
    have hregistry : n'.reactor.registry =
      (Registry.insert fd (n.reactor.newcomer fd) n.reactor.registry).2 := alike.registry
    refine ⟨?_, ?_, fun x entry hx => ?_⟩
    · rw [alike.settings, hregistry]
      exact ht.used.insert fd _
    · rw [alike.multiplexor, alike.listener]
      exact ht.listener
    · rw [hregistry, hentryAt] at hx
      rw [alike.multiplexor, calls.openAfter_eq fun _ _ => openAfter_of_quiet,
        openAfter_of_opened opened]
      split at hx
      · rename_i hxfd
        obtain rfl := Option.some.inj hx
        exact ⟨hxfd.symm, hxfd ▸ List.mem_cons_self, hxfd ▸ watchable⟩
      · obtain ⟨hsocket, hopen, hwatch⟩ := ht.filed x entry hx
        exact ⟨hsocket, List.mem_cons_of_mem _ hopen, hwatch⟩

omit [Kernel κ] in
theorem Accepting.dispatched (h : Accepting n e o n') (hcall : e.call = .accept n.reactor.listener)
    (ht : n.Tidy) (hfresh : Fresh n'.world.past) : Dispatched n.reactor.listener n n' := by
  have hnew : ∀ fd, e.opened? = some fd → fd ∉ openAfter n.world.past :=
    (hfresh.of_suffix h.calls.suffix).1
  have hcarrier : e.call.carrier? = none := by rw [hcall]; rfl
  refine ⟨h.tidy hcall ht hfresh, ?_, fun x entry _ hx => ?_, ?_⟩
  · cases h with
    | nothing _ alike => exact alike.steady
    | dropped _ _ alike => exact alike.steady
    | filed _ _ _ alike => exact ⟨alike.listener, alike.multiplexor, alike.settings⟩
  · cases h with
    | nothing _ alike => rw [alike.registry]
    | dropped _ _ alike => rw [alike.registry]
    | @filed _ fd _ _ inserted alike =>
      obtain ⟨t, ht'⟩ := inserted
      have hne : x ≠ fd := fun hxfd => by
        rcases Registry.insert_cases fd (n.reactor.newcomer fd) n.reactor.registry with
          ⟨e, he⟩ | ⟨hfree, -⟩
        · rw [he] at ht'
          cases ht'
        · rw [hxfd, hfree] at hx
          cases hx
      rw [alike.registry]
      exact (Registry.slotAt_insert ht.sound ht' x).trans (if_neg hne)
  · obtain ⟨later, hpast, hlater⟩ := h.calls
    refine ⟨later ++ [e], by rw [hpast]; simp, fun y hy x => ?_⟩
    rcases List.mem_append.mp hy with hy | hy
    · have hnone : y.call.carrier? = none ∧ y.opened? = none := by
        rcases hlater y hy with hquiet | ⟨fd, hclose⟩
        · exact ⟨Call.carrier?_of_quiet hquiet, Event.opened?_of_quiet hquiet⟩
        · have hclosed : y.closed? = some fd := by rw [Event.closed?, hclose]
          exact ⟨by rw [hclose]; rfl, Event.opened?_of_closed? hclosed⟩
      simp [hnone]
    · obtain rfl := List.mem_singleton.mp hy
      refine ⟨fun hc => ?_, fun ho => ⟨rfl, hnew x ho⟩⟩
      rw [hcarrier] at hc
      cases hc

omit [Kernel κ] in
/-- A ready connection is served, and one that is gone passed over. -/
theorem Turned.dispatched {fd : Descriptor} (h : Turned fd n n') (hne : fd ≠ n.reactor.listener) :
    Dispatched fd n n' := by
  refine ⟨h.tidy, h.steady, fun x _ hx _ => h.others x hx, ?_⟩
  obtain ⟨moved, hpast, hmoved⟩ := h.calls
  refine ⟨moved, hpast, fun y hy x => ?_⟩
  have hopened : y.opened? ≠ some x := fun ho => by
    obtain ⟨hquiet, hcarrier⟩ := Event.not_quiet_of_opened? ho
    rcases hmoved y hy with hq | hc | ⟨hclose, -⟩
    · exact hquiet hq
    · rw [hcarrier] at hc
      cases hc
    · have hclosed : y.closed? = some fd := by rw [Event.closed?, hclose]
      rw [Event.opened?_of_closed? hclosed] at ho
      cases ho
  refine ⟨fun hx => ⟨?_, hne⟩, fun ho => absurd ho hopened⟩
  rcases hmoved y hy with hq | hc | ⟨hclose, -⟩
  · rw [Call.carrier?_of_quiet hq] at hx
    cases hx
  · exact Option.some.inj (hx.symm.trans hc)
  · rw [hclose] at hx
    cases hx

theorem dispatch_listener {ready : Readiness} (he : ready.fd = n.reactor.listener) :
    dispatch ready n = Action.when ready.readable acceptOne n := by
  simp only [dispatch, bind_apply, Loop.reactor, if_pos he]

theorem dispatched_dispatch (ready : Readiness) (ht : n.Tidy)
    (hfresh : Fresh (dispatch ready n).2.world.past) :
    Dispatched ready.fd n (dispatch ready n).2 := by
  by_cases he : ready.fd = n.reactor.listener
  · rw [dispatch_listener he] at hfresh ⊢
    rw [he]
    cases hr : ready.readable with
    | true =>
      rw [hr] at hfresh
      exact (accepting_acceptOne n).dispatched rfl ht hfresh
    | false => exact ⟨ht, ⟨rfl, rfl, rfl⟩, fun _ _ _ _ => rfl, [], rfl, List.forall_mem_nil _⟩
  · exact (turned_dispatch he ht).dispatched he

end Node

end SpanEcho

import SpanEcho.Proofs.Multiplexor.TimeLimit
import SpanEcho.Proofs.Reactor.Accounting
import SpanEcho.Proofs.Reactor.Planning

/-!
# When accepting is paused

An accept that fails for want of descriptors or memory pauses accepting for a fixed time, and
nothing else does. As long as the pause lasts the listener is left out of what is waited for,
nothing is accepted, and no wait outlasts the pause; the first pass that begins when it is over
accepts again. All this rests on the clock alone, whatever else the kernel replies.
-/

namespace SpanEcho

open SpanEcho.Action Loop Reactor

/-! ## Clocks -/

/-- The time that a call told. -/
def Event.reading? : Event → Option Duration
  | ⟨_, .clock, reply, _⟩ => some reply
  | _ => none

/-- The times that were told, the latest first. -/
def readings (past : List Event) : List Duration :=
  past.filterMap (·.reading?)

/-- The clock never went back. -/
def Timely (past : List Event) : Prop :=
  (readings past).Pairwise (· ≥ ·)

instance (past : List Event) : Decidable (Timely past) :=
  inferInstanceAs (Decidable ((readings past).Pairwise (· ≥ ·)))

theorem readings_subset {past later : List Event} (h : past <:+ later) {now : Duration}
    (hnow : now ∈ readings past) : now ∈ readings later :=
  (h.filterMap _).subset hnow

theorem Timely.of_suffix {past later : List Event} (h : Timely later) (hs : past <:+ later) :
    Timely past :=
  List.Pairwise.sublist (hs.filterMap _).sublist h

theorem Timely.le {past : List Event} {e : Event} {now now' : Duration} (h : Timely (e :: past))
    (he : e.reading? = some now') (hnow : now ∈ readings past) : now ≤ now' := by
  rw [Timely, readings, List.filterMap_cons_some he] at h
  exact (List.pairwise_cons.mp h).1 now hnow

/-! ## Waits -/

namespace Multiplexor

variable {κ : Type} [Kernel κ] {entries : List Registration} {highest : Descriptor} {w w' : World κ}
  {ready : List Readiness}

omit [Kernel κ] in
theorem ready_of_reply {operation : String} {returned : Int} {errno : Errno}
    {listed : List Readiness}
    (h : (if returned < 0 then interruptedOr operation errno else pure listed :
      Sys κ (List Readiness)) w = (.ok ready, w')) : ready = [] ∨ ready = listed := by
  split at h
  · unfold interruptedOr at h
    split at h
    · exact .inl (Outcome.ok.inj (congrArg Prod.fst h)).symm
    · cases h
  · exact .inr (Outcome.ok.inj (congrArg Prod.fst h)).symm

/-- What a method lists is registered and was asked for, whatever the kernel replies. -/
theorem within_of_wait {method : WaitMethod} {limit : Option Duration}
    (h : method.multiplexor.wait entries highest limit w = (.ok ready, w')) :
    Readiness.Within entries ready := by
  cases method with
  | select =>
    cases hrefusal : entries.findSome? fun e => select.refusal? e.fd with
    | some why =>
      simp only [WaitMethod.multiplexor, wait, hrefusal] at h
      cases h
    | none =>
      simp only [WaitMethod.multiplexor, wait, hrefusal] at h
      obtain ⟨reply, w₁, -, h⟩ := bind_eq_ok.mp h
      rcases ready_of_reply h with rfl | rfl
      · exact .nil entries
      · exact reply.scan_within _ entries
  | poll =>
    obtain ⟨reply, w₁, -, h⟩ := bind_eq_ok.mp h
    rcases ready_of_reply h with rfl | rfl
    · exact .nil entries
    · exact reply.ready_within entries

/-- A wait of a method makes one call at most, and that waits no longer than the limit, if this is
less than 2^63 seconds. -/
theorem waitsWithin_of_wait (method : WaitMethod) (entries : List Registration)
    (highest : Descriptor) {limit : Duration} (hlimit : limit.seconds < 2 ^ 63) (w : World κ) :
    Added (·.WaitsWithin limit) w.past
      (method.multiplexor.wait entries highest (some limit) w).2.past := by
  have hcall : ∀ {c : Call} {f : c.Reply → Sys κ (List Readiness)} (w : World κ),
      c.WaitsWithin limit → (∀ reply w, (f reply w).2 = w) →
      Added (·.WaitsWithin limit) w.past ((Sys.call c >>= f) w).2.past := by
    intro c f w hc hstate
    change Added _ _ (f (w.call c).1 (w.call c).2).2.past
    rw [hstate, World.call_past]
    exact .single hc
  cases method with
  | select =>
    cases hrefusal : entries.findSome? fun e => select.refusal? e.fd with
    | some why =>
      simp only [WaitMethod.multiplexor, wait, hrefusal]
      exact .refl _
    | none =>
      simp only [WaitMethod.multiplexor, wait, hrefusal]
      exact hcall w (TimeLimit.waitsWithin_ofDuration _ _ _ hlimit) fun _ _ =>
        (Node.ending_wakes _ _ _ _ _).1
  | poll =>
    exact hcall w (Polled.waitsWithin_millis entries limit) fun _ _ =>
      (Node.ending_wakes _ _ _ _ _).1

end Multiplexor

namespace Node

variable {κ : Type} [Kernel κ] {n n' n₁ n₂ : Node κ} {plan : Plan} {ready : List Readiness}

/-! ## Failed accepts -/

/-- Accepting fails because there are too many open files, in the process or in all, no buffer space
or no memory; `w'` is the world then. -/
def Starved (n : Node κ) (w' : World κ) : Prop :=
  ∃ operation errno, errno ∈ [24, 23, 105, 12] ∧
    Socket.accept n.reactor.listener n.world = (.failed (.system operation errno), w')

omit [Kernel κ] in
theorem isExhaustion_iff (errno : Errno) : errno.isExhaustion ↔ errno ∈ [24, 23, 105, 12] := by
  simp [Errno.isExhaustion, or_assoc]

theorem starved_iff {w' : World κ} : n.Starved w' ↔
    ∃ why, why.isExhaustion ∧ Socket.accept n.reactor.listener n.world = (.failed why, w') := by
  constructor
  · rintro ⟨operation, errno, herrno, haccept⟩
    exact ⟨.system operation errno, (isExhaustion_iff errno).mpr herrno, haccept⟩
  · rintro ⟨why, hwhy, haccept⟩
    cases why with
    | system operation errno => exact ⟨operation, errno, (isExhaustion_iff errno).mp hwhy, haccept⟩
    | _ => cases hwhy

/-- A failure for want of descriptors or memory pauses accepting, from the time at which it is
noticed. -/
theorem acceptFailed_exhausted {why : Failure} (h : why.isExhaustion) (n : Node κ) :
    ∃ e now n', acceptFailed why n = (.ok (), n') ∧ e.reading? = some now ∧
      n'.world.past = e :: n.world.past ∧ n'.reactor.pausedUntil = some (now + acceptPause) := by
  have hpast : ∀ line, ((n.world.write line).call .clock).2.past =
      (n.world.write line).event .clock :: n.world.past := fun line => by
    rw [World.call_past, World.write_past]
  unfold acceptFailed
  rw [if_pos h]
  exact ⟨_, _, _, rfl, rfl, hpast _, rfl⟩

theorem acceptOne_starved {w' : World κ} (h : n.Starved w') :
    ∃ e now n', acceptOne n = (.ok (), n') ∧ e.reading? = some now ∧
      n'.world.past = e :: w'.past ∧ n'.reactor.pausedUntil = some (now + acceptPause) := by
  obtain ⟨why, hwhy, haccept⟩ := starved_iff.mp h
  have hfailed : acceptOne n = acceptFailed why { n with world := w' } := by
    cases why with
    | wouldBlock => cases hwhy
    | _ => simp only [acceptOne, bind_apply, Loop.reactor, Action.attempt, Loop.sys, Action.onPart,
        haccept]
  rw [hfailed]
  exact acceptFailed_exhausted hwhy _

omit [Kernel κ] in
theorem Enrolling.pause {r : Reactor} {past : List Event} {fd : Descriptor} {o : Outcome Unit}
    (h : Enrolling r past fd o n') : n'.reactor.pausedUntil = r.pausedUntil := by
  cases h with
  | blocking _ _ reactor => rw [reactor]; rfl
  | turnedAway _ _ _ _ reactor => rw [reactor]
  | filed _ _ _ reactor => rw [reactor]; rfl

/-- However accepting goes otherwise, it does not touch the pause. -/
theorem acceptOne_unstarved (h : ∀ w', ¬ n.Starved w') :
    (acceptOne n).2.reactor.pausedUntil = n.reactor.pausedUntil := by
  rcases haccept : Socket.accept n.reactor.listener n.world with ⟨o, w'⟩
  cases o with
  | ok accepted =>
    rw [acceptOne_accepted haccept]
    exact (enrolling_enrol accepted.1 accepted.2 { n with world := w' }).pause
  | failed why =>
    obtain ⟨n', hn', hnoted⟩ := acceptOne_failed haccept
    rw [hn']
    cases hnoted with
    | passed _ reactor => rw [reactor]
    | counted _ reactor =>
      rw [reactor, Reactor.refused, if_neg fun hwhy => h w' (starved_iff.mpr ⟨why, hwhy, haccept⟩)]
  | defect what =>
    have hstopped : acceptOne n = (.defect what, { n with world := w' }) := by
      simp only [acceptOne, bind_apply, Loop.reactor, Action.attempt, Loop.sys,
        Action.onPart, haccept]
    rw [hstopped]

/-! ## The deadline of a pause -/

/-- A pause ends a fixed time after the clock was read. -/
def Dated (n : Node κ) : Prop :=
  ∀ deadline, n.reactor.pausedUntil = some deadline →
    ∃ now ∈ readings n.world.past, deadline = now + acceptPause

omit [Kernel κ] in
theorem Dated.kept (h : Dated n) (hgrows : n.world.past <:+ n'.world.past)
    (hpause : n'.reactor.pausedUntil = n.reactor.pausedUntil ∨ n'.reactor.pausedUntil = none) :
    Dated n' := by
  intro deadline hdeadline
  rcases hpause with hpause | hpause
  · obtain ⟨now, hnow, hd⟩ := h deadline (hpause ▸ hdeadline)
    exact ⟨now, readings_subset hgrows hnow, hd⟩
  · rw [hpause] at hdeadline
    cases hdeadline

theorem dated_wait (h : Dated n) : Dated ((prepare >>= await) n).2 := by
  have hidle := (idling_prepare (κ := κ)).idle n
  obtain ⟨plan, n₁, hprepare⟩ := sure_prepare n
  refine h.kept (quiet_wait.tame.grows.grows n) ?_
  rw [hprepare] at hidle
  rw [bind_of_ok hprepare, (counts_await plan n₁).2.2]
  exact hidle.pause

theorem dated_dispatch (h : Dated n) (ready : Readiness) (hs : n.reactor.registry.Sound) :
    Dated (dispatch ready n).2 := by
  have hgrows := (tame_dispatch ready).grows.grows n
  by_cases he : ready.fd = n.reactor.listener
  · rw [dispatch_listener he] at hgrows ⊢
    cases hr : ready.readable with
    | false => exact h
    | true =>
      rw [hr] at hgrows
      by_cases hstarved : ∃ w', n.Starved w'
      · obtain ⟨w', hw'⟩ := hstarved
        obtain ⟨e, now, n', hn', hreading, hpast, hpause⟩ := acceptOne_starved hw'
        change Dated (acceptOne n).2
        rw [hn']
        intro deadline hdeadline
        refine ⟨now, ?_, Option.some.inj (hdeadline.symm.trans hpause)⟩
        rw [hpast, readings, List.filterMap_cons_some hreading]
        exact List.mem_cons_self
      · exact h.kept hgrows (.inl (acceptOne_unstarved fun w' hw' => hstarved ⟨w', hw'⟩))
  · exact h.kept hgrows (.inl (tended_dispatch he hs).pause)

/-! ## Passes that accept nothing -/

/-- Serving what is due accepts nothing if the listener is not due for reading. -/
theorem added_dispatchAll {due : List Readiness} (hr : n.reactor.Regular)
    (hdue : ∀ x ∈ due, x.fd = n.reactor.listener → x.readable = false) :
    Added Call.AcceptsNothing n.world.past (Reactor.dispatchAll due n).2.world.past := by
  induction due generalizing n with
  | nil => exact .refl _
  | cons x due ih =>
    have hx : Added Call.AcceptsNothing n.world.past (dispatch x n).2.world.past := by
      by_cases he : x.fd = n.reactor.listener
      · rw [dispatch_listener he, hdue x List.mem_cons_self he]
        exact .refl _
      · exact (tended_dispatch he hr.sound).calls
    have hcontinued := continued_dispatch x hr
    rw [Reactor.dispatchAll, bind_apply]
    rcases hdispatch : dispatch x n with ⟨o, n₁⟩
    rw [hdispatch] at hx hcontinued
    cases o with
    | failed why => exact hx
    | defect what => exact hx
    | ok _ =>
      refine hx.trans (ih hcontinued.regular fun y hy hlistener => ?_)
      rw [hcontinued.steady.listener] at hlistener
      exact hdue y (List.mem_cons_of_mem x hy) hlistener

/-- The wait of a pass is that of its multiplexor. -/
theorem await_apply (plan : Plan) (n : Node κ) :
    (await plan n).1 =
        (n.reactor.multiplexor.wait plan.entries plan.highest plan.limit n.world).1 ∧
      (await plan n).2.world.past =
        (n.reactor.multiplexor.wait plan.entries plan.highest plan.limit n.world).2.past := by
  rcases hwait : n.reactor.multiplexor.wait plan.entries plan.highest plan.limit n.world with ⟨o, w⟩
  cases o with
  | ok ready =>
    have hawait : await plan n = (do
        Loop.count fun t => { t with loops := t.loops + 1 }
        let loops := (← Loop.reactor).tally.loops
        Loop.log .debug s!"loop {loops}: {ready.length} ready of {plan.entries.length} registered"
        pure ready : Loop κ (List Readiness)) { n with world := w } := by
      simp only [await, bind_apply, Loop.reactor, Loop.sys, Action.onPart, hwait]
    rw [hawait]
    exact ⟨rfl, World.write_past _ w⟩
  | failed why =>
    have hawait : await plan n = (.failed why, { n with world := w }) := by
      simp only [await, bind_apply, Loop.reactor, Loop.sys, Action.onPart, hwait]
    rw [hawait]
    exact ⟨rfl, rfl⟩
  | defect what =>
    have hawait : await plan n = (.defect what, { n with world := w }) := by
      simp only [await, bind_apply, Loop.reactor, Loop.sys, Action.onPart, hwait]
    rw [hawait]
    exact ⟨rfl, rfl⟩

/-- In a pass whose wait is not for the listener, nothing is accepted. -/
theorem added_complete {method : WaitMethod} (hmethod : n.reactor.multiplexor = method.multiplexor)
    (hr : n.reactor.Regular)
    (hplan : ∀ e ∈ plan.entries, e.fd = n.reactor.listener → e.interest.readable = false) :
    Added Call.AcceptsNothing n.world.past (complete plan n).2.world.past := by
  have hquiet : Added Call.AcceptsNothing n.world.past (await plan n).2.world.past :=
    ((quiet_await plan).along n).2.mono fun _ hc => hc.acceptsNothing
  have hresult := (await_apply plan n).1
  have hcontinued := continued_await plan hr
  rw [complete, bind_apply]
  rcases hawait : await plan n with ⟨o, n'⟩
  rw [hawait] at hquiet hresult hcontinued
  cases o with
  | failed why => exact hquiet
  | defect what => exact hquiet
  | ok ready =>
    rcases hwait : n.reactor.multiplexor.wait plan.entries plan.highest plan.limit n.world with
      ⟨o, w⟩
    rw [hwait] at hresult
    subst hresult
    rw [hmethod] at hwait
    have hwithin := Multiplexor.within_of_wait hwait
    have hdue : ∀ x ∈ ready, x.fd = n'.reactor.listener → x.readable = false := by
      intro x hx hlistener
      obtain ⟨e, he, hfd, hreadable, -⟩ := hwithin.asked x hx
      rw [hcontinued.steady.listener] at hlistener
      have hnot := hplan e he (hfd.trans hlistener)
      exact Bool.eq_false_iff.mpr fun h => by rw [hreadable h] at hnot; cases hnot
    have hall := added_dispatchAll hcontinued.regular hdue
    change Added _ _
      ((Reactor.dispatchAll ready >>= fun _ => pure ready.length : Loop κ Nat) n').2.world.past
    rw [bind_apply]
    split <;> rename_i heq <;> rw [heq] at hall <;> exact hquiet.trans hall

/-- As long as accepting is paused, nothing is accepted in a pass. -/
theorem added_paused {method : WaitMethod} (hmethod : n.reactor.multiplexor = method.multiplexor)
    (hr : n.reactor.Regular) (hpause : n.reactor.pausedUntil ≠ none) (limit : Option Duration) :
    Added Call.AcceptsNothing n.world.past (complete (n.reactor.planFor limit) n).2.world.past :=
  added_complete hmethod hr fun e he hfd => by
    rw [hr.own_of_registrations hpause he hfd]
    rfl

/-- The wait of a pass keeps to its limit. -/
theorem waitsWithin_await {method : WaitMethod}
    (hmethod : n.reactor.multiplexor = method.multiplexor)
    {limit : Duration} (hlimit : plan.limit = some limit) (hshort : limit.seconds < 2 ^ 63) :
    Added (·.WaitsWithin limit) n.world.past (await plan n).2.world.past := by
  rw [(await_apply plan n).2, hmethod, hlimit]
  exact Multiplexor.waitsWithin_of_wait method plan.entries plan.highest hshort n.world

end Node

open Node

variable {κ : Type} [Kernel κ] {m : Multiplexor} {s : Settings} {n₀ n : Node κ}
  {due : List Readiness}

theorem Reactor.patience_le (r : Reactor) (left : Duration) : r.patience left ≤ left := by
  unfold patience
  cases r.settings.waitLimit with
  | none => exact Nat.le_refl _
  | some longest => exact Nat.min_le_right _ _

theorem Reactor.patience_le_longest {r : Reactor} {longest : Duration}
    (h : r.settings.waitLimit = some longest) (left : Duration) : r.patience left ≤ longest := by
  unfold patience
  rw [h]
  exact Nat.min_le_left _ _

theorem Starting.dated_of_reaches (hstart : Starting m s n₀) (hreach : n₀.Reaches n due) :
    Dated n := by
  induction hreach with
  | here =>
    intro deadline hdeadline
    rw [hstart.uncharged.2] at hdeadline
    cases hdeadline
  | @start n _ ih => exact ih.kept (quiet_start.tame.grows.grows n) (idling_start.idle n).pause
  | wait _ ih => exact dated_wait ih
  | dispatch hreach ih => exact dated_dispatch ih _ (hstart.regular_of_reaches hreach).sound
  | @report n _ last ih =>
    exact ih.kept ((quiet_report last).tame.grows.grows n) ((idling_report last).idle n).pause
  | @finish n _ ih => exact ih.kept (quiet_finish.tame.grows.grows n) (idling_finish.idle n).pause

omit [Kernel κ] in
/-- The next reading of a clock that never goes back is at most the length of a pause before the
deadline. -/
theorem Node.Dated.deadline_le (h : n.Dated) {deadline : Duration} {past : List Event} {e : Event}
    {now : Duration} (hpause : n.reactor.pausedUntil = some deadline)
    (hpast : n.world.past <:+ past)
    (hreading : e.reading? = some now) (hclock : Timely (e :: past)) :
    deadline ≤ now + acceptPause := by
  obtain ⟨earlier, hearlier, rfl⟩ := h deadline hpause
  exact Nat.add_le_add_right (hclock.le hreading (readings_subset hpast hearlier)) _

/-- **The pause is kept, and comes to its end.** Over `select` or `poll` and a clock that never goes
back, whatever comes of accepting: an accept that fails for want of descriptors or memory sets the
deadline to 100 ms after the time then, and no other result sets one. A pass registers the listener
if and only if there is no deadline or it has been reached, and then the pause is over. While it is
not reached, which it is within 100 ms, nothing is accepted in the pass, and its wait has a limit
that is neither longer than the one that is set nor than the time left; the call that waits keeps to
it, up to the one millisecond that is the least for `poll`. -/
theorem pause_of_pass {method : WaitMethod} (hstart : Starting method.multiplexor s n₀)
    (hreach : n₀.Reaches n []) (hclock : Timely (Reactor.pass n).2.world.past) :
    let now := (n.world.call .clock).1
    let later := ((n.world.call .clock).2.call .clock).1
    (∀ (v : Node κ) w', v.Starved w' → ∃ e time v', acceptOne v = (.ok (), v') ∧
        e.reading? = some time ∧ v'.world.past = e :: w'.past ∧
        v'.reactor.pausedUntil = some (time + .ofMillis 100)) ∧
      (∀ v : Node κ, (∀ w', ¬ v.Starved w') →
        (acceptOne v).2.reactor.pausedUntil = v.reactor.pausedUntil) ∧
      ∃ plan n₁, prepare n = (.ok plan, n₁) ∧ Reactor.pass n = complete plan n₁ ∧
        (⟨n.reactor.listener, .read⟩ ∈ plan.entries ↔
          ∀ deadline, n.reactor.pausedUntil = some deadline → deadline ≤ now) ∧
        ((∀ deadline, n.reactor.pausedUntil = some deadline → deadline ≤ now) →
          n₁.reactor.pausedUntil = none) ∧
        ∀ deadline, n.reactor.pausedUntil = some deadline →
          deadline ≤ now + .ofMillis 100 ∧
          (now < deadline → n₁.reactor.pausedUntil = some deadline ∧
            Added Call.AcceptsNothing n.world.past (Reactor.pass n).2.world.past ∧
            ∃ limit, plan.limit = some limit ∧ limit ≤ deadline - later ∧
              (∀ longest, n.reactor.settings.waitLimit = some longest → limit ≤ longest) ∧
              Added (·.WaitsWithin limit) n₁.world.past (await plan n₁).2.world.past) := by
  intro now later
  have hregular := hstart.regular_of_reaches hreach
  have hdated := hstart.dated_of_reaches hreach
  obtain ⟨listener, hfresh, -⟩ := hstart.made
  have hmethod : n.reactor.multiplexor = method.multiplexor := by
    rw [(hreach.continued (hfresh ▸ regular_fresh listener _ s)).steady.multiplexor, hfresh]
    rfl
  refine ⟨fun v w' hw' => acceptOne_starved hw', fun v hv => acceptOne_unstarved hv, ?_⟩
  obtain ⟨plan, n₁, hprepare, hprepares⟩ := prepares_prepare n
  have hpass : Reactor.pass n = complete plan n₁ := bind_of_ok hprepare
  have hclock₁ : Timely n₁.world.past := by
    have htame : Loop.Tame (complete plan : Loop κ Nat) :=
      .bind (quiet_await plan).tame fun _ => .bind (tame_dispatchAll _) fun _ => .pure _
    rw [hpass] at hclock
    exact hclock.of_suffix (htame.grows.grows n₁)
  refine ⟨plan, n₁, hprepare, hpass, ?_⟩
  cases hprepares with
  | accepting hpause =>
    refine ⟨⟨fun _ deadline hd => ?_, fun _ => hregular.listener_mem_iff.mpr hpause⟩,
      fun _ => hpause, fun deadline hd => ?_⟩ <;>
    · rw [hpause] at hd
      cases hd
  | @resumed deadline n₁ hpause hdue reactor past =>
    have hreached : ∀ d, n.reactor.pausedUntil = some d → d ≤ now := fun d hd => by
      rwa [← Option.some.inj (hpause.symm.trans hd)]
    have hnone : n₁.reactor.pausedUntil = none := by rw [reactor]
    have hregular₁ : n₁.reactor.Regular :=
      (Prepares.resumed hpause hdue reactor past).regular hregular
    have hlistener : n₁.reactor.listener = n.reactor.listener := by rw [reactor]
    refine ⟨⟨fun _ => hreached, fun _ => ?_⟩, fun _ => hnone, fun d hd => ⟨?_, fun hearly => ?_⟩⟩
    · rw [← hlistener]
      exact hregular₁.listener_mem_iff.mpr hnone
    · exact Nat.le_trans (hreached d hd) (Nat.le_add_right _ _)
    · exact absurd (hreached d hd) (Nat.not_le.mpr hearly)
  | @paused deadline hpause hearly =>
    have hne : n.reactor.pausedUntil ≠ none := by rw [hpause]; exact nofun
    have hnot : ¬ ∀ d, n.reactor.pausedUntil = some d → d ≤ now := fun h =>
      absurd (h deadline hpause) (Nat.not_le.mpr hearly)
    refine ⟨⟨fun hmem => absurd (hregular.listener_mem_iff.mp hmem) hne, fun h => absurd h hnot⟩,
      fun h => absurd h hnot, fun d hd => ?_⟩
    obtain rfl := Option.some.inj (hpause.symm.trans hd)
    rw [World.call_past, World.call_past] at hclock₁
    have hnow : deadline ≤ now + acceptPause :=
      hdated.deadline_le (e := n.world.event .clock) hpause List.suffix_rfl rfl
        (hclock₁.of_suffix (List.suffix_cons _ _))
    have hlater : deadline ≤ later + acceptPause :=
      hdated.deadline_le (e := (n.world.call .clock).2.event .clock) hpause
        (List.suffix_cons _ _) rfl hclock₁
    have hshort : (n.reactor.patience (deadline - later)).seconds < 2 ^ 63 := by
      have hpause : Duration.seconds acceptPause < 2 ^ 63 := by decide
      have hleft := n.reactor.patience_le (deadline - later)
      exact Nat.lt_of_le_of_lt
        (Nat.div_le_div_right (hleft.trans (Nat.sub_le_iff_le_add'.mpr hlater))) hpause
    refine ⟨hnow, fun _ => ⟨hpause, ?_, _, rfl, n.reactor.patience_le _,
      fun longest hlongest => Reactor.patience_le_longest hlongest _,
      waitsWithin_await (n := { n with world := ((n.world.call .clock).2.call .clock).2 })
        hmethod rfl hshort⟩⟩
    have hread : Added Call.AcceptsNothing n.world.past
        ((n.world.call .clock).2.call .clock).2.past := by
      rw [World.call_past, World.call_past]
      exact (Added.single nofun).trans (.single nofun)
    rw [hpass]
    exact hread.trans
      (added_paused (n := { n with world := ((n.world.call .clock).2.call .clock).2 })
        hmethod hregular hne _)

namespace Exhausted

/-- The first wait takes 5 ms, and the accept after it fails for want of descriptors; the second
wait is cut short after 40 ms. -/
def world : World Script :=
  { level := .off
    kernel :=
      { socketNumbers := [3]
        queues := [(3, [.failed 24])]
        waits := [(.main,
          [{ ready := [(3, { readable := true })], lasting := .ofMillis 5 },
            { lasting := .ofMillis 40 }])] } }

def settings : Settings := {}

def launched : Node Script :=
  ⟨.fresh 3 .poll settings, (Serving.launch settings world).2⟩

@[irreducible] def node : Node Script :=
  (Reactor.run 2 launched).2

theorem pause_of_exhausted :
    Timely (Reactor.pass node).2.world.past ∧ node.reactor.pausedUntil = some (.ofMillis 105) ∧
      (node.world.call .clock).1 = .ofMillis 45 ∧
      (∃ (e : Event) (time : Duration) (v' : Node Script), acceptOne launched = (.ok (), v') ∧
        e.reading? = some time ∧
        v'.reactor.pausedUntil = some (time + .ofMillis 100)) ∧
      ∃ plan n₁, prepare node = (.ok plan, n₁) ∧ ⟨3, .read⟩ ∉ plan.entries ∧
        Added Call.AcceptsNothing node.world.past (Reactor.pass node).2.world.past ∧
        ∃ limit, plan.limit = some limit ∧ limit ≤ .ofMillis 60 := by
  have hmade : Serving.launch settings world = (.ok (.fresh 3 .poll settings), launched.world) :=
    Prod.ext (by decide +kernel) rfl
  have hstart : Starting WaitMethod.poll.multiplexor settings launched := .launched rfl rfl hmade
  have hreach : launched.Reaches node [] := by
    rw [node]
    exact Node.Reaches.here.run 2
  have hclock : Timely (Reactor.pass node).2.world.past := by decide +kernel
  have hpause : node.reactor.pausedUntil = some (.ofMillis 105) := by decide +kernel
  have hnow : (node.world.call .clock).1 = .ofMillis 45 := by decide +kernel
  have hlater : ((node.world.call .clock).2.call .clock).1 = .ofMillis 45 := by decide +kernel
  have hlistener : node.reactor.listener = 3 := by decide +kernel
  have hstarved : launched.Starved (Socket.accept 3 launched.world).2 :=
    ⟨"accept", 24, by decide, Prod.ext (by decide +kernel) rfl⟩
  obtain ⟨hsets, -, plan, n₁, hprepare, -, hmem, -, hpaused⟩ := pause_of_pass hstart hreach hclock
  obtain ⟨e, time, v', hv', hreading, -, hset⟩ := hsets launched _ hstarved
  obtain ⟨-, hkept⟩ := hpaused _ hpause
  rw [hnow] at hkept
  obtain ⟨-, hadded, limit, hlimit, hle, -⟩ := hkept (by decide)
  rw [hlater] at hle
  refine ⟨hclock, hpause, hnow, ⟨e, time, v', hv', hreading, hset⟩, plan, n₁, hprepare, ?_, hadded,
    limit, hlimit, hle⟩
  intro hin
  rw [← hlistener, hmem] at hin
  have hreached := hin _ hpause
  rw [hnow] at hreached
  exact absurd hreached (by decide)

end Exhausted

end SpanEcho

import SpanEcho.Proofs.Reactor.Planning
import SpanEcho.Script.Kernel

/-!
# Keeping within the sets of `select`

A set for `select` has room for the descriptors below `Selected.setSize`; to put any other into one,
or to look for it there, is out of bounds. That it never happens rests on three checks: a listener
is checked before a reactor takes it over, an accepted descriptor before it is filed, and every
entry before the call. The bound that goes with the sets is one above the highest descriptor ever
filed, which is within the limit because everything filed is.

An accepted descriptor beyond the limit is closed by the call that comes after those that prepare
it. If they did their work, that is the last call of the run.
-/

namespace SpanEcho

open SpanEcho.Action Loop Reactor

/-! ## Watchable descriptors -/

/-- A call of `select` that stays within its sets. -/
def Call.WithinSet : Call → Prop
  | .select bound reads writes _ => 1 ≤ bound ∧ bound ≤ Selected.setSize ∧
      ∀ fd ∈ reads ++ writes, 0 ≤ fd ∧ fd < bound
  | _ => True

theorem Call.SetsUp.withinSet {c : Call} (h : c.SetsUp) : c.WithinSet := by
  cases c <;> first | exact h.elim | trivial

theorem Call.Handles.withinSet {opened? : Option Descriptor} {c : Call} (h : c.Handles opened?) :
    c.WithinSet := by
  rcases h with rfl | ⟨fd, -, (rfl | ⟨flags, rfl⟩) | (rfl | ⟨flags, rfl⟩) | rfl⟩ <;> trivial

theorem Direction.Moves.withinSet {fd : Descriptor} {d : Direction} {c : Call} (h : d.Moves fd c) :
    c.WithinSet := by
  unfold Direction.Moves at h
  split at h <;> trivial

namespace Multiplexor

variable {m : Multiplexor} {fd fd' : Descriptor}

theorem refusal?_eq_none :
    m.refusal? fd = none ↔ ∀ limit, m.limit = some limit → 0 ≤ fd ∧ fd < limit := by
  rw [refusal?]
  cases m.limit with
  | none => exact ⟨fun _ _ h => (by cases h), fun _ => rfl⟩
  | some limit =>
    change (if fd < 0 ∨ limit ≤ fd then _ else _) = none ↔ _
    constructor
    · intro h limit' hlimit
      obtain rfl := Option.some.inj hlimit
      split at h
      · cases h
      · rename_i hnot
        exact (not_or.mp hnot).imp Int.not_lt.mp Int.not_le.mp
    · intro h
      obtain ⟨hnonneg, hlt⟩ := h limit rfl
      exact if_neg (not_or.mpr ⟨Int.not_lt.mpr hnonneg, Int.not_le.mpr hlt⟩)

theorem refusal?_beyond {limit : Nat} (h : m.limit = some limit) (hfd : limit ≤ fd) :
    m.refusal? fd = some (.descriptorBeyondLimit fd limit) := by
  rw [refusal?, h]
  exact if_pos (.inr hfd)

theorem refusal?_max (h : m.refusal? fd = none) (h' : m.refusal? fd' = none) :
    m.refusal? (max fd fd') = none := by
  rcases max_choice fd fd' with heq | heq <;> rw [heq] <;> assumption

/-- Where everything lies within the limit, the call stays within its sets. -/
theorem Asks.withinSet {entries : List Registration} {highest : Descriptor}
    {limit : Option Duration}
    {c : Call} (h : m.Asks entries highest limit c) (hhighest : m.refusal? highest = none)
    (hle : ∀ e ∈ entries, e.fd ≤ highest) : c.WithinSet := by
  cases m with
  | poll =>
    obtain rfl : c = _ := h
    trivial
  | external name bound =>
    obtain rfl : c = _ := h
    trivial
  | select =>
    obtain ⟨hentries, rfl⟩ := h
    obtain ⟨hnonneg, hlt⟩ := refusal?_eq_none.mp hhighest Selected.setSize rfl
    refine ⟨Int.le_add_of_nonneg_left hnonneg, Int.add_one_le_of_lt hlt, fun fd hfd => ?_⟩
    have hwatched : fd ∈ entries.map (·.fd) :=
      (List.mem_append.mp hfd).elim mem_watched mem_watched
    obtain ⟨e, he, rfl⟩ := List.mem_map.mp hwatched
    exact ⟨(refusal?_eq_none.mp (hentries e he) Selected.setSize rfl).1,
      Int.lt_add_one_of_le (hle e he)⟩

/-- Where every entry can be watched, a wait does not fail for a descriptor beyond the limit. -/
theorem wait_ne_beyondLimit {κ : Type} [Kernel κ] {entries : List Registration}
    (h : ∀ e ∈ entries, m.refusal? e.fd = none) (highest : Descriptor) (limit : Option Duration)
    (w : World κ) (bound : Nat) :
    (m.wait entries highest limit w).1 ≠ .failed (.descriptorBeyondLimit fd bound) := by
  intro hfailed
  rcases m.wait_cases h highest limit w with ⟨ready, w', hwait⟩ | ⟨why, w', e, hwait, -, hwhy⟩
  · rw [hwait] at hfailed
    cases hfailed
  · rw [hwait] at hfailed
    obtain rfl := Outcome.failed.inj hfailed
    unfold Event.WaitFailed at hwhy
    split at hwhy
    · cases hwhy.2.2
    · cases hwhy.2.2
    · obtain ⟨name, errno, heq⟩ := hwhy.2
      cases heq
    · exact hwhy

end Multiplexor

/-- The multiplexor can watch the listener, everything filed and everything that ever was. -/
structure Reactor.Watchable (r : Reactor) : Prop where
  listener : r.multiplexor.refusal? r.listener = none
  highest : r.multiplexor.refusal? r.highest = none
  filed : ∀ fd entry, r.registry.entryAt fd = some entry → r.multiplexor.refusal? fd = none

namespace Reactor.Watchable

variable {r r' : Reactor}

theorem fresh {listener : Descriptor} {m : Multiplexor} (s : Settings)
    (h : m.refusal? listener = none) : (fresh listener m s).Watchable where
  listener := h
  highest := Multiplexor.refusal?_eq_none.mpr fun limit hlimit => by
    obtain ⟨hnonneg, hlt⟩ := Multiplexor.refusal?_eq_none.mp h limit hlimit
    have hmax : max listener (-1) = listener := max_eq_left (Int.le_trans (by decide) hnonneg)
    change 0 ≤ max listener (-1) ∧ max listener (-1) < (limit : Int)
    rw [hmax]
    exact ⟨hnonneg, hlt⟩
  filed := nofun

theorem alike (h : r.Watchable) (ha : r.Alike r') : r'.Watchable where
  listener := by rw [ha.multiplexor, ha.listener]; exact h.listener
  highest := by rw [Reactor.highest, ha.multiplexor, ha.listener, ha.registry]; exact h.highest
  filed := by rw [ha.multiplexor, ha.registry]; exact h.filed

theorem enrolled (h : r.Watchable) (hr : r.Regular) {fd : Descriptor} {t : Ticket}
    (hwatch : r.multiplexor.refusal? fd = none)
    (hinserted : (Registry.insert fd (r.newcomer fd) r.registry).1 = .ok t) :
    (r.enrolled fd).Watchable where
  listener := h.listener
  highest := by
    change r.multiplexor.refusal? (max r.listener (r.enrolled fd).registry.highest) = none
    rw [(hr.enrolled hinserted).2, ← max_assoc]
    exact Multiplexor.refusal?_max h.highest hwatch
  filed := fun x entry hx => by
    have hentry := ((Registry.insert_ok hr.sound hinserted).2.2 x).symm.trans hx
    split at hentry
    · rename_i hxfd
      exact hxfd ▸ hwatch
    · exact h.filed x entry hentry

/-- All that a wait is for can be watched. -/
theorem registrations (h : r.Watchable) (hr : r.Regular) {e : Registration}
    (he : e ∈ r.registrations) : r.multiplexor.refusal? e.fd = none := by
  rcases mem_registrations he with rfl | he
  · exact h.listener
  · obtain ⟨entry, hentry, -⟩ := mem_interests hr.sound he
    exact h.filed e.fd entry hentry

end Reactor.Watchable

namespace Node

variable {κ α : Type} {n n' : Node κ} {fd : Descriptor}

theorem Tended.watchable (h : Tended fd n n') (hw : n.reactor.Watchable) :
    n'.reactor.Watchable where
  listener := by rw [h.steady.multiplexor, h.steady.listener]; exact hw.listener
  highest := by
    rw [Reactor.highest, h.steady.multiplexor, h.steady.listener, h.highest]
    exact hw.highest
  filed := fun x entry' he => by
    obtain ⟨entry, hentry, -⟩ := h.entries x entry' he
    rw [h.steady.multiplexor]
    exact hw.filed x entry hentry

/-- Everything filed can be watched, and no call went beyond its sets. -/
structure Limited (n : Node κ) : Prop where
  watchable : n.reactor.Watchable
  calls : ∀ e ∈ n.world.past, e.call.WithinSet

theorem Limited.added (h : Limited n) (hw : n'.reactor.Watchable)
    (hcalls : Added Call.WithinSet n.world.past n'.world.past) : Limited n' where
  watchable := hw
  calls := fun e he => by
    obtain ⟨moved, hpast, hmoved⟩ := hcalls
    rw [hpast] at he
    exact (List.mem_append.mp he).elim (hmoved e) (h.calls e)

variable [Kernel κ]

theorem limited_wait (h : Limited n) (hr : n.reactor.Regular) :
    Limited ((prepare >>= await) n).2 := by
  obtain ⟨plan, n₁, hprepare⟩ := sure_prepare n
  have hprepares := prepares_of_prepare hprepare
  have hclock := calling_prepare.added n
  rw [hprepare] at hclock
  have hready : Limited n₁ := h.added (h.watchable.alike hprepares.alike)
    (hclock.mono fun c hc => by rw [hc]; trivial)
  rw [bind_of_ok hprepare]
  refine hready.added (hready.watchable.alike ((quiet_await plan).along n₁).1)
    ((added_await plan n₁).mono fun c hc => ?_)
  -- The entries of the plan and its highest descriptor are those of the reactor at the wait.
  rw [hprepares.plan_eq] at hc
  exact hc.withinSet hready.watchable.highest fun e he => (hprepares.regular hr).le_highest he

omit [Kernel κ] in
theorem Reception.watchable {e : Event} {o : Outcome Unit} (h : Reception n e o n')
    (hw : n.reactor.Watchable) (hr : n.reactor.Regular) : n'.reactor.Watchable := by
  cases h with
  | failed _ _ noted => exact hw.alike noted.alike.1
  | unsealed _ _ _ noted => exact hw.alike noted.alike.1
  | sealed _ _ enrolling =>
    cases enrolling with
    | blocking _ _ reactor => exact hw.alike (reactor ▸ ⟨rfl, rfl, rfl, rfl⟩)
    | turnedAway _ _ _ _ reactor => exact reactor ▸ hw
    | filed _ watchable inserted reactor =>
      obtain ⟨t, hinserted⟩ := inserted
      exact (hw.enrolled hr watchable hinserted).alike (reactor ▸ ⟨rfl, rfl, rfl, rfl⟩)

theorem limited_dispatch (ready : Readiness) (h : Limited n) (hr : n.reactor.Regular) :
    Limited (dispatch ready n).2 := by
  by_cases he : ready.fd = n.reactor.listener
  · rw [dispatch_listener he]
    cases ready.readable with
    | true =>
      have hreception := reception_acceptOne n
      refine h.added (hreception.watchable h.watchable hr) ?_
      exact (Added.single (e := n.world.event (.accept n.reactor.listener)) trivial).trans
        (hreception.handles.mono fun _ => Call.Handles.withinSet)
    | false => exact h
  · refine h.added ((tended_dispatch he hr.sound).watchable h.watchable) ?_
    cases hf : n.reactor.registry.find? ready.fd with
    | none =>
      rw [dispatch_missing he hf]
      exact .refl _
    | some t =>
      rw [dispatch_found he hf]
      have hboth : Calling (fun c => ∃ fd, (∃ d, Direction.Moves fd d c) ∨ c = .close fd)
          (serveReady t ready : Loop κ Unit) := by
        have hserve : ∀ d, Calling (fun c => ∃ fd, (∃ d, Direction.Moves fd d c) ∨ c = .close fd)
            (serve t d : Loop κ Unit) := fun d => (calling_serve t d).mono fun _ _ hm n =>
          (hm n).mono fun c ⟨fd, hc⟩ => ⟨fd, hc.imp_left fun hmoves => ⟨d, hmoves⟩⟩
        exact .bind (.when (hserve .receive)) fun _ => .when (hserve .send)
      refine (hboth.added n).mono ?_
      rintro c ⟨fd, ⟨d, hmoves⟩ | rfl⟩
      · exact hmoves.withinSet
      · trivial

end Node

open Node

variable {κ : Type} [Kernel κ] {m : Multiplexor} {s : Settings} {n₀ n : Node κ}
  {due : List Readiness}

/-- A socket is opened and a reactor made of it by calls that set it up. -/
theorem Starting.setsUp (h : Starting m s n₀) : ∀ e ∈ n₀.world.past, e.call.SetsUp := by
  suffices hadded : Added Call.SetsUp [] n₀.world.past by
    obtain ⟨moved, hpast, hmoved⟩ := hadded
    rwa [hpast, List.append_nil]
  cases h with
  | @created w₀ w₁ w₂ port backlog reusePort listener r past opened made =>
    have hopened := (Socket.calling_listenOn port backlog reusePort).added w₀
    have hmade := (calling_create listener m s).added w₁
    rw [opened, past] at hopened
    rw [made] at hmade
    exact hopened.trans hmade
  | @launched w₀ w₁ r past method made =>
    have hmade := (Serving.calling_launch s).added w₀
    rwa [made, past] at hmade

/-- A started reactor stays within its limit. -/
theorem Starting.limited_of_reaches (hstart : Starting m s n₀) (hreach : n₀.Reaches n due) :
    n.Limited := by
  induction hreach with
  | here =>
    obtain ⟨listener, hfresh, hwatch⟩ := hstart.made
    exact ⟨hfresh ▸ .fresh s hwatch, fun e he => (hstart.setsUp e he).withinSet⟩
  | start _ ih =>
    refine ih.added (ih.watchable.alike (quiet_start.along _).1) ((added_start _).mono ?_)
    rintro c (rfl | rfl) <;> trivial
  | wait h ih => exact limited_wait ih (hstart.regular_of_reaches h)
  | dispatch h ih => exact limited_dispatch _ ih (hstart.regular_of_reaches h)
  | report _ last ih =>
    refine ih.added (ih.watchable.alike ((quiet_report last).along _).1)
      (((calling_report last).added _).mono ?_)
    rintro c rfl
    trivial
  | finish _ ih =>
    exact ih.added (ih.watchable.alike (quiet_finish.along _).1) (calling_finish.added _)

/-! ## Descriptors beyond the limit -/

/-- The events, the earliest first, once `fd` was accepted beyond the limit by an action that ended
as `o`: after the calls that prepare it, it is closed. Either one of those failed, or nothing
follows and that is how it ended. -/
inductive Expulsion (limit : Nat) (fd : Descriptor) {α : Type} (o : Outcome α) : List Event → Prop
  | obstructed {calls rest : List Event} {closing : Event}
      (preparing : ∀ e ∈ calls, e.call.Seals fd ∨ e.call.Unblocks fd)
      (failed : ∃ e ∈ calls, e.failure?.isSome) (close : closing.call = .close fd) :
      Expulsion limit fd o (calls ++ closing :: rest)
  | refused {calls : List Event} {closing : Event}
      (preparing : ∀ e ∈ calls, e.call.Seals fd ∨ e.call.Unblocks fd)
      (close : closing.call = .close fd) (ending : o = .failed (.descriptorBeyondLimit fd limit)) :
      Expulsion limit fd o (calls ++ [closing])

/-- Among events, the earliest first, of an action that ended as `o`, whatever was accepted beyond
the limit was expelled. -/
def Expelled (limit : Nat) {α : Type} (o : Outcome α) (moved : List Event) : Prop :=
  ∀ before e after listener (fd : Descriptor), moved = before ++ e :: after →
    e.call = .accept listener → e.opened? = some fd → limit ≤ fd → Expulsion limit fd o after

section

variable {α β : Type} {limit : Nat} {fd : Descriptor} {o : Outcome α} {moved moved' : List Event}
  {e : Event}

theorem Expulsion.append {a : β} (h : Expulsion limit fd (.ok a) moved) (o : Outcome α)
    (later : List Event) : Expulsion limit fd o (moved ++ later) := by
  cases h with
  | obstructed preparing failed close =>
    rw [List.append_assoc, List.cons_append]
    exact .obstructed preparing failed close
  | refused _ _ ending => cases ending

namespace Expelled

theorem of_calls (h : ∀ e ∈ moved, e.call.AcceptsNothing) : Expelled limit o moved := by
  rintro before e after listener fd rfl hcall
  exact absurd hcall (h e (List.mem_append_right _ List.mem_cons_self) listener)

/-- What was expelled before is not forgotten. -/
theorem append {a : β} (h : Expelled limit (.ok a) moved) (h' : Expelled limit o moved') :
    Expelled limit o (moved ++ moved') := by
  intro before e after listener fd hsplit hcall ho hfd
  rcases List.append_eq_append_iff.mp hsplit with ⟨rest, -, hrest⟩ | ⟨rest, hmoved, hrest⟩
  · exact h' rest e after listener fd hrest hcall ho hfd
  · rcases rest with _ | ⟨x, rest⟩
    · exact h' [] e after listener fd hrest.symm hcall ho hfd
    · obtain ⟨rfl, rfl⟩ := List.cons.inj hrest
      exact (h before e rest listener fd hmoved hcall ho hfd).append o moved'

/-- The call that accepts comes first, and what follows accepts nothing. -/
theorem accepting (hmoved : ∀ x ∈ moved, x.call.AcceptsNothing)
    (h : ∀ fd : Descriptor, e.opened? = some fd → limit ≤ fd → Expulsion limit fd o moved) :
    Expelled limit o (e :: moved) := by
  intro before x after listener' fd hsplit hcall' ho hfd
  rcases before with _ | ⟨y, before⟩
  · obtain ⟨rfl, rfl⟩ := List.cons.inj hsplit
    exact h fd ho hfd
  · obtain ⟨-, rfl⟩ := List.cons.inj hsplit
    exact absurd hcall' (hmoved x (List.mem_append_right _ List.mem_cons_self) listener')

/-- An action that ends as the one before it did expels as that one did. -/
theorem map_failed {why : Failure} (h : Expelled limit (.failed why : Outcome α) moved) :
    Expelled limit (.failed why : Outcome β) moved := by
  intro before e after listener fd hsplit hcall ho hfd
  cases h before e after listener fd hsplit hcall ho hfd with
  | obstructed preparing failed close => exact .obstructed preparing failed close
  | refused preparing close ending =>
    exact .refused preparing close (congrArg Outcome.failed (Outcome.failed.inj ending))

theorem map_defect {what : Defect} (h : Expelled limit (.defect what : Outcome α) moved) :
    Expelled limit (.defect what : Outcome β) moved := by
  intro before e after listener fd hsplit hcall ho hfd
  cases h before e after listener fd hsplit hcall ho hfd with
  | obstructed preparing failed close => exact .obstructed preparing failed close
  | refused _ _ ending => cases ending

end Expelled

end

namespace Node

variable {n' : Node κ} {limit : Nat} {e : Event} {o : Outcome Unit} {fd : Descriptor}
  {later : List Event}

omit [Kernel κ] in
/-- A descriptor that is accepted beyond the limit is expelled. -/
theorem Reception.expulsion (h : Reception n e o n') (ho : e.opened? = some fd)
    (hlimit : n.reactor.multiplexor.limit = some limit) (hfd : limit ≤ fd)
    (hpast : n'.world.past = later ++ e :: n.world.past) : Expulsion limit fd o later.reverse := by
  have hrefusal := Multiplexor.refusal?_beyond hlimit hfd
  have hlater : ∀ {before}, n'.world.past = before ++ e :: n.world.past → later = before :=
    fun hbefore => List.append_cancel_right (hpast.symm.trans hbefore)
  cases h with
  | failed opened =>
    rw [ho] at opened
    cases opened
  | @unsealed _ _ moved why closing opened sealing close noted =>
    obtain rfl := Option.some.inj (ho.symm.trans opened)
    obtain ⟨rest, hrest, -⟩ := noted.handles none
    obtain rfl : later = rest ++ closing :: moved := hlater (by rw [hrest]; simp)
    obtain ⟨x, hx, hfailure⟩ := sealing.obstacle
    rw [List.reverse_append, List.reverse_cons, List.append_assoc]
    exact .obstructed (fun y hy => .inl (sealing.allowed y (List.mem_reverse.mp hy)))
      ⟨x, List.mem_reverse.mpr hx, hfailure⟩ close
  | @sealed _ _ _ moved opened sealing enrolling =>
    obtain rfl := Option.some.inj (ho.symm.trans opened)
    have hcalls : ∀ {o : Outcome Unit} {moved'}, Prepared (·.Unblocks fd) o moved' →
        ∀ x ∈ (moved' ++ moved).reverse, x.call.Seals fd ∨ x.call.Unblocks fd := by
      intro o moved' hprepared x hx
      rcases List.mem_append.mp (List.mem_reverse.mp hx) with hx | hx
      · exact .inr (hprepared.allowed x hx)
      · exact .inl (sealing.allowed x hx)
    cases enrolling with
    | @blocking _ moved' why closing unblocking close _ calls =>
      obtain rfl : later = closing :: (moved' ++ moved) := hlater (by rw [calls]; simp)
      obtain ⟨x, hx, hfailure⟩ := unblocking.obstacle
      rw [List.reverse_cons]
      exact .obstructed (hcalls unblocking)
        ⟨x, List.mem_reverse.mpr (List.mem_append_left _ hx), hfailure⟩ close
    | @turnedAway _ _ moved' closing unblocking bad cause close _ calls =>
      obtain rfl : later = closing :: (moved' ++ moved) := hlater (by rw [calls]; simp)
      rw [List.reverse_cons]
      refine .refused (hcalls unblocking) close ?_
      -- Of all that can keep it from being filed, this is looked at first.
      cases o with
      | ok _ => exact absurd rfl bad
      | failed why =>
        rcases cause with hwhy | ⟨hnone, -⟩
        · rw [Option.some.inj (hwhy.symm.trans hrefusal)]
        · cases hnone.symm.trans hrefusal
      | defect what => cases cause.1.symm.trans hrefusal
    | filed _ watchable => cases watchable.symm.trans hrefusal

end Node

namespace Loop

variable {α β : Type} {limit : Nat}

/-- The action expels whatever it accepts beyond the limit. -/
structure Expels (limit : Nat) (m : Loop κ α) : Prop where
  tame : Tame m
  expelled : ∀ n : Node κ, n.reactor.multiplexor.limit = some limit →
    ∃ moved, (m n).2.world.past = moved.reverse ++ n.world.past ∧ Expelled limit (m n).1 moved

theorem Expels.of_added {m : Loop κ α} (htame : Tame m)
    (h : ∀ n, Added Call.AcceptsNothing n.world.past (m n).2.world.past) : Expels limit m := by
  refine ⟨htame, fun n _ => ?_⟩
  obtain ⟨moved, hpast, hmoved⟩ := h n
  exact ⟨moved.reverse, by rw [List.reverse_reverse, hpast],
    .of_calls fun e he => hmoved e (List.mem_reverse.mp he)⟩

theorem Expels.of_quiet {m : Loop κ α} (hm : Quiet m) : Expels limit m :=
  .of_added hm.tame fun n => (hm.along n).2.mono fun _ => Call.Quiet.acceptsNothing

theorem Expels.bind {m : Loop κ α} {f : α → Loop κ β} (hm : Expels limit m)
    (hf : ∀ a, Expels limit (f a)) : Expels limit (m >>= f) := by
  refine ⟨.bind hm.tame fun a => (hf a).tame, fun n hlimit => ?_⟩
  have hsteady := hm.tame.along n
  obtain ⟨moved, hpast, hmoved⟩ := hm.expelled n hlimit
  rw [bind_apply]
  split <;> rename_i heq <;> rw [heq] at hsteady hpast hmoved
  · obtain ⟨later, hlater, hends⟩ := (hf _).expelled _ (hsteady.multiplexor.symm ▸ hlimit)
    exact ⟨moved ++ later, by rw [hlater, hpast]; simp, hmoved.append hends⟩
  · exact ⟨moved, hpast, hmoved.map_failed⟩
  · exact ⟨moved, hpast, hmoved.map_defect⟩

theorem Expels.when {c : Bool} {m : Loop κ Unit} (hm : Expels limit m) :
    Expels limit (Action.when c m) := by
  cases c with
  | true => exact hm
  | false => exact .of_quiet (.pure ())

end Loop

namespace Reactor

variable {limit : Nat}

theorem expels_acceptOne : Expels limit (acceptOne : Loop κ Unit) := by
  refine ⟨tame_acceptOne, fun n hlimit => ?_⟩
  have hreception := reception_acceptOne n
  obtain ⟨later, hpast, hlater⟩ := hreception.handles
  generalize n.world.event (.accept n.reactor.listener) = e at hreception hpast hlater
  refine ⟨e :: later.reverse, by simp [hpast], .accepting (fun x hx listener hx' => ?_)
    fun fd ho hfd => ?_⟩
  · have hnone := (hlater x (List.mem_reverse.mp hx)).about.1
    rw [hx'] at hnone
    cases hnone
  · exact (hreception.expulsion ho hlimit hfd hpast)

/-- Only the listener brings descriptors. -/
theorem expels_dispatch (ready : Readiness) : Expels limit (dispatch ready : Loop κ Unit) := by
  have hserve : ∀ t d, Expels limit (serve t d : Loop κ Unit) := fun t d =>
    .of_added (tame_serve t d) fun n =>
      ((calling_serve t d).added n).mono fun c hc listener he => by
      subst he
      obtain ⟨fd, hmoves | hclose⟩ := hc
      · cases hmoves.carrier
      · cases hclose
  refine .bind (.of_quiet quiet_reactor) fun r => ?_
  split
  · exact .when expels_acceptOne
  · split
    · exact .of_quiet (.pure ())
    · exact .bind (.when (hserve _ .receive)) fun _ => .when (hserve _ .send)

theorem expels_dispatchAll (due : List Readiness) :
    Expels limit (dispatchAll due : Loop κ Unit) := by
  induction due with
  | nil => exact .of_quiet (.pure ())
  | cons ready due ih => exact .bind (expels_dispatch ready) fun _ => ih

theorem expels_pass : Expels limit (pass : Loop κ Nat) :=
  .bind (.of_quiet quiet_prepare) fun plan => .bind (.of_quiet (quiet_await plan)) fun ready =>
    .bind (expels_dispatchAll ready) fun _ => .of_quiet (.pure _)

theorem expels_passes (last : Duration) (most : Nat) :
    Expels limit (passes last most : Loop κ (Option Tally)) := by
  have hstopping : Expels limit (Loop.sys Sys.stopping : Loop κ Bool) :=
    .of_added (tame_sys (.basic .stopping)) fun _ => .refl _
  have hfinish : Expels limit (some <$> finish : Loop κ (Option Tally)) :=
    .bind (.of_quiet quiet_finish) fun _ => .of_quiet (.pure _)
  induction most generalizing last with
  | zero =>
    refine .bind hstopping fun stopping => ?_
    split
    · exact hfinish
    · exact .of_quiet (.pure _)
  | succ most ih =>
    refine .bind hstopping fun stopping => ?_
    split
    · exact hfinish
    · exact .bind expels_pass fun _ => .bind (.of_quiet (quiet_report last)) fun last => ih last

theorem expels_run (most : Nat) : Expels limit (run most : Loop κ (Option Tally)) :=
  .bind (.of_quiet quiet_start) fun last => expels_passes last most

end Reactor

theorem Loop.Expels.trace {α : Type} {limit : Nat} {a : Loop κ α} (h : Expels limit a)
    (hlimit : n.reactor.multiplexor.limit = some limit) :
    ∃ moved, (a n).2.world.trace = n.world.trace ++ moved ∧ Expelled limit (a n).1 moved := by
  obtain ⟨moved, hpast, hmoved⟩ := h.expelled n hlimit
  refine ⟨moved, ?_, hmoved⟩
  rw [World.trace, hpast, List.reverse_append, List.reverse_reverse]
  rfl

/-- **`select` is only called within its sets.** However a reactor with `select` runs and whatever
numbers the kernel hands out, no call goes beyond the sets, no descriptor beyond them is filed, and
every wait is for descriptors within them, so that it does not fail for want of room. What is
accepted beyond them is closed again in the same pass, and ends the run unless it could not
be prepared. -/
theorem within_sets_of_select (hstart : Starting .select s n₀) (hreach : n₀.Reaches n due) :
    (∀ e ∈ n.world.trace, e.call.WithinSet) ∧
      (∀ filed ∈ n.reactor.registry.toList, 0 ≤ filed.1.fd ∧ filed.1.fd < Selected.setSize) ∧
      (∀ plan n', prepare n = (.ok plan, n') →
        (∀ e ∈ plan.entries, 0 ≤ e.fd ∧ e.fd < Selected.setSize) ∧
        ∀ fd limit, (Multiplexor.select.wait plan.entries plan.highest plan.limit n'.world).1 ≠
          .failed (.descriptorBeyondLimit fd limit)) ∧
      (∃ moved, (pass n).2.world.trace = n.world.trace ++ moved ∧
        Expelled Selected.setSize (pass n).1 moved) ∧
      ∀ most, ∃ moved, (run most n).2.world.trace = n.world.trace ++ moved ∧
        Expelled Selected.setSize (run most n).1 moved := by
  have hlimited := hstart.limited_of_reaches hreach
  have hregular := hstart.regular_of_reaches hreach
  have hselect : n.reactor.multiplexor = .select := by
    obtain ⟨listener, hfresh, -⟩ := hstart.made
    have hsteady := (hreach.continued (hfresh ▸ regular_fresh listener .select s)).steady
    rw [hsteady.multiplexor, hfresh]
    rfl
  have hwithin : ∀ {fd}, Multiplexor.select.refusal? fd = none → 0 ≤ fd ∧ fd < Selected.setSize :=
    fun h => Multiplexor.refusal?_eq_none.mp h Selected.setSize rfl
  have hlimit : n.reactor.multiplexor.limit = some Selected.setSize := by rw [hselect]; rfl
  refine ⟨fun e he => hlimited.calls e (List.mem_reverse.mp he), ?_, ?_, expels_pass.trace hlimit,
    fun most => (expels_run most).trace hlimit⟩
  · rintro ⟨t, entry⟩ hfiled
    have hentry := Registry.entryAt_of_get? ((Registry.mem_toList hregular.sound).mp hfiled)
    exact hwithin (hselect ▸ hlimited.watchable.filed t.fd entry hentry)
  · intro plan n' hprepare
    have hprepares := prepares_of_prepare hprepare
    have hentries : ∀ e ∈ plan.entries, Multiplexor.select.refusal? e.fd = none := by
      intro e he
      rw [hprepares.plan_eq] at he
      have hwatch := (hlimited.watchable.alike hprepares.alike).registrations
        (hprepares.regular hregular) he
      rwa [hprepares.alike.multiplexor, hselect] at hwatch
    exact ⟨fun e he => hwithin (hentries e he), fun fd limit =>
      Multiplexor.wait_ne_beyondLimit hentries _ _ _ limit⟩

namespace Brimful

/-- The kernel hands out the highest descriptor that fits into a set, and then the next one. -/
def world : World Script :=
  let connection (fd : Nat) :=
    Script.Arriving.connection (some fd) ⟨2, 16, ⟨.unspecified, 40001⟩⟩ true
  let listener : Descriptor × Condition := (5, { readable := true })
  { level := .off
    kernel :=
      { socketNumbers := [5]
        queues := [(5, [connection 1023 {}, connection 1024 {}])]
        waits := [(.main, [{ ready := [listener] }, { ready := [listener] }])] } }

def opened : World Script :=
  (Socket.listenOn 0 128 false world).2

def made : Node Script :=
  ⟨.fresh 5 .select {}, (create 5 .select {} opened).2⟩

@[irreducible] def node : Node Script :=
  (Reactor.run 1 made).2

theorem within_brimful :
    (Reactor.run 1 node).1 = .failed (.descriptorBeyondLimit 1024 1024) ∧
      (∀ e ∈ node.world.trace, e.call.WithinSet) ∧
      ∃ moved, (Reactor.run 1 node).2.world.trace = node.world.trace ++ moved ∧
        moved.map (·.call) = [.localName 5, .clock, .select 1024 [5] [1023] none, .accept 5,
          .descriptorFlags 1024, .setDescriptorFlags 1024 1, .statusFlags 1024, .close 1024] ∧
        Expelled 1024 (Reactor.run 1 node).1 moved := by
  have hopened : Socket.listenOn 0 128 false world = (.ok 5, opened) :=
    Prod.ext (by decide +kernel) rfl
  have hmade : create 5 .select {} opened = (.ok (.fresh 5 .select {}), made.world) :=
    Prod.ext (by decide +kernel) rfl
  have hreach : made.Reaches node [] := by
    rw [node]
    exact Node.Reaches.here.run 1
  have hended : (Reactor.run 1 node).1 = .failed (.descriptorBeyondLimit 1024 1024) := by
    decide +kernel
  have hcalls : ((Reactor.run 1 node).2.world.trace.drop node.world.trace.length).map (·.call) =
      [.localName 5, .clock, .select 1024 [5] [1023] none, .accept 5, .descriptorFlags 1024,
        .setDescriptorFlags 1024 1, .statusFlags 1024, .close 1024] := by
    decide +kernel
  obtain ⟨hwithin, -, -, -, hrun⟩ := within_sets_of_select (.created rfl hopened hmade) hreach
  obtain ⟨moved, htrace, hexpelled⟩ := hrun 1
  rw [htrace, List.drop_left] at hcalls
  exact ⟨hended, hwithin, moved, htrace, hcalls, hexpelled⟩

end Brimful

end SpanEcho

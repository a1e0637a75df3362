import SpanEcho.Proofs.Reactor.Fate
import SpanEcho.Proofs.Reactor.Rightful

/-!
# What goes wrong stays where it is

Whatever call fails in a pass, and whoever's turn it is, every ready descriptor is dispatched and
nothing but the connection concerned is touched. Three failures end a pass early: the wait itself
fails, an accepted descriptor is beyond what the multiplexor can watch, or there is no place left
for it; then the new socket is closed and that is all. An outbox that is set to be larger than a
block of memory can be is a defect, which shows when a connection is accepted.
-/

namespace SpanEcho

open SpanEcho.Action Scene Loop Reactor

/-! ## Accepted descriptors -/

/-- Why a reactor turns an accepted descriptor away. -/
inductive Reactor.Refuses (r : Reactor) (fd : Descriptor) : Failure → Prop
  | beyondLimit {limit : Nat} (limited : r.multiplexor.limit = some limit) (beyond : limit ≤ fd) :
      r.Refuses fd (.descriptorBeyondLimit fd limit)
  | full (full : r.registry.toList.length = r.settings.maxConnections) :
      r.Refuses fd (.registryFull r.settings.maxConnections)

namespace Reactor

variable {r : Reactor} {fd : Descriptor} {why : Failure}

theorem refuses_of_refusal (h : r.multiplexor.refusal? fd = some why) (hfd : 0 ≤ fd) :
    r.Refuses fd why := by
  rw [Multiplexor.refusal?] at h
  split at h
  · cases h
  · rename_i limit hlimit
    split at h
    · rename_i hbeyond
      obtain rfl := Option.some.inj h
      exact .beyondLimit hlimit (hbeyond.resolve_left (Int.not_lt.mpr hfd))
    · cases h

theorem Refuses.isFatal (h : r.Refuses fd why) : why.isFatal := by
  cases h <;> rfl

/-- A registry without a connection under a descriptor refuses it only when it is full. -/
theorem refuses_of_insert {past : List Event} (ht : r.Tidy past) {entry : Entry Descriptor}
    (h : (Registry.insert fd entry r.registry).1 = .failed why) (hfd : 0 ≤ fd)
    (hnone : r.registry.entryAt fd = none) : r.Refuses fd why := by
  rw [Registry.insert_answer ht.sound, if_neg (Int.not_lt.mpr hfd),
    Registry.card_contents ht.sound] at h
  split at h
  · rename_i hfull
    obtain rfl := Outcome.failed.inj h
    rw [ht.used.capacity_eq] at hfull ⊢
    refine .full ?_
    rw [← ht.sound.live]
    exact Nat.le_antisymm ht.used.live_le hfull
  · have hnot : fd ∉ r.registry.contents := by
      rw [Registry.mem_contents ht.sound, hnone]
      exact Bool.false_ne_true
    rw [if_neg hnot] at h
    cases h

end Reactor

theorem Event.nonneg_of_opened? {e : Event} {fd : Descriptor} (h : e.opened? = some fd) :
    0 ≤ fd := by
  obtain ⟨thread, call, reply, arrivals⟩ := e
  unfold Event.opened? at h
  split at h
  · rw [← Option.some.inj h]
    exact Int.natCast_nonneg _
  · rw [← Option.some.inj h]
    exact Int.natCast_nonneg _
  · cases h

namespace Node

variable {κ : Type} [Kernel κ] {n n' : Node κ} {e : Event} {o : Outcome Unit}

/-- A socket was accepted and closed again, and every connection is as it was. -/
structure TurnedAway (fd : Descriptor) (n n' : Node κ) : Prop where
  accepted : ∃ e : Event, e.call = .accept n.reactor.listener ∧ e.opened? = some fd ∧
    Added (fun c => c.Quiet ∨ c = .close fd) (e :: n.world.past) n'.world.past
  closed : fd ∉ openAfter n'.world.past
  alike : n.reactor.Alike n'.reactor

/-- What ends a pass early: an accepted descriptor is refused, or no block of memory is as large as
the outbox of the connection is to be. -/
def EndsEarly (fd : Descriptor) (r : Reactor) (o : Outcome Unit) : Prop :=
  (∃ why, o = .failed why ∧ r.Refuses fd why) ∨
    o = .defect (.blockTooLarge r.settings.sendCapacity) ∧
    Memory.largestBlock < r.settings.sendCapacity

omit [Kernel κ] in
theorem Accepting.early (h : Accepting n e o n') (hbad : o ≠ .ok ())
    (hcall : e.call = .accept n.reactor.listener) (ht : n.Tidy) (hfresh : Fresh n'.world.past) :
    ∃ fd, TurnedAway fd n n' ∧ EndsEarly fd n.reactor o := by
  have hnew : ∀ fd, e.opened? = some fd → fd ∉ openAfter n.world.past :=
    (hfresh.of_suffix h.calls.suffix).1
  cases h with
  | nothing => exact absurd rfl hbad
  | filed => exact absurd rfl hbad
  | @dropped o _ fd past closing opened ending alike before close after =>
    have hclosing : closing.closed? = some fd := by rw [Event.closed?, close]
    have hadded : Added (fun c => c.Quiet ∨ c = .close fd) (e :: n.world.past) n'.world.past :=
      ((before.mono fun _ => .inl).trans (.single (.inr close))).trans (after.mono fun _ => .inl)
    have hgone : fd ∉ openAfter n'.world.past := by
      rw [after.openAfter_eq fun _ _ => openAfter_of_quiet,
        openAfter_of_closed (Event.opened?_of_closed? hclosing) hclosing]
      simp
    refine ⟨fd, ⟨⟨e, hcall, opened, hadded⟩, hgone, alike⟩, ?_⟩
    have hfd : 0 ≤ fd := Event.nonneg_of_opened? opened
    cases o with
    | ok _ => exact absurd rfl hbad
    | defect d => exact .inr ⟨congrArg Outcome.defect ending.2.1, ending.2.2⟩
    | failed why =>
      refine .inl ⟨why, rfl, ?_⟩
      rcases ending with hrefusal | ⟨-, hinsert⟩
      · exact refuses_of_refusal hrefusal hfd
      · -- Connections are filed under open descriptors, and this one was not open.
        refine refuses_of_insert ht hinsert hfd (Option.eq_none_iff_forall_not_mem.mpr ?_)
        exact fun entry hentry => hnew fd opened (ht.filed fd entry hentry).2.1

/-! ## Turns -/

/-- How it ends to dispatch `ready`, and what it does. -/
structure Contained (ready : Readiness) (n : Node κ) (o : Outcome Unit) (n' : Node κ) : Prop where
  /-- Connections under other descriptors stay as they are, under their tickets. -/
  others : ∀ t entry, t.fd ≠ ready.fd → n.reactor.registry.get? t = some entry →
    n'.reactor.registry.get? t = some entry
  /-- A connection never ends a pass. -/
  connection : ready.fd ≠ n.reactor.listener → o = .ok () ∧
    match n.reactor.registry.find? ready.fd with
    | some t => ∃ moved, Fate t n n' moved
    | none => n' = n
  listener : ready.fd = n.reactor.listener →
    if ready.readable then ∃ e, e.call = .accept n.reactor.listener ∧ Accepting n e o n'
    else o = .ok () ∧ n' = n

/-- Ready descriptors dispatched one after the other, none of which ends the pass. -/
inductive Turns : Node κ → List Readiness → Node κ → Prop
  | done {n : Node κ} : Turns n [] n
  | next {ready : Readiness} {due : List Readiness} {n n₁ n' : Node κ}
      (turn : dispatch ready n = (.ok (), n₁)) (contained : Contained ready n (.ok ()) n₁)
      (rest : Turns n₁ due n') : Turns n (ready :: due) n'

variable {m : Multiplexor} {s : Settings} {n₀ : Node κ} {ready : Readiness} {due : List Readiness}

theorem contained_dispatch (hstart : Starting m s n₀) (hreach : n₀.Reaches n due)
    (ready : Readiness) (hlaw : Lawful (dispatch ready n).2.world.past) :
    Contained ready n (dispatch ready n).1 (dispatch ready n).2 := by
  have hlaw₀ : Lawful n.world.past := hlaw.of_suffix ((tame_dispatch ready).grows.grows n)
  have hsound := hstart.sound_of_reaches hreach hlaw₀
  have hd := dispatched_dispatch ready (hstart.tidy_of_reaches hreach hlaw₀.fresh) hlaw.fresh
  refine ⟨fun t entry hne hg => ?_, fun hne => ?_, fun he => ?_⟩
  · have hslot := hd.others t.fd entry hne (Registry.entryAt_of_get? hg)
    exact (Registry.get?_congr hslot).trans hg
  · cases hf : n.reactor.registry.find? ready.fd with
    | none =>
      rw [dispatch_missing hne hf]
      exact ⟨rfl, rfl⟩
    | some t =>
      obtain ⟨entry, hentry, rfl⟩ := Registry.find?_eq_some.mp hf
      rw [dispatch_found hne hf] at hlaw ⊢
      exact fate_serveReady hsound (Registry.get?_eq_some.mpr ⟨rfl, hentry⟩) ready hlaw
  · rw [dispatch_listener he]
    cases ready.readable with
    | true => exact ⟨_, rfl, accepting_acceptOne n⟩
    | false => exact ⟨rfl, rfl⟩

omit [Kernel κ] in
/-- A turn that ends a pass is the listener's. -/
theorem Contained.early (h : Contained ready n o n') (hbad : o ≠ .ok ()) (ht : n.Tidy)
    (hfresh : Fresh n'.world.past) : ∃ fd, TurnedAway fd n n' ∧ EndsEarly fd n.reactor o := by
  have he : ready.fd = n.reactor.listener := by
    by_contra hne
    exact hbad (h.connection hne).1
  have hlistener := h.listener he
  split at hlistener
  · obtain ⟨e, hcall, haccepting⟩ := hlistener
    exact haccepting.early hbad hcall ht hfresh
  · exact absurd hlistener.1 hbad

/-- All that is due is dispatched, up to the one that ends the pass if there is one. -/
theorem turns_dispatchAll (hstart : Starting m s n₀) (hreach : n₀.Reaches n due)
    (hlaw : Lawful (dispatchAll due n).2.world.past) :
    (dispatchAll due n).1 = .ok () ∧ Turns n due (dispatchAll due n).2 ∨
      ∃ front x back n₁, due = front ++ x :: back ∧ Turns n front n₁ ∧
        n₀.Reaches n₁ (x :: back) ∧ dispatch x n₁ = dispatchAll due n ∧
        (dispatch x n₁).1 ≠ .ok () := by
  induction due generalizing n with
  | nil => exact .inl ⟨rfl, .done⟩
  | cons x due ih =>
    have hcontained := contained_dispatch hstart hreach x
    have hnext := hreach.dispatch
    rcases hx : dispatch x n with ⟨o, n₁⟩
    rw [hx] at hcontained hnext
    cases o with
    | ok _ =>
      have hrest : dispatchAll (x :: due) n = dispatchAll due n₁ := bind_of_ok hx
      rw [hrest] at hlaw ⊢
      have hcontained := hcontained (hlaw.of_suffix (dispatchAll_grows due n₁))
      rcases ih hnext hlaw with ⟨ho, hturns⟩ | ⟨front, y, back, n₂, hdue, hturns, hrest⟩
      · exact .inl ⟨ho, .next hx hcontained hturns⟩
      · exact .inr ⟨x :: front, y, back, n₂, by rw [hdue]; rfl, .next hx hcontained hturns, hrest⟩
    | failed why =>
      have hlast : dispatchAll (x :: due) n = (.failed why, n₁) := by
        rw [dispatchAll, bind_apply, hx]
      exact .inr ⟨[], x, due, n, rfl, .done, hreach, hx.trans hlast.symm, by simp [hx]⟩
    | defect d =>
      have hlast : dispatchAll (x :: due) n = (.defect d, n₁) := by
        rw [dispatchAll, bind_apply, hx]
      exact .inr ⟨[], x, due, n, rfl, .done, hreach, hx.trans hlast.symm, by simp [hx]⟩

/-! ## Passes -/

theorem sure_now : Sure (Loop.sys Sys.now : Loop κ Duration) :=
  fun _ => ⟨_, _, rfl⟩

/-- A pass always comes to its wait. -/
theorem sure_prepare : Sure (prepare : Loop κ Plan) := by
  have hresume : Sure (resumeAccepting : Loop κ Unit) := by
    refine .bind (fun n => ⟨n.reactor, n, rfl⟩) fun r => ?_
    split
    · exact .pure ()
    · refine .bind sure_now fun now => ?_
      split
      · exact .bind (fun _ => ⟨(), _, rfl⟩) fun _ _ => ⟨(), _, rfl⟩
      · exact .pure ()
  have hlimit : Sure (waitLimit : Loop κ (Option Duration)) := by
    refine .bind (fun n => ⟨n.reactor, n, rfl⟩) fun r => ?_
    split
    · exact .pure _
    · refine .bind sure_now fun now => ?_
      split <;> exact .pure _
  exact .bind hresume fun _ => .bind (fun n => ⟨n.reactor, n, rfl⟩) fun _ =>
    .bind hlimit fun _ => .pure _

/-- Where every entry can be watched, nothing but a failing call makes the wait fail. -/
theorem await_cases {plan : Plan}
    (h : ∀ e ∈ plan.entries, n.reactor.multiplexor.refusal? e.fd = none) :
    (∃ ready n', await plan n = (.ok ready, n')) ∨
      ∃ why n' e, await plan n = (.failed why, n') ∧ n'.world.past = e :: n.world.past ∧
        Event.WaitFailed why e := by
  rcases n.reactor.multiplexor.wait_cases h plan.highest plan.limit n.world with
    ⟨ready, w, hwait⟩ | ⟨why, w, e, hwait, hpast, hfailed⟩
  · have hawait : await plan n = (do
        Loop.count fun t => { t with loops := t.loops + 1 }
        let loops := (← Loop.reactor).tally.loops
        Loop.log .debug s!"loop {loops}: {ready.length} ready of {plan.entries.length} registered"
        pure ready : Loop κ (List Readiness)) { n with world := w } := by
      simp only [await, bind_apply, Loop.reactor, Loop.sys, Action.onPart, hwait]
    exact .inl ⟨ready, _, hawait.trans rfl⟩
  · refine .inr ⟨why, { n with world := w }, e, ?_, hpast, hfailed⟩
    simp only [await, bind_apply, Loop.reactor, Loop.sys, Action.onPart, hwait]

/-- What a pass waits for can be watched. -/
theorem Tidy.watchable {plan : Plan} {n₁ : Node κ} (h : n.Tidy)
    (hprepare : prepare n = (.ok plan, n₁)) :
    ∀ e ∈ plan.entries, n₁.reactor.multiplexor.refusal? e.fd = none := by
  intro e he
  have halike := (quiet_prepare.along n).1
  rw [hprepare] at halike
  rw [halike.multiplexor]
  rcases prepare_registered hprepare h.sound he with hfd | ⟨entry, hentry, -⟩
  · rw [hfd]
    exact h.listener
  · exact (h.filed e.fd entry hentry).2.2

/-- How a pass can end. -/
inductive PassEnd (n : Node κ) : Outcome Nat → Node κ → Prop
  /-- Everything that is ready was dispatched. -/
  | completed {plan : Plan} {ready : List Readiness} {n₁ n₂ n' : Node κ}
      (planned : prepare n = (.ok plan, n₁)) (waited : await plan n₁ = (.ok ready, n₂))
      (turns : Turns n₂ ready n') : PassEnd n (.ok ready.length) n'
  /-- The wait failed, and not because it was interrupted. -/
  | waitFailed {plan : Plan} {n₁ n' : Node κ} {e : Event} {why : Failure}
      (planned : prepare n = (.ok plan, n₁)) (waited : await plan n₁ = (.failed why, n'))
      (call : n'.world.past = e :: n₁.world.past) (failed : Event.WaitFailed why e) :
      PassEnd n (.failed why) n'
  /-- An accepted descriptor was refused, and all that was listed before it dispatched. -/
  | refused {plan : Plan} {front back : List Readiness} {x : Readiness} {n₁ n₂ n₃ n' : Node κ}
      {fd : Descriptor} {why : Failure} (planned : prepare n = (.ok plan, n₁))
      (waited : await plan n₁ = (.ok (front ++ x :: back), n₂)) (turns : Turns n₂ front n₃)
      (last : dispatch x n₃ = (.failed why, n')) (refuses : n₃.reactor.Refuses fd why)
      (away : TurnedAway fd n₃ n') : PassEnd n (.failed why) n'
  /-- No block of memory is as large as the outbox of a new connection is to be. -/
  | tooLarge {plan : Plan} {front back : List Readiness} {x : Readiness} {n₁ n₂ n₃ n' : Node κ}
      {fd : Descriptor} (planned : prepare n = (.ok plan, n₁))
      (waited : await plan n₁ = (.ok (front ++ x :: back), n₂)) (turns : Turns n₂ front n₃)
      (last : dispatch x n₃ = (.defect (.blockTooLarge n.reactor.settings.sendCapacity), n'))
      (large : Memory.largestBlock < n.reactor.settings.sendCapacity) (away : TurnedAway fd n₃ n') :
      PassEnd n (.defect (.blockTooLarge n.reactor.settings.sendCapacity)) n'

theorem Reaches.settings_eq (h : n₀.Reaches n due) (hlaw : Lawful n.world.past) :
    n.reactor.settings = n₀.reactor.settings :=
  ((invariant_steady n₀.reactor).holds h (fun _ => .refl _) hlaw).settings

/-- How a pass ends whose wait listed `ready`. -/
theorem passEnd_of_ready {plan : Plan} {ready : List Readiness} {n₁ n₂ : Node κ}
    (hstart : Starting m s n₀) (hreach : n₀.Reaches n []) (hprepare : prepare n = (.ok plan, n₁))
    (hawait : await plan n₁ = (.ok ready, n₂)) (hlaw : Lawful (Reactor.pass n).2.world.past) :
    PassEnd n (Reactor.pass n).1 (Reactor.pass n).2 := by
  have hlaw₀ : Lawful n.world.past := hlaw.of_suffix (Reaches.here.pass).grows
  have hreach₂ : n₀.Reaches n₂ ready := by
    have hwait : (prepare >>= await) n = (.ok ready, n₂) := (bind_of_ok hprepare).trans hawait
    have hnext := hreach.wait
    rwa [hwait] at hnext
  rw [pass_state hprepare hawait] at hlaw
  rw [pass_apply hprepare hawait]
  rcases turns_dispatchAll hstart hreach₂ hlaw with
    ⟨ho, hturns⟩ | ⟨front, x, back, n₃, rfl, hturns, hreach₃, hlast, hbad⟩
  · rcases hall : dispatchAll ready n₂ with ⟨o, n'⟩
    rw [hall] at ho hturns
    obtain rfl : o = .ok () := ho
    rw [bind_of_ok hall]
    exact .completed hprepare hawait hturns
  · rw [← hlast] at hlaw
    have hlaw₃ : Lawful n₃.world.past := hlaw.of_suffix ((tame_dispatch x).grows.grows n₃)
    obtain ⟨fd, haway, hearly⟩ := (contained_dispatch hstart hreach₃ x hlaw).early hbad
      (hstart.tidy_of_reaches hreach₃ hlaw₃.fresh) hlaw.fresh
    have hsettings : n₃.reactor.settings = n.reactor.settings :=
      (hreach₃.settings_eq hlaw₃).trans (hreach.settings_eq hlaw₀).symm
    rcases hx : dispatch x n₃ with ⟨o, n'⟩
    rw [hx] at haway hearly
    rw [bind_apply, ← hlast, hx]
    rcases hearly with ⟨why, rfl, hrefuses⟩ | ⟨rfl, hlarge⟩
    · exact .refused hprepare hawait hturns hx hrefuses haway
    · rw [hsettings] at hx hlarge ⊢
      exact .tooLarge hprepare hawait hturns hx hlarge haway

end Node

open Node

variable {κ : Type} [Kernel κ] {m : Multiplexor} {s : Settings} {n₀ n : Node κ}

/-- **Errors are contained.** A pass serves everything that is ready, each connection without
touching the others, unless the wait fails, an accepted descriptor is beyond the limit of the
multiplexor or finds the registry full, or the outbox of a new connection is to be larger than
memory can be. -/
theorem isolation_of_pass (hstart : Starting m s n₀) (hreach : n₀.Reaches n [])
    (hlaw : Lawful (Reactor.pass n).2.world.past) :
    PassEnd n (Reactor.pass n).1 (Reactor.pass n).2 := by
  have ht : n.Tidy :=
    hstart.tidy_of_reaches hreach (hlaw.of_suffix (Reaches.here.pass).grows).fresh
  obtain ⟨plan, n₁, hprepare⟩ := sure_prepare n
  rcases await_cases (ht.watchable hprepare) with
    ⟨ready, n₂, hawait⟩ | ⟨why, n', e, hawait, hpast, hfailed⟩
  · exact passEnd_of_ready hstart hreach hprepare hawait hlaw
  · have hpass : Reactor.pass n = (.failed why, n') := by
      rw [Reactor.pass, bind_of_ok hprepare, Reactor.complete, bind_apply, hawait]
    rw [hpass]
    exact .waitFailed hprepare hawait hpast hfailed

namespace Broken

/-- Two connections. The first is reset by its peer just when both are ready. -/
def world : World Script :=
  let connection := Script.Arriving.connection none ⟨2, 16, ⟨.unspecified, 40001⟩⟩ true
  let listener : Descriptor × Condition := (3, { readable := true })
  { level := .off
    kernel :=
      { queues := [(3, [
          connection { giving := [.failed 104] },
          connection { giving := [.bytes [94, 97]] }])]
        waits := [(.main, [
          { ready := [listener] },
          { ready := [listener] },
          { ready := [(4, { writable := true }), (5, { writable := true })] },
          { ready := [(4, { readable := true }), (5, { readable := true })] }])] } }

def settings : Settings := {}

def launched : Node Script :=
  ⟨.fresh 3 .poll settings, (Serving.launch settings world).2⟩

@[irreducible] def node : Node Script :=
  (Reactor.run 3 launched).2

theorem isolation_of_broken :
    PassEnd node (.ok 2) (Reactor.pass node).2 ∧
      node.reactor.registry.toList.map (·.1.fd) = [4, 5] ∧
      (Reactor.pass node).2.reactor.registry.toList.map (·.1.fd) = [5] ∧
      (Reactor.pass node).2.reactor.tally.errors = 1 := by
  have hmade : Serving.launch settings world = (.ok (.fresh 3 .poll settings), launched.world) :=
    Prod.ext (by decide +kernel) rfl
  have hstart : Starting .poll settings launched := .launched rfl rfl hmade
  have hreach : launched.Reaches node [] := by
    rw [node]
    exact Node.Reaches.here.run 3
  have hlaw : Lawful (Reactor.pass node).2.world.past := by decide +kernel
  have hended : (Reactor.pass node).1 = .ok 2 := by decide +kernel
  have hpass := isolation_of_pass hstart hreach hlaw
  rw [hended] at hpass
  exact ⟨hpass, by decide +kernel, by decide +kernel, by decide +kernel⟩

end Broken

namespace Oversized

/-- One connection, for which an outbox larger than any block of memory is set. -/
def world : World Script :=
  { level := .off
    kernel :=
      { queues := [(3, [.connection none ⟨2, 16, ⟨.unspecified, 40001⟩⟩ true {}])]
        waits := [(.main, [{ ready := [(3, { readable := true })] }])] } }

def settings : Settings :=
  { sendCapacity := 0x8000000000000000 }

def launched : Node Script :=
  ⟨.fresh 3 .poll settings, (Serving.launch settings world).2⟩

/-- The pass ends neither with a count nor with a failure. -/
theorem pass_of_oversized :
    Starting .poll settings launched ∧ launched.Reaches launched [] ∧
      Lawful (Reactor.pass launched).2.world.past ∧
      (∀ count, (Reactor.pass launched).1 ≠ .ok count) ∧
      ∀ why, (Reactor.pass launched).1 ≠ .failed why := by
  have hmade : Serving.launch settings world = (.ok (.fresh 3 .poll settings), launched.world) :=
    Prod.ext (by decide +kernel) rfl
  have hended : (Reactor.pass launched).1 = .defect (.blockTooLarge 0x8000000000000000) := by
    decide +kernel
  refine ⟨.launched rfl rfl hmade, .here, by decide +kernel, fun count => ?_, fun why => ?_⟩
  · rw [hended]
    exact nofun
  · rw [hended]
    exact nofun

end Oversized

end SpanEcho

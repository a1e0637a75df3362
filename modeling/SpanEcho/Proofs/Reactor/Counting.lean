import SpanEcho.Proofs.Reactor.Interest
import SpanEcho.Proofs.Reactor.Isolation

/-!
# What is counted

`Event.tally` says what one event counts for, and `tallyOf` adds up what the events of a past count
for. What a step counts is what its events count for: `Counts` says so of two states, step by step.
Accepted connections are counted apart, since a past does not tell which of them were filed: with
each of them one more is live, until it is closed.
-/

namespace SpanEcho

open SpanEcho.Action Loop Reactor

/-! ## What events count for -/

namespace Event

/-- A wait that came back or was only interrupted. -/
def wakes : Event → Bool
  | ⟨_, .select _ _ _ _, reply, _⟩ => 0 ≤ reply.returned || reply.errno = .interrupted
  | ⟨_, .poll _ _, reply, _⟩ => 0 ≤ reply.returned || reply.errno = .interrupted
  | ⟨_, .watch _ _ _, .ok _, _⟩ => true
  | _ => false

/-- A receive that found the end of a stream. -/
def hangsUp : Event → Bool
  | ⟨_, .receive _ _, .ok bytes, _⟩ => bytes.isEmpty
  | _ => false

/-- An accept that failed. -/
def refuses : Event → Bool
  | ⟨_, .accept _, reply, _⟩ => reply.fails
  | _ => false

/-- A call to make a socket close on execution that failed. -/
def exposes : Event → Bool
  | ⟨_, .descriptorFlags _, reply, _⟩ => reply.fails
  | ⟨_, .setDescriptorFlags _ _, reply, _⟩ => reply.fails
  | _ => false

/-- A call to make a socket non-blocking that failed, for whatever reason. -/
def obstructs (e : Event) : Bool :=
  match e.call with
  | .statusFlags _ | .setStatusFlags _ _ => e.failure?.isSome
  | _ => false

def tally (e : Event) : Tally :=
  { loops := e.wakes.toNat
    receives := if 0 < e.inward then 1 else 0
    sends := if 0 < e.outward then 1 else 0
    closes := e.hangsUp.toNat + e.breaks.toNat
    bytesIn := e.inward
    bytesOut := e.outward
    errors := e.breaks.toNat + e.obstructs.toNat
    acceptErrors := e.refuses.toNat + e.exposes.toNat }

end Event

attribute [ext] Tally

namespace Tally

variable (a b c : Tally)

@[simp] theorem loops_add : (a + b).loops = a.loops + b.loops := rfl
@[simp] theorem accepts_add : (a + b).accepts = a.accepts + b.accepts := rfl
@[simp] theorem receives_add : (a + b).receives = a.receives + b.receives := rfl
@[simp] theorem sends_add : (a + b).sends = a.sends + b.sends := rfl
@[simp] theorem closes_add : (a + b).closes = a.closes + b.closes := rfl
@[simp] theorem bytesIn_add : (a + b).bytesIn = a.bytesIn + b.bytesIn := rfl
@[simp] theorem bytesOut_add : (a + b).bytesOut = a.bytesOut + b.bytesOut := rfl
@[simp] theorem errors_add : (a + b).errors = a.errors + b.errors := rfl
@[simp] theorem acceptErrors_add : (a + b).acceptErrors = a.acceptErrors + b.acceptErrors := rfl
@[simp] theorem live_add : (a + b).live = a.live + b.live := rfl

theorem add_assoc : a + b + c = a + (b + c) := by
  ext <;> simp only [loops_add, accepts_add, receives_add, sends_add, closes_add, bytesIn_add,
    bytesOut_add, errors_add, acceptErrors_add, live_add, Nat.add_assoc]

theorem add_empty : a + {} = a := rfl

end Tally

/-- What the events of a past count for together. -/
def tallyOf : List Event → Tally
  | [] => {}
  | e :: past => tallyOf past + e.tally

theorem tallyOf_of_uncounted {later past : List Event} (h : ∀ e ∈ later, e.tally = {}) :
    tallyOf (later ++ past) = tallyOf past := by
  induction later with
  | nil => rfl
  | cons e later ih =>
    rw [List.cons_append, tallyOf, ih fun x hx => h x (List.mem_cons_of_mem e hx),
      h e List.mem_cons_self, Tally.add_empty]

/-- Counter by counter, the events of a past that are counted. -/
theorem tallyOf_eq (past : List Event) : tallyOf past =
    { loops := past.countP (·.wakes)
      receives := past.countP (0 < ·.inward)
      sends := past.countP (0 < ·.outward)
      closes := past.countP (·.hangsUp) + past.countP (·.breaks)
      bytesIn := (past.map (·.inward)).sum
      bytesOut := (past.map (·.outward)).sum
      errors := past.countP (·.breaks) + past.countP (·.obstructs)
      acceptErrors := past.countP (·.refuses) + past.countP (·.exposes) } := by
  induction past with
  | nil => rfl
  | cons e past ih =>
    rw [tallyOf, ih]
    ext <;> simp [Event.tally, List.countP_cons, Bool.toNat, cond_eq_ite] <;> omega

/-! ## Calls that are counted when they fail -/

/-- A failure that a later try would not mend. -/
def Failure.isHard (why : Failure) : Bool :=
  !why.isWouldBlock

theorem Answer.any_failure? {α : Type} (operation : String) (answer : Answer α) :
    (answer.failure? operation).any (·.isHard) = answer.fails := by
  cases answer with
  | ok value => rfl
  | notOpen => rfl
  | failed errno =>
    by_cases hd : errno = .again ∨ errno = .interrupted
    · rw [failure?_failed, if_pos hd,
        fails_of_deferred (show (Answer.failed errno : Answer α).Deferred from hd)]
      rfl
    · rw [failure?_failed, if_neg hd]
      exact (decide_eq_true (not_or.mp hd)).symm

namespace Event

variable {e : Event} {fd : Descriptor}

theorem tally_of_accept (h : e.call = .accept fd) :
    e.tally = { acceptErrors := (e.failure?.any (·.isHard)).toNat } := by
  obtain ⟨thread, call, reply, arrivals⟩ := e
  obtain rfl : call = .accept fd := h
  exact congrArg (fun b : Bool => ({ acceptErrors := b.toNat } : Tally))
    (Answer.any_failure? _ reply).symm

theorem tally_of_seals (h : e.call.Seals fd) :
    e.tally = { acceptErrors := (e.failure?.any (·.isHard)).toNat } := by
  have hexposes : e.exposes = e.failure?.any (·.isHard) := by
    obtain ⟨thread, call, reply, arrivals⟩ := e
    rcases h with rfl | ⟨flags, rfl⟩ <;> exact (Answer.any_failure? _ reply).symm
  have htally : e.tally = { acceptErrors := 0 + e.exposes.toNat } := by
    obtain ⟨thread, call, reply, arrivals⟩ := e
    rcases h with rfl | ⟨flags, rfl⟩ <;> rfl
  rw [htally, Nat.zero_add, hexposes]

theorem tally_of_unblocks (h : e.call.Unblocks fd) :
    e.tally = { errors := e.failure?.isSome.toNat } := by
  have htally : e.tally = { errors := 0 + e.failure?.isSome.toNat } := by
    obtain ⟨thread, call, reply, arrivals⟩ := e
    rcases h with rfl | ⟨flags, rfl⟩ <;> rfl
  rw [htally, Nat.zero_add]

/-- A connection is counted as closed for an end of its stream or for a failure, never for both. -/
theorem severs_toNat (h : e.call.carrier? = some fd) :
    (e.severs fd).toNat = e.hangsUp.toNat + e.breaks.toNat := by
  obtain ⟨thread, call, reply, arrivals⟩ := e
  cases call with
  | receive source room =>
    obtain rfl : source = fd := Option.some.inj h
    cases reply <;> simp [severs, breaks, ends, hangsUp, Answer.fails]
  | send target bytes flags => simp [severs, ends, hangsUp]
  | _ => cases h

theorem tally_of_carrier (h : e.call.carrier? = some fd) :
    e.tally = { ({} : Tally).addTraffic e.inward e.outward with
      errors := e.breaks.toNat, closes := (e.severs fd).toNat } := by
  rw [severs_toNat h]
  obtain ⟨thread, call, reply, arrivals⟩ := e
  cases call with
  | receive source room =>
    ext <;> simp [tally, wakes, obstructs, refuses, exposes, Tally.addTraffic]
  | send target bytes flags =>
    ext <;> simp [tally, wakes, obstructs, refuses, exposes, Tally.addTraffic]
  | _ => cases h

theorem tally_of_close (h : e.call = .close fd) : e.tally = {} := by
  obtain ⟨thread, call, reply, arrivals⟩ := e
  obtain rfl : call = .close fd := h
  rfl

theorem tally_of_clock (h : e.call = .clock) : e.tally = {} := by
  obtain ⟨thread, call, reply, arrivals⟩ := e
  obtain rfl : call = .clock := h
  rfl

theorem tally_of_localName (h : e.call = .localName fd) : e.tally = {} := by
  obtain ⟨thread, call, reply, arrivals⟩ := e
  obtain rfl : call = .localName fd := h
  rfl

end Event

/-- Why an action failed. -/
def Outcome.failure? {α : Type} : Outcome α → Option Failure
  | .failed why => some why
  | _ => none

/-- What the calls count for that prepare a socket: only the one that fails is counted. -/
theorem Prepared.tallyOf_append {allowed : Call → Prop} {o : Outcome Unit} {moved : List Event}
    (h : Prepared allowed o moved) (count : Option Failure → Tally) (hnone : count none = {})
    (hevent : ∀ e : Event, allowed e.call → e.tally = count e.failure?) (past : List Event) :
    tallyOf (moved ++ past) = tallyOf past + count o.failure? := by
  have hdone : ∀ before : List Event, (∀ e ∈ before, allowed e.call ∧ e.failure? = none) →
      tallyOf (before ++ past) = tallyOf past := fun before hb =>
    tallyOf_of_uncounted fun e he => by rw [hevent e (hb e he).1, (hb e he).2, hnone]
  cases h with
  | @done a _ calls =>
    show _ = tallyOf past + count none
    rw [hdone moved calls, hnone, Tally.add_empty]
  | @failed why last before call failure calls =>
    show _ = tallyOf past + count (some why)
    rw [List.cons_append, tallyOf, hdone before calls, hevent last call, failure]

/-- What the call of a handler counts for. -/
theorem Tells.tallyOf_append {fd : Descriptor} {moved : List Event}
    {answer : Except Failure Interest}
    (h : Tells fd moved answer) (hlength : moved.length ≤ 1) (past : List Event) :
    tallyOf (moved ++ past) =
      { (tallyOf past).addTraffic (moved.map (·.inward)).sum (moved.map (·.outward)).sum with
        errors := (tallyOf past).errors + faults answer
        closes := (tallyOf past).closes + (interestAfter answer).isEmpty.toNat } := by
  rw [h.severed, ← h.broken]
  rcases moved with _ | ⟨e, _ | ⟨e', rest⟩⟩
  · rfl
  · have hcarrier := h.carried e List.mem_cons_self
    rw [List.singleton_append, tallyOf, Event.tally_of_carrier hcarrier]
    ext <;> simp [Tally.addTraffic, List.countP_cons, Bool.toNat, cond_eq_ite]
  · simp only [List.length_cons] at hlength
    omega

/-! ## What steps count -/

namespace Node

variable {κ : Type} {n n' n'' : Node κ} {c d : Tally}

/-- What is counted between two states is `d`, and that is what the events in between count for. -/
structure Counts (d : Tally) (n n' : Node κ) : Prop where
  tally : n'.reactor.tally = n.reactor.tally + d
  past : tallyOf n'.world.past = tallyOf n.world.past + { d with accepts := 0 }
  live : n'.reactor.registry.live + d.closes = n.reactor.registry.live + d.accepts

theorem Counts.trans (h : Counts c n n') (h' : Counts d n' n'') : Counts (c + d) n n'' where
  tally := by rw [h'.tally, h.tally, Tally.add_assoc]
  past := by
    rw [h'.past, h.past, Tally.add_assoc]
    rfl
  live := by
    have hlive := h.live
    have hlive' := h'.live
    simp only [Tally.closes_add, Tally.accepts_add]
    omega

theorem Counts.refl (n : Node κ) : Counts {} n n :=
  ⟨rfl, rfl, rfl⟩

variable [Kernel κ] {α : Type} {past : List Event} {why : Failure} {r : Reactor} {fd : Descriptor}

/-! ### Steps that count nothing -/

/-- Nothing is counted between two states, and accepting is not paused. -/
structure Idle (n n' : Node κ) : Prop where
  alike : n.reactor.Alike n'.reactor
  tally : n'.reactor.tally = n.reactor.tally
  past : tallyOf n'.world.past = tallyOf n.world.past
  pause : n'.reactor.pausedUntil = n.reactor.pausedUntil ∨ n'.reactor.pausedUntil = none

omit [Kernel κ] in
theorem Idle.refl (n : Node κ) : Idle n n :=
  ⟨.refl _, rfl, rfl, .inl rfl⟩

omit [Kernel κ] in
theorem Idle.trans (h : Idle n n') (h' : Idle n' n'') : Idle n n'' where
  alike := h.alike.trans h'.alike
  tally := h'.tally.trans h.tally
  past := h'.past.trans h.past
  pause := by
    rcases h'.pause with hp | hp
    · exact hp ▸ h.pause
    · exact .inr hp

omit [Kernel κ] in
theorem Idle.counts (h : Idle n n') : Counts {} n n' :=
  ⟨h.tally, h.past, by rw [h.alike.registry]⟩

/-- Put together from actions that count nothing. -/
abbrev Idling (m : Loop κ α) : Prop :=
  Composed (fun _ m => ∀ n : Node κ, Idle n (m n).2) m

omit [Kernel κ] in
theorem Idling.idle {m : Loop κ α} (hm : Idling m) (n : Node κ) : Idle n (m n).2 :=
  Composed.along (R := Idle) .refl (fun _ _ _ h h' => h.trans h') hm (fun _ _ hb => hb) n

omit [Kernel κ] in
theorem idling_reactor : Idling (Loop.reactor : Loop κ Reactor) :=
  .basic .refl

omit [Kernel κ] in
/-- An action on the world that makes no call that is counted. -/
theorem idling_sys {m : Sys κ α} (h : ∀ w, tallyOf (m w).2.past = tallyOf w.past) :
    Idling (Loop.sys m) :=
  .basic fun n => ⟨.refl _, rfl, h n.world, .inl rfl⟩

omit [Kernel κ] in
theorem idling_log (level : Log.Level) (text : String) :
    Idling (Loop.log level text : Loop κ Unit) :=
  idling_sys fun w => congrArg tallyOf (World.write_past _ w)

theorem idling_now : Idling (Loop.sys Sys.now : Loop κ Duration) :=
  idling_sys fun w => by
    show tallyOf (w.call .clock).2.past = _
    rw [World.call_past, tallyOf, Event.tally_of_clock rfl, Tally.add_empty]

theorem idling_localAddress (fd : Descriptor) :
    Idling (Loop.sys (Socket.localAddress fd) : Loop κ Endpoint) :=
  idling_sys fun w => by
    have hpast : (Socket.localAddress fd w).2.past = (w.call (.localName fd)).2.past := by
      rw [Socket.localAddress, bind_apply, Sys.ask_apply]
      cases Sys.ending (Call.localName fd).operation (id (w.call (.localName fd)).1) with
      | ok name =>
        dsimp only
        cases name.endpoint? <;> rfl
      | failed why => rfl
      | defect what => rfl
    rw [hpast, World.call_past, tallyOf, Event.tally_of_localName rfl, Tally.add_empty]

theorem idling_prepare : Idling (prepare : Loop κ Plan) := by
  have hresume : Idling (resumeAccepting : Loop κ Unit) := by
    refine .bind idling_reactor fun r => ?_
    split
    · exact .pure ()
    · refine .bind idling_now fun now => ?_
      split
      · exact .bind (idling_log _ _) fun _ =>
          .basic fun n => ⟨⟨rfl, rfl, rfl, rfl⟩, rfl, rfl, .inr rfl⟩
      · exact .pure ()
  have hlimit : Idling (waitLimit : Loop κ (Option Duration)) := by
    refine .bind idling_reactor fun r => ?_
    split
    · exact .pure _
    · refine .bind idling_now fun now => ?_
      split <;> exact .pure _
  exact .bind hresume fun _ => .bind idling_reactor fun _ => .bind hlimit fun _ => .pure _

theorem idling_start : Idling (Reactor.start : Loop κ Duration) :=
  .bind idling_reactor fun _ => .bind (.attempt (idling_localAddress _)) fun _ =>
    .bind (idling_log _ _) fun _ => idling_now

theorem idling_report (last : Duration) : Idling (Reactor.report last : Loop κ Duration) := by
  refine .bind idling_reactor fun r => ?_
  split
  · exact .pure _
  · refine .bind idling_now fun now => ?_
    split
    · exact .bind idling_reactor fun _ => .bind (idling_log _ _) fun _ => idling_now
    · exact .pure _

omit [Kernel κ] in
theorem idling_finish : Idling (Reactor.finish : Loop κ Tally) :=
  .bind idling_reactor fun _ => .bind (idling_log _ _) fun _ => .pure _

/-! ### Waits -/

omit [Kernel κ] in
/-- Only a call that failed and was not interrupted makes a wait fail. -/
theorem ending_wakes (operation : String) (returned : Int) (errno : Errno) (listed : List Readiness)
    (w : World κ) :
    let ending : Sys κ (List Readiness) :=
      if returned < 0 then Multiplexor.interruptedOr operation errno else pure listed
    (ending w).2 = w ∧
    (ending w).1.isOk = (decide (0 ≤ returned) || decide (errno = .interrupted)) := by
  intro ending
  by_cases hneg : returned < 0
  · by_cases hintr : errno = .interrupted
    · simp only [ending, if_pos hneg, Multiplexor.interruptedOr, if_pos hintr]
      exact ⟨rfl, by simp [hintr, Outcome.isOk]⟩
    · simp only [ending, if_pos hneg, Multiplexor.interruptedOr, if_neg hintr]
      exact ⟨rfl, by simp [hneg, hintr, Outcome.isOk, Action.fail]⟩
  · simp only [ending, if_neg hneg]
    exact ⟨rfl, by simp [Int.not_lt.mp hneg, Outcome.isOk]⟩

/-- The action counts as a wait if it does not fail. -/
def Waits (m : Sys κ (List Readiness)) : Prop :=
  ∀ w, tallyOf (m w).2.past = tallyOf w.past + { loops := (m w).1.isOk.toNat }

/-- One call, from whose reply it follows whether the wait fails. -/
theorem waits_call {c : Call} {f : c.Reply → Sys κ (List Readiness)}
    (hstate : ∀ reply w, (f reply w).2 = w)
    (htally : ∀ w : World κ, (w.event c).tally =
      { loops := (f (w.call c).1 (w.call c).2).1.isOk.toNat }) : Waits (Sys.call c >>= f) := by
  intro w
  show tallyOf (f (w.call c).1 (w.call c).2).2.past =
    _ + { loops := (f (w.call c).1 (w.call c).2).1.isOk.toNat }
  rw [hstate, World.call_past, tallyOf, htally]

theorem waits_wait (m : Multiplexor) (entries : List Registration) (highest : Descriptor)
    (limit : Option Duration) : Waits (m.wait entries highest limit : Sys κ (List Readiness)) := by
  have htally : ∀ b b' : Bool, b' = b → ({ loops := b.toNat } : Tally) = { loops := b'.toNat } :=
    fun b b' h => by rw [h]
  cases m with
  | select =>
    simp only [Multiplexor.wait]
    split
    · exact fun w => rfl
    · exact waits_call (fun _ _ => (ending_wakes _ _ _ _ _).1) fun _ =>
        htally _ _ (ending_wakes _ _ _ _ _).2
  | poll =>
    exact waits_call (fun _ _ => (ending_wakes _ _ _ _ _).1) fun _ =>
      htally _ _ (ending_wakes _ _ _ _ _).2
  | external name bound =>
    refine waits_call (fun reply _ => by cases reply <;> rfl) fun w => ?_
    show Event.tally ⟨_, .watch entries highest limit, (w.call _).1, _⟩ = _
    cases (w.call (.watch entries highest limit)).1 <;> rfl

/-- A wait that does not fail is counted. -/
theorem counts_await (plan : Plan) (n : Node κ) :
    Counts { loops := (await plan n).1.isOk.toNat } n (await plan n).2 ∧
      n.reactor.Alike (await plan n).2.reactor ∧
      (await plan n).2.reactor.pausedUntil = n.reactor.pausedUntil := by
  have hpast := waits_wait n.reactor.multiplexor plan.entries plan.highest plan.limit n.world
  rcases hwait : n.reactor.multiplexor.wait plan.entries plan.highest plan.limit n.world with ⟨o, w⟩
  rw [hwait] at hpast
  cases o with
  | ok ready =>
    have hawait : await plan n = (do
        Loop.count fun t => { t with loops := t.loops + 1 }
        let loops := (← Loop.reactor).tally.loops
        Loop.log .debug s!"loop {loops}: {ready.length} ready of {plan.entries.length} registered"
        pure ready : Loop κ (List Readiness)) { n with world := w } := by
      simp only [await, bind_apply, Loop.reactor, Loop.sys, Action.onPart, hwait]
    rw [hawait]
    exact ⟨⟨rfl, (congrArg tallyOf (World.write_past _ w)).trans hpast, rfl⟩,
      ⟨rfl, rfl, rfl, rfl⟩, rfl⟩
  | failed why =>
    have hawait : await plan n = (.failed why, { n with world := w }) := by
      simp only [await, bind_apply, Loop.reactor, Loop.sys, Action.onPart, hwait]
    rw [hawait]
    exact ⟨⟨rfl, hpast, rfl⟩, .refl _, rfl⟩
  | defect what =>
    have hawait : await plan n = (.defect what, { n with world := w }) := by
      simp only [await, bind_apply, Loop.reactor, Loop.sys, Action.onPart, hwait]
    rw [hawait]
    exact ⟨⟨rfl, hpast, rfl⟩, .refl _, rfl⟩

theorem counts_wait (n : Node κ) :
    Counts { loops := ((prepare >>= await) n).1.isOk.toNat } n ((prepare >>= await) n).2 := by
  have hidle := (idling_prepare (κ := κ)).idle n
  obtain ⟨plan, n₁, hprepare⟩ := sure_prepare n
  rw [hprepare] at hidle
  rw [bind_of_ok hprepare]
  have hcounts := hidle.counts.trans (counts_await plan n₁).1
  rwa [show (({} : Tally) + { loops := (await plan n₁).1.isOk.toNat }) =
    { loops := (await plan n₁).1.isOk.toNat } by ext <;> simp] at hcounts

/-! ### Accepting -/

omit [Kernel κ] in
theorem Noted.counts (h : Noted r past why n') :
    n'.reactor.tally = r.tally + { acceptErrors := why.isHard.toNat } ∧
      tallyOf n'.world.past = tallyOf past ∧ n'.reactor.registry = r.registry := by
  cases h with
  | passed blocked reactor calls =>
    subst blocked
    rw [reactor, calls]
    exact ⟨rfl, rfl, rfl⟩
  | counted hard reactor calls =>
    obtain ⟨moved, hpast, hmoved⟩ := calls
    have hhard : why.isHard = true := by cases why <;> first | rfl | exact absurd rfl hard
    rw [reactor, hpast, hhard, tallyOf_of_uncounted fun e he => Event.tally_of_clock (hmoved e he)]
    exact ⟨rfl, rfl, rfl⟩

omit [Kernel κ] in
theorem Enrolling.counts {o : Outcome Unit} (h : Enrolling n.reactor past fd o n')
    (hpast : tallyOf past = tallyOf n.world.past) :
    ∃ d, Counts d n n' ∧ d.loops = 0 ∧ d.accepts ≤ 1 := by
  have hunblocking : ∀ {o : Outcome Unit} {moved}, Prepared (·.Unblocks fd) o moved →
      tallyOf (moved ++ past) = tallyOf n.world.past + { errors := o.failure?.isSome.toNat } :=
    fun hmoved => hpast ▸ hmoved.tallyOf_append (fun f => { errors := f.isSome.toNat }) rfl
      (fun _ => Event.tally_of_unblocks) past
  cases h with
  | blocking unblocking close reactor calls =>
    refine ⟨{ errors := 1 }, ⟨by rw [reactor]; rfl, ?_, by rw [reactor]; rfl⟩, rfl, Nat.zero_le 1⟩
    rw [calls, tallyOf, Event.tally_of_close close, hunblocking unblocking]
    rfl
  | turnedAway unblocking _ _ close reactor calls =>
    refine ⟨{}, ⟨by rw [reactor]; rfl, ?_, by rw [reactor]⟩, rfl, Nat.zero_le 1⟩
    rw [calls, tallyOf, Event.tally_of_close close, hunblocking unblocking]
    rfl
  | filed unblocking watchable inserted reactor calls =>
    obtain ⟨t, ht⟩ := inserted
    have hlive : (n.reactor.enrolled fd).registry.live = n.reactor.registry.live + 1 := by
      rw [enrolled]
      rcases Registry.insert_cases fd (n.reactor.newcomer fd) n.reactor.registry with
        ⟨e, he⟩ | ⟨-, he⟩ <;> rw [he] at ht ⊢
      cases ht
    refine ⟨{ accepts := 1 }, ⟨by rw [reactor]; rfl, ?_, ?_⟩, rfl, Nat.le_refl 1⟩
    · rw [calls, hunblocking unblocking]
      rfl
    · rw [reactor]
      exact hlive

omit [Kernel κ] in
/-- Accepting counts one connection at most. -/
theorem Reception.counts {e : Event} {o : Outcome Unit} (h : Reception n e o n')
    (hcall : e.call = .accept n.reactor.listener) :
    ∃ d, Counts d n n' ∧ d.loops = 0 ∧ d.accepts ≤ 1 := by
  have hevent := Event.tally_of_accept hcall
  have hopened : ∀ {fd}, e.opened? = some fd → tallyOf (e :: n.world.past) = tallyOf n.world.past :=
    fun ho => by rw [tallyOf, hevent, e.failure?_of_opened hcall ho]; rfl
  have hsealing : ∀ {fd} {o : Outcome Unit} {moved}, e.opened? = some fd →
      Prepared (·.Seals fd) o moved →
      tallyOf (moved ++ e :: n.world.past) =
        tallyOf n.world.past + { acceptErrors := (o.failure?.any (·.isHard)).toNat } := by
    intro fd o moved ho hmoved
    rw [hmoved.tallyOf_append (fun f => { acceptErrors := (f.any (·.isHard)).toNat }) rfl
      (fun _ => Event.tally_of_seals), hopened ho]
  cases h with
  | @failed _ why opened failure noted =>
    obtain ⟨htally, hpast, hregistry⟩ := noted.counts
    refine ⟨{ acceptErrors := why.isHard.toNat }, ⟨htally, ?_, by rw [hregistry]⟩, rfl,
      Nat.zero_le 1⟩
    rw [hpast, tallyOf, hevent, failure]
    rfl
  | @unsealed _ fd moved why closing opened sealing close noted =>
    obtain ⟨htally, hpast, hregistry⟩ := noted.counts
    refine ⟨{ acceptErrors := why.isHard.toNat }, ⟨htally, ?_, by rw [hregistry]⟩, rfl,
      Nat.zero_le 1⟩
    rw [hpast, tallyOf, Event.tally_of_close close, hsealing opened sealing]
    rfl
  | sealed opened sealing enrolling => exact enrolling.counts (hsealing opened sealing)

/-! ### Serving -/

variable {others : List Descriptor} {theirs : Descriptor → Traffic}

/-- Serving a connection counts no wait and no connection. -/
theorem counts_serve (hsound : Scene.Sound others theirs (Viewed.view n)) (t : Ticket)
    (d : Direction) (hlaw : Lawful (serve t d n).2.world.past) :
    ∃ c, Counts c n (serve t d n).2 ∧ c.loops = 0 ∧ c.accepts = 0 := by
  cases hg : n.reactor.registry.get? t with
  | none =>
    rw [serve_stale hg]
    exact ⟨{}, .refl n, rfl, rfl⟩
  | some entry =>
    obtain ⟨answer, session, moved, closing, n', hserve, hlength, htells, hr, hpast, hclosing⟩ :=
      serve_apply hsound hg d hlaw
    obtain ⟨_, -, ha, -⟩ := hsound
    obtain ⟨hs, -, hg', -⟩ :=
      Registry.modify_of_get? ha.registry hg (fun e => { e with session }) rfl
    rw [hserve]
    refine ⟨{ ({} : Tally).addTraffic (moved.map (·.inward)).sum (moved.map (·.outward)).sum with
        errors := faults answer, closes := (interestAfter answer).isEmpty.toNat },
      ⟨?_, ?_, ?_⟩, rfl, rfl⟩
    · rw [hr, keeping_tally]
      ext <;> simp [counting, refile, Tally.addTraffic]
    · have huncounted : ∀ e ∈ closing, e.tally = {} := fun e he => by
        have hcall := List.mem_map_of_mem (f := Event.call) he
        rw [hclosing] at hcall
        split at hcall
        · exact Event.tally_of_close (List.mem_singleton.mp hcall)
        · cases hcall
      rw [hpast, tallyOf_of_uncounted huncounted, htells.tallyOf_append hlength]
      ext <;> simp [Tally.addTraffic]
    · rw [hr]
      have hlive : (n.reactor.registry.modify t fun e => { e with session }).live =
          n.reactor.registry.live := by
        rw [Registry.modify, hg]
        rfl
      exact (keeping_live hs hg' _).trans hlive

theorem counts_when (hsound : Scene.Sound others theirs (Viewed.view n)) (t : Ticket) (b : Bool)
    (d : Direction) (hlaw : Lawful (Action.when b (serve t d) n).2.world.past) :
    ∃ c, Counts c n (Action.when b (serve t d) n).2 ∧ c.loops = 0 ∧ c.accepts = 0 := by
  cases b with
  | true => exact counts_serve hsound t d hlaw
  | false => exact ⟨{}, .refl n, rfl, rfl⟩

theorem counts_serveReady (hsound : Scene.Sound others theirs (Viewed.view n)) (t : Ticket)
    (ready : Readiness) (hlaw : Lawful (serveReady t ready n).2.world.past) :
    ∃ c, Counts c n (serveReady t ready n).2 ∧ c.loops = 0 ∧ c.accepts = 0 := by
  have hkeeps : Keeps (Scene.Sound others theirs)
      (Action.when ready.readable (serve t .receive) : Loop κ Unit) :=
    Triple.when (sound_serve t .receive) fun _ _ h => h
  have htame : Loop.Tame (Action.when ready.writable (serve t .send) : Loop κ Unit) :=
    .when (tame_serve t .send)
  have hlaw₁ : Lawful (Action.when ready.readable (serve t .receive) n).2.world.past :=
    hlaw.of_suffix (grows_bind (fun _ => htame.grows.grows) n)
  have hsound₁ := hkeeps.ensures n hsound hlaw₁
  obtain ⟨c₁, hc₁, hloops₁, haccepts₁⟩ := counts_when hsound t ready.readable .receive hlaw₁
  rw [serveReady, bind_apply] at hlaw ⊢
  rcases hfirst : Action.when ready.readable (serve t .receive) n with ⟨o, n₁⟩
  rw [hfirst] at hlaw hsound₁ hc₁
  cases o with
  | ok _ =>
    obtain ⟨c₂, hc₂, hloops₂, haccepts₂⟩ := counts_when hsound₁ t ready.writable .send hlaw
    refine ⟨c₁ + c₂, hc₁.trans hc₂, ?_, ?_⟩
    · rw [Tally.loops_add, hloops₁, hloops₂]
    · rw [Tally.accepts_add, haccepts₁, haccepts₂]
  | failed why => exact ⟨c₁, hc₁, hloops₁, haccepts₁⟩
  | defect what => exact ⟨c₁, hc₁, hloops₁, haccepts₁⟩

/-- A turn counts no wait, and one connection at most if it is the listener's. -/
theorem counts_dispatch (hsound : Scene.Sound others theirs (Viewed.view n)) (ready : Readiness)
    (hlaw : Lawful (dispatch ready n).2.world.past) :
    ∃ c, Counts c n (dispatch ready n).2 ∧ c.loops = 0 ∧
      c.accepts ≤ if ready.fd = n.reactor.listener then 1 else 0 := by
  by_cases he : ready.fd = n.reactor.listener
  · rw [dispatch_listener he, if_pos he]
    cases ready.readable with
    | true => exact (reception_acceptOne n).counts rfl
    | false => exact ⟨{}, .refl n, rfl, Nat.zero_le 1⟩
  · rw [if_neg he]
    cases hf : n.reactor.registry.find? ready.fd with
    | none =>
      rw [dispatch_missing he hf]
      exact ⟨{}, .refl n, rfl, Nat.le_refl 0⟩
    | some t =>
      rw [dispatch_found he hf] at hlaw ⊢
      obtain ⟨c, hc, hloops, haccepts⟩ := counts_serveReady hsound t ready hlaw
      exact ⟨c, hc, hloops, Nat.le_of_eq haccepts⟩

end Node

end SpanEcho

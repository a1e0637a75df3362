import SpanEcho.Proofs.Calls
import SpanEcho.Proofs.Reactor.Tidy

/-!
# How accepting goes

An accepted socket is made to close on execution, then made non-blocking, and then filed. Each step
can fail, and each failure has its own consequence. `Reception` has every way in which accepting can
go, with the calls that were made and the reactor that is left, down to the counters and the pause,
whatever the kernel replies.
-/

namespace SpanEcho

open SpanEcho.Action Loop Reactor

/-! ## Replies -/

/-- The call cannot be done now: it would have to wait, or was interrupted. -/
def Answer.Deferred {α : Type} : Answer α → Prop
  | .failed errno => errno = .again ∨ errno = .interrupted
  | _ => False

/-- The call to accept, receive or send cannot be done now. -/
def Event.Deferred : Event → Prop
  | ⟨_, .accept _, reply, _⟩ => reply.Deferred
  | ⟨_, .receive _ _, reply, _⟩ => reply.Deferred
  | ⟨_, .send _ _ _, reply, _⟩ => reply.Deferred
  | _ => False

/-- The call failed, and a later try would be no better. -/
def Answer.fails {α : Type} : Answer α → Bool
  | .ok _ => false
  | .failed errno => errno ≠ .again ∧ errno ≠ .interrupted
  | .notOpen => true

theorem Answer.fails_of_deferred {α : Type} {answer : Answer α} (h : answer.Deferred) :
    answer.fails = false := by
  cases answer with
  | ok value => rfl
  | notOpen => exact h.elim
  | failed errno => exact decide_eq_false fun hne => h.elim hne.1 hne.2

/-- A reply is a value, or a reason to try later, or a failure. -/
theorem Answer.result_cases {α : Type} (answer : Answer α) (operation : String) :
    (∃ value, answer = .ok value) ∨
      answer.Deferred ∧ answer.result operation = .error .wouldBlock ∨
      answer.fails ∧ ∃ errno, answer.result operation = .error (.system operation errno) := by
  cases answer with
  | ok value => exact .inl ⟨value, rfl⟩
  | notOpen => exact .inr (.inr ⟨rfl, _, rfl⟩)
  | failed errno =>
    by_cases hd : errno = .again ∨ errno = .interrupted
    · exact .inr (.inl ⟨hd, if_pos hd⟩)
    · exact .inr (.inr ⟨decide_eq_true (not_or.mp hd), _, if_neg hd⟩)

/-- Why a call failed. -/
def Answer.failure? {α : Type} (operation : String) (answer : Answer α) : Option Failure :=
  match answer.result operation with
  | .ok _ => none
  | .error e => some e

/-- A call that would have to wait, or was interrupted, is one to try again later. Any other number
is reported, under the name of the call. -/
theorem Answer.failure?_failed {α : Type} (operation : String) (errno : Errno) :
    (Answer.failed errno : Answer α).failure? operation =
      some (if errno = .again ∨ errno = .interrupted then .wouldBlock
        else .system operation errno.recognized) := by
  by_cases hd : errno = .again ∨ errno = .interrupted <;> simp [failure?, result, hd]

/-- Why the call of an event failed, if it is one of those that it takes to accept a connection. -/
def Event.failure? : Event → Option Failure
  | ⟨_, .accept fd, reply, _⟩ => reply.failure? (Call.accept fd).operation
  | ⟨_, .descriptorFlags fd, reply, _⟩ => reply.failure? (Call.descriptorFlags fd).operation
  | ⟨_, .setDescriptorFlags fd flags, reply, _⟩ =>
    reply.failure? (Call.setDescriptorFlags fd flags).operation
  | ⟨_, .statusFlags fd, reply, _⟩ => reply.failure? (Call.statusFlags fd).operation
  | ⟨_, .setStatusFlags fd flags, reply, _⟩ =>
    reply.failure? (Call.setStatusFlags fd flags).operation
  | _ => none

/-- A call to accept that was put off failed for that reason. -/
theorem Event.failure?_of_deferred {listener : Descriptor} {why : Failure} (e : Event)
    (hcall : e.call = .accept listener) (hd : e.Deferred) (h : e.failure? = some why) :
    why = .wouldBlock := by
  obtain ⟨thread, call, reply, arrivals⟩ := e
  obtain rfl : call = .accept listener := hcall
  cases reply with
  | ok accepted => exact hd.elim
  | notOpen => exact hd.elim
  | failed errno =>
    change errno = .again ∨ errno = .interrupted at hd
    change Answer.failure? "accept" (.failed errno : Answer (Nat × SocketName)) = _ at h
    rw [Answer.failure?_failed, if_pos hd] at h
    exact (Option.some.inj h).symm

theorem Event.failure?_of_opened {listener fd : Descriptor} (e : Event)
    (hcall : e.call = .accept listener) (ho : e.opened? = some fd) : e.failure? = none := by
  obtain ⟨thread, call, reply, arrivals⟩ := e
  obtain rfl : call = .accept listener := hcall
  cases reply with
  | ok accepted => rfl
  | failed errno => cases ho
  | notOpen => cases ho

/-! ## Preparing a socket -/

/-- The calls that make `fd` close on execution. -/
def Call.Seals (fd : Descriptor) (c : Call) : Prop :=
  c = .descriptorFlags fd ∨ ∃ flags, c = .setDescriptorFlags fd flags

/-- The calls that make `fd` non-blocking. -/
def Call.Unblocks (fd : Descriptor) (c : Call) : Prop :=
  c = .statusFlags fd ∨ ∃ flags, c = .setStatusFlags fd flags

theorem Call.Seals.quiet {fd : Descriptor} {c : Call} (h : c.Seals fd) : c.Quiet := by
  rcases h with rfl | ⟨flags, rfl⟩ <;> exact trivial

theorem Call.Unblocks.quiet {fd : Descriptor} {c : Call} (h : c.Unblocks fd) : c.Quiet := by
  rcases h with rfl | ⟨flags, rfl⟩ <;> exact trivial

/-- How calls went that were made one after the other, the latest first: all did their work, or the
last one failed. -/
inductive Prepared {α : Type} (allowed : Call → Prop) : Outcome α → List Event → Prop
  | done {a : α} {moved : List Event} (calls : ∀ e ∈ moved, allowed e.call ∧ e.failure? = none) :
      Prepared allowed (.ok a) moved
  | failed {why : Failure} {last : Event} {before : List Event} (call : allowed last.call)
      (failure : last.failure? = some why)
      (calls : ∀ e ∈ before, allowed e.call ∧ e.failure? = none) :
      Prepared allowed (.failed why) (last :: before)

theorem Prepared.allowed {α : Type} {allowed : Call → Prop} {o : Outcome α} {moved : List Event}
    (h : Prepared allowed o moved) : ∀ e ∈ moved, allowed e.call := by
  cases h with
  | done calls => exact fun e he => (calls e he).1
  | failed call _ calls =>
    intro e he
    rcases List.mem_cons.mp he with rfl | he
    · exact call
    · exact (calls e he).1

/-- What did not go well has a call that failed. -/
theorem Prepared.obstacle {α : Type} {allowed : Call → Prop} {why : Failure} {moved : List Event}
    (h : Prepared allowed (.failed why : Outcome α) moved) : ∃ e ∈ moved, e.failure?.isSome := by
  cases h with
  | failed _ failure _ => exact ⟨_, List.mem_cons_self, Option.isSome_iff_exists.mpr ⟨_, failure⟩⟩

namespace Sys

variable {κ α β : Type} [Kernel κ] {allowed : Call → Prop}

/-- The action makes allowed calls up to the first that fails, and ends as the last one did. -/
def Prepares (allowed : Call → Prop) (m : Sys κ α) : Prop :=
  ∀ w, ∃ moved, (m w).2.past = moved ++ w.past ∧ Prepared allowed (m w).1 moved

omit [Kernel κ] in
theorem prepares_pure (a : α) : Prepares allowed (pure a : Sys κ α) :=
  fun _ => ⟨[], rfl, .done (List.forall_mem_nil _)⟩

theorem prepares_ask {c : Call} {read : c.Reply → Answer α} (hc : allowed c)
    (h : ∀ w : World κ, (w.event c).failure? = (read (w.call c).1).failure? c.operation) :
    Prepares allowed (Sys.ask c read : Sys κ α) := by
  intro w
  rw [ask_apply]
  refine ⟨[w.event c], World.call_past c w, ?_⟩
  have hfailure := h w
  unfold ending
  unfold Answer.failure? at hfailure
  cases hr : (read (w.call c).1).result c.operation with
  | ok value =>
    rw [hr] at hfailure
    exact .done (by simpa using ⟨hc, hfailure⟩)
  | error why =>
    rw [hr] at hfailure
    exact .failed hc hfailure (List.forall_mem_nil _)

omit [Kernel κ] in
theorem prepares_bind {m : Sys κ α} {f : α → Sys κ β} (hm : Prepares allowed m)
    (hf : ∀ a, Prepares allowed (f a)) : Prepares allowed (m >>= f) := by
  intro w
  obtain ⟨moved, hpast, hmoved⟩ := hm w
  rw [bind_apply]
  rcases hw : m w with ⟨o, w'⟩
  rw [hw] at hpast hmoved
  cases hmoved with
  | failed call failure calls => exact ⟨_, hpast, .failed call failure calls⟩
  | @done a _ calls =>
    obtain ⟨later, hlater, hends⟩ := hf a w'
    refine ⟨later ++ moved, by rw [hlater, hpast, List.append_assoc], ?_⟩
    show Prepared allowed (f a w').1 _
    generalize (f a w').1 = o at hends ⊢
    cases hends with
    | done calls' =>
      refine .done fun e he => ?_
      rcases List.mem_append.mp he with he | he
      · exact calls' e he
      · exact calls e he
    | failed call failure calls' =>
      refine .failed call failure fun e he => ?_
      rcases List.mem_append.mp he with he | he
      · exact calls' e he
      · exact calls e he

end Sys

namespace Socket

variable {κ α : Type} [Kernel κ]

theorem prepares_setCloseOnExec (fd : Descriptor) :
    Sys.Prepares (·.Seals fd) (setCloseOnExec fd : Sys κ Unit) :=
  Sys.prepares_bind (Sys.prepares_ask (.inl rfl) fun _ => rfl) fun _ =>
    Sys.prepares_ask (.inr ⟨_, rfl⟩) fun _ => rfl

theorem prepares_setNonBlocking (fd : Descriptor) :
    Sys.Prepares (·.Unblocks fd) (setNonBlocking fd : Sys κ Unit) := by
  refine Sys.prepares_bind (Sys.prepares_ask (.inl rfl) fun _ => rfl) fun flags => ?_
  split
  · exact Sys.prepares_pure ()
  · exact Sys.prepares_ask (.inr ⟨_, rfl⟩) fun _ => rfl

theorem closingOnFailure_apply (fd : Descriptor) (m : Sys κ α) (w : World κ) :
    closingOnFailure [fd] m w = match m w with
      | (.ok a, w') => (.ok a, w')
      | (o, w') => (o, (w'.call (.close fd)).2) := by
  simp only [closingOnFailure, bind_apply, observe]
  rcases m w with ⟨o, w'⟩
  cases o <;> rfl

variable {listener : Descriptor} {w : World κ}

/-- The call that accepts fails, and with it the rest. -/
theorem accept_failed {why : Failure}
    (h : (w.call (.accept listener)).1.result "accept" = .error why) :
    Socket.accept listener w = (.failed why, (w.call (.accept listener)).2) := by
  have hask : Sys.ask (.accept listener) id w = (.failed why, (w.call (.accept listener)).2) :=
    Sys.ask_failed h
  rw [Socket.accept, bind_apply, hask]

/-- A socket that was accepted is sealed and handed over, or closed again. -/
theorem accept_answered {number : Nat} {name : SocketName}
    (h : (w.call (.accept listener)).1 = .ok (number, name)) :
    ∃ w' moved, w'.past = moved ++ (w.call (.accept listener)).2.past ∧
      ((∃ peer, Socket.accept listener w = (.ok ((number : Descriptor), peer), w') ∧
          Prepared (·.Seals number) (.ok () : Outcome Unit) moved) ∨
        ∃ why, Socket.accept listener w = (.failed why, (w'.call (.close number)).2) ∧
          Prepared (·.Seals number) (.failed why : Outcome Unit) moved) := by
  have hask : Sys.ask (.accept listener) id w =
      (.ok (number, name), (w.call (.accept listener)).2) := Sys.ask_ok h
  obtain ⟨moved, hpast, hmoved⟩ :=
    prepares_setCloseOnExec (number : Descriptor) (w.call (.accept listener)).2
  refine ⟨_, moved, hpast, ?_⟩
  rw [Socket.accept, bind_apply, hask]
  simp only [closingOnFailure_apply, bind_apply]
  rcases hseal : Socket.setCloseOnExec (number : Descriptor) (w.call (.accept listener)).2 with
    ⟨o, w'⟩
  rw [hseal] at hmoved
  cases hmoved with
  | done calls => exact .inl ⟨_, rfl, .done calls⟩
  | failed call failure calls => exact .inr ⟨_, rfl, .failed call failure calls⟩

end Socket

/-- The calls that follow the one that accepts: they prepare or close what was handed out, or read
the clock. -/
def Call.Handles (opened? : Option Descriptor) (c : Call) : Prop :=
  c = .clock ∨ ∃ fd, opened? = some fd ∧ (c.Seals fd ∨ c.Unblocks fd ∨ c = .close fd)

/-- The call accepts, receives and sends nothing, and names no descriptor but the one handed out. -/
def Call.About (opened? : Option Descriptor) (c : Call) : Prop :=
  c.subject? = none ∧ ∀ fd ∈ c.names, opened? = some fd

theorem Call.Handles.about {opened? : Option Descriptor} {c : Call} (h : c.Handles opened?) :
    c.About opened? := by
  rcases h with rfl | ⟨fd, ho, (rfl | ⟨flags, rfl⟩) | (rfl | ⟨flags, rfl⟩) | rfl⟩
  · exact ⟨rfl, nofun⟩
  all_goals exact ⟨rfl, fun x hx => by rw [ho, List.mem_singleton.mp hx]⟩

/-! ## Failed accepts -/

namespace Reactor

/-- The reactor once a failed accept is counted, at the time `now`. -/
def refused (r : Reactor) (why : Failure) (now : Duration) : Reactor :=
  { r with
    tally := { r.tally with acceptErrors := r.tally.acceptErrors + 1 }
    pausedUntil := if why.isExhaustion then some (now + acceptPause) else r.pausedUntil }

/-- The reactor once a failed preparation is counted. -/
def erring (r : Reactor) : Reactor :=
  { r with tally := { r.tally with errors := r.tally.errors + 1 } }

/-- The reactor once a newcomer is counted. -/
def welcoming (r : Reactor) : Reactor :=
  { r with tally := { r.tally with accepts := r.tally.accepts + 1 } }

end Reactor

namespace Node

variable {κ : Type} [Kernel κ] {n : Node κ}

/-- What is made of a failed accept: one that would have to wait is no failure. -/
inductive Noted (r : Reactor) (past : List Event) (why : Failure) (n' : Node κ) : Prop
  | passed (blocked : why = .wouldBlock) (reactor : n'.reactor = r) (past : n'.world.past = past)
  | counted {now : Duration} (hard : why ≠ .wouldBlock) (reactor : n'.reactor = r.refused why now)
      (calls : Added (· = .clock) past n'.world.past)

theorem acceptFailed_apply (why : Failure) (n : Node κ) :
    ∃ now n', acceptFailed why n = (.ok (), n') ∧ n'.reactor = n.reactor.refused why now ∧
      Added (· = .clock) n.world.past n'.world.past := by
  unfold acceptFailed Reactor.refused
  cases hex : why.isExhaustion with
  | true =>
    refine ⟨_, _, rfl, rfl, ?_⟩
    have hpast : ∀ line, ((n.world.write line).call .clock).2.past =
        (n.world.write line).event .clock :: n.world.past := fun line => by
      rw [World.call_past, World.write_past]
    exact (hpast _).symm ▸ .single rfl
  | false =>
    have hpast : ∀ line, (n.world.write line).past = n.world.past :=
      fun line => World.write_past line _
    exact ⟨0, _, rfl, rfl, (hpast _).symm ▸ .refl _⟩

/-- A failed accept is logged and counted apart; one that would have to wait is not counted. -/
theorem acceptOne_failed {why : Failure} {w' : World κ}
    (h : Socket.accept n.reactor.listener n.world = (.failed why, w')) :
    ∃ n', acceptOne n = (.ok (), n') ∧ Noted n.reactor w'.past why n' := by
  by_cases hw : why = .wouldBlock
  · subst hw
    have hblocked : acceptOne n =
        Loop.log .debug "accept returned EAGAIN or EWOULDBLOCK" { n with world := w' } := by
      simp only [acceptOne, bind_apply, Loop.reactor, Action.attempt, Loop.sys, Action.onPart, h]
    exact ⟨_, hblocked.trans rfl, .passed rfl rfl (World.write_past _ _)⟩
  · have hfailed : acceptOne n = acceptFailed why { n with world := w' } := by
      simp only [acceptOne, bind_apply, Loop.reactor, Action.attempt, Loop.sys, Action.onPart, h]
    obtain ⟨now, n', hn', hr, hadded⟩ := acceptFailed_apply why { n with world := w' }
    exact ⟨n', hfailed.trans hn', .counted hw hr hadded⟩

theorem acceptOne_accepted {fd : Descriptor} {peer : Option Endpoint} {w' : World κ}
    (h : Socket.accept n.reactor.listener n.world = (.ok (fd, peer), w')) :
    acceptOne n = enrol fd peer { n with world := w' } := by
  simp only [acceptOne, bind_apply, Loop.reactor, Action.attempt, Loop.sys, Action.onPart, h]

/-! ## Filing a newcomer -/

/-- How it ends when an accepted socket is closed again: without failure if a call on it failed. -/
def Drops (r : Reactor) (fd : Descriptor) : Outcome Unit → Prop
  | .ok _ => True
  | .failed why => r.multiplexor.refusal? fd = some why ∨
      r.multiplexor.refusal? fd = none ∧
        (Registry.insert fd (r.newcomer fd) r.registry).1 = .failed why
  | .defect d => r.multiplexor.refusal? fd = none ∧ d = .blockTooLarge r.settings.sendCapacity ∧
      Memory.largestBlock < r.settings.sendCapacity

/-- What is tried once an accepted socket is non-blocking. -/
def filing (r : Reactor) (fd : Descriptor) : Loop κ Unit := do
  Loop.sys (r.multiplexor.check fd)
  Memory.reserve r.settings.sendCapacity
  let _ ← Loop.registry (Registry.insert fd (r.newcomer fd))

omit [Kernel κ] in
/-- Until a newcomer is filed nothing changes. -/
theorem filing_apply (fd : Descriptor) (n : Node κ) :
    (∃ o, filing n.reactor fd n = (o, n) ∧ o ≠ .ok () ∧ Drops n.reactor fd o) ∨
      filing n.reactor fd n = (.ok (), { n with reactor := n.reactor.enrolled fd }) ∧
        n.reactor.multiplexor.refusal? fd = none ∧
        ∃ t, (Registry.insert fd (n.reactor.newcomer fd) n.reactor.registry).1 = .ok t := by
  cases hrefusal : n.reactor.multiplexor.refusal? fd with
  | some why =>
    refine .inl ⟨.failed why, ?_, by simp, .inl hrefusal⟩
    simp only [filing, bind_apply, Loop.sys, Action.onPart, Multiplexor.check, hrefusal]
    rfl
  | none =>
    by_cases hblock : n.reactor.settings.sendCapacity ≤ Memory.largestBlock
    · have hfiling : filing n.reactor fd n =
          (Loop.registry (Registry.insert fd (n.reactor.newcomer fd)) >>= fun _ => pure () :
            Loop κ Unit) n := by
        simp only [filing, bind_apply, Loop.sys, Action.onPart, Multiplexor.check, hrefusal,
          Memory.reserve, Memory.refusal?, if_pos hblock]
        rfl
      rw [hfiling]
      rcases Registry.insert_cases fd (n.reactor.newcomer fd) n.reactor.registry with
        ⟨e, he⟩ | ⟨-, he⟩
      · refine .inl ⟨.failed e, ?_, by simp, .inr ⟨hrefusal, by rw [he]⟩⟩
        simp only [bind_apply, Loop.registry, Action.onPart, he]
      · refine .inr ⟨?_, rfl, _, by rw [he]⟩
        simp only [bind_apply, Loop.registry, Action.onPart, enrolled, he]
        rfl
    · refine .inl ⟨.defect (.blockTooLarge n.reactor.settings.sendCapacity), ?_, by simp, hrefusal,
        rfl, Nat.lt_of_not_le hblock⟩
      simp only [filing, bind_apply, Loop.sys, Action.onPart, Multiplexor.check, hrefusal,
        Memory.reserve, Memory.refusal?, if_neg hblock]
      rfl

/-- What is done once a newcomer is filed. -/
def welcome (fd : Descriptor) (peer : Option Endpoint) : Loop κ Unit := do
  Loop.count fun t => { t with accepts := t.accepts + 1 }
  Loop.sys (Socket.reportPeer peer)
  Loop.log .debug s!"socket {fd} accepted, interest {Interest.write.text}"

omit [Kernel κ] in
theorem welcome_apply (fd : Descriptor) (peer : Option Endpoint) (n : Node κ) :
    ∃ n', welcome fd peer n = (.ok (), n') ∧ n'.reactor = n.reactor.welcoming ∧
      n'.world.past = n.world.past := by
  cases peer <;> exact ⟨_, rfl, rfl, (World.write_past _ _).trans (World.write_past _ _)⟩

/-- What is done once it was tried to file a newcomer. -/
def conclude (fd : Descriptor) (peer : Option Endpoint) : Outcome Unit → Loop κ Unit
  | .ok () => welcome fd peer
  | bad => do
    Loop.sys (Socket.close fd)
    Action.ofOutcome bad

/-- What becomes of an accepted socket that closes on execution. -/
inductive Enrolling (r : Reactor) (past : List Event) (fd : Descriptor) :
    Outcome Unit → Node κ → Prop
  /-- It could not be made non-blocking, and was closed. -/
  | blocking {n' : Node κ} {moved : List Event} {why : Failure} {closing : Event}
      (unblocking : Prepared (·.Unblocks fd) (.failed why : Outcome Unit) moved)
      (close : closing.call = .close fd) (reactor : n'.reactor = r.erring)
      (calls : n'.world.past = closing :: (moved ++ past)) : Enrolling r past fd (.ok ()) n'
  /-- It could not be filed, and was closed. -/
  | turnedAway {o : Outcome Unit} {n' : Node κ} {moved : List Event} {closing : Event}
      (unblocking : Prepared (·.Unblocks fd) (.ok () : Outcome Unit) moved) (bad : o ≠ .ok ())
      (cause : Drops r fd o) (close : closing.call = .close fd) (reactor : n'.reactor = r)
      (calls : n'.world.past = closing :: (moved ++ past)) : Enrolling r past fd o n'
  | filed {n' : Node κ} {moved : List Event}
      (unblocking : Prepared (·.Unblocks fd) (.ok () : Outcome Unit) moved)
      (watchable : r.multiplexor.refusal? fd = none)
      (inserted : ∃ t, (Registry.insert fd (r.newcomer fd) r.registry).1 = .ok t)
      (reactor : n'.reactor = (r.enrolled fd).welcoming)
      (calls : n'.world.past = moved ++ past) : Enrolling r past fd (.ok ()) n'

theorem enrolling_enrol (fd : Descriptor) (peer : Option Endpoint) (n : Node κ) :
    Enrolling n.reactor n.world.past fd (enrol fd peer n).1 (enrol fd peer n).2 := by
  obtain ⟨moved, hpast, hmoved⟩ := Socket.prepares_setNonBlocking fd n.world
  rcases hset : Socket.setNonBlocking fd n.world with ⟨o, w⟩
  rw [hset] at hpast hmoved
  cases hmoved with
  | @failed why last before call failure calls =>
    have happly : enrol fd peer n = (do
        Loop.log .warn s!"socket {fd}: {why.describe}"
        Loop.count fun t => { t with errors := t.errors + 1 }
        Loop.sys (Socket.close fd) : Loop κ Unit) { n with world := w } := by
      simp only [enrol, bind_apply, Action.attempt, Loop.sys, Action.onPart, hset]
    rw [happly]
    have hclosed : ∀ line, ((w.write line).call (.close fd)).2.past =
        (w.write line).event (.close fd) :: (last :: before ++ n.world.past) := fun line => by
      rw [World.call_past, World.write_past]
      exact congrArg _ hpast
    exact .blocking (.failed call failure calls) rfl rfl (hclosed _)
  | done calls =>
    have happly : enrol fd peer n =
        (Action.observe (filing n.reactor fd) >>= conclude fd peer) { n with world := w } := by
      simp only [enrol, bind_apply, Action.attempt, Loop.sys, Action.onPart, hset]
      rfl
    rw [happly]
    rcases filing_apply fd { n with world := w } with
      ⟨o, hfiling, hbad, hcause⟩ | ⟨hfiling, hfree, hinsert⟩
    · have hconclude : (Action.observe (filing n.reactor fd) >>= conclude fd peer)
          { n with world := w } = (o, { n with world := (w.call (.close fd)).2 }) := by
        simp only [bind_apply, Action.observe, hfiling]
        cases o with
        | ok _ => exact absurd rfl hbad
        | failed why => rfl
        | defect d => rfl
      rw [hconclude]
      exact .turnedAway (.done calls) hbad hcause rfl rfl
        ((World.call_past _ _).trans (congrArg _ hpast))
    · obtain ⟨n', hwelcome, hr, hpast'⟩ := welcome_apply fd peer ⟨n.reactor.enrolled fd, w⟩
      have hconclude : (Action.observe (filing n.reactor fd) >>= conclude fd peer)
          { n with world := w } = (.ok (), n') := by
        simp only [bind_apply, Action.observe, hfiling]
        exact hwelcome
      rw [hconclude]
      exact .filed (.done calls) hfree hinsert hr (hpast'.trans hpast)

/-! ## Accepting -/

/-- How accepting can go; `e` is the event of the call that accepts. -/
inductive Reception (n : Node κ) (e : Event) : Outcome Unit → Node κ → Prop
  /-- Nothing was accepted. -/
  | failed {n' : Node κ} {why : Failure} (opened : e.opened? = none)
      (failure : e.failure? = some why)
      (noted : Noted n.reactor (e :: n.world.past) why n') : Reception n e (.ok ()) n'
  /-- A socket was accepted that could not be made to close on execution. It was closed, and the
  accept counts as failed. -/
  | unsealed {n' : Node κ} {fd : Descriptor} {moved : List Event} {why : Failure} {closing : Event}
      (opened : e.opened? = some fd)
      (sealing : Prepared (·.Seals fd) (.failed why : Outcome Unit) moved)
      (close : closing.call = .close fd)
      (noted : Noted n.reactor (closing :: (moved ++ e :: n.world.past)) why n') :
      Reception n e (.ok ()) n'
  | sealed {o : Outcome Unit} {n' : Node κ} {fd : Descriptor} {moved : List Event}
      (opened : e.opened? = some fd) (sealing : Prepared (·.Seals fd) (.ok () : Outcome Unit) moved)
      (enrolling : Enrolling n.reactor (moved ++ e :: n.world.past) fd o n') : Reception n e o n'

/-- The call that accepts fails. -/
theorem reception_failed {why : Failure}
    (h : (n.world.call (.accept n.reactor.listener)).1.result "accept" = .error why) :
    Reception n (n.world.event (.accept n.reactor.listener)) (acceptOne n).1 (acceptOne n).2 := by
  have hfailure : (n.world.event (.accept n.reactor.listener)).failure? = some why := by
    change ((n.world.call (.accept n.reactor.listener)).1.failure? "accept") = _
    rw [Answer.failure?, h]
  have hopened : (n.world.event (.accept n.reactor.listener)).opened? = none := by
    change Event.opened? ⟨_, .accept _, (n.world.call (.accept n.reactor.listener)).1, _⟩ = none
    cases hr : (n.world.call (.accept n.reactor.listener)).1 with
    | ok accepted =>
      rw [hr] at h
      cases h
    | failed errno => rfl
    | notOpen => rfl
  obtain ⟨n', hn', hnoted⟩ := acceptOne_failed (Socket.accept_failed h)
  rw [World.call_past] at hnoted
  rw [hn']
  exact .failed hopened hfailure hnoted

theorem reception_acceptOne (n : Node κ) :
    Reception n (n.world.event (.accept n.reactor.listener)) (acceptOne n).1 (acceptOne n).2 := by
  rcases (n.world.call (.accept n.reactor.listener)).1.result_cases "accept" with
    ⟨⟨number, name⟩, hr⟩ | ⟨-, hresult⟩ | ⟨-, errno, hresult⟩
  · have hopened :
        (n.world.event (.accept n.reactor.listener)).opened? = some (number : Descriptor) := by
      change Event.opened? ⟨_, .accept _, (n.world.call (.accept n.reactor.listener)).1, _⟩ = _
      rw [hr]
      rfl
    obtain ⟨w, moved, hpast, haccept⟩ := Socket.accept_answered hr
    rw [World.call_past] at hpast
    rcases haccept with ⟨peer, haccept, hsealed⟩ | ⟨why, haccept, hunsealed⟩
    · have henrol := enrolling_enrol number peer ⟨n.reactor, w⟩
      rw [← acceptOne_accepted haccept] at henrol
      exact .sealed hopened hsealed (hpast ▸ henrol)
    · obtain ⟨n', hn', hnoted⟩ := acceptOne_failed haccept
      rw [World.call_past, hpast] at hnoted
      rw [hn']
      exact .unsealed hopened hunsealed rfl hnoted
  · exact reception_failed hresult
  · exact reception_failed hresult

omit [Kernel κ] in
theorem Noted.handles {r : Reactor} {past : List Event} {why : Failure} {n' : Node κ}
    (h : Noted r past why n') (opened? : Option Descriptor) :
    Added (·.Handles opened?) past n'.world.past := by
  cases h with
  | passed _ _ calls => exact calls ▸ .refl _
  | counted _ _ calls => exact calls.mono fun _ => .inl

omit [Kernel κ] in
/-- After the call that accepts, only what was accepted is handled. -/
theorem Reception.handles {n' : Node κ} {e : Event} {o : Outcome Unit} (h : Reception n e o n') :
    Added (·.Handles e.opened?) (e :: n.world.past) n'.world.past := by
  have hadded : ∀ {fd : Descriptor} {moved past : List Event}, e.opened? = some fd →
      (∀ x ∈ moved, x.call.Seals fd ∨ x.call.Unblocks fd ∨ x.call = .close fd) →
      Added (·.Handles e.opened?) past (moved ++ past) := fun ho hmoved =>
    ⟨_, rfl, fun x hx => .inr ⟨_, ho, hmoved x hx⟩⟩
  have hclosed : ∀ {fd : Descriptor} {closing : Event} {past : List Event}, e.opened? = some fd →
      closing.call = .close fd → Added (·.Handles e.opened?) past (closing :: past) :=
    fun ho hc => .single (.inr ⟨_, ho, .inr (.inr hc)⟩)
  cases h with
  | failed _ _ noted => exact noted.handles _
  | unsealed opened sealing close noted =>
    exact ((hadded opened fun x hx => .inl (sealing.allowed x hx)).trans
      (hclosed opened close)).trans (noted.handles _)
  | sealed opened sealing enrolling =>
    have hsealed : Added (·.Handles e.opened?) (e :: n.world.past) _ :=
      hadded opened fun x hx => .inl (sealing.allowed x hx)
    cases enrolling with
    | blocking unblocking close _ calls =>
      rw [calls]
      exact (hsealed.trans (hadded opened fun x hx => .inr (.inl (unblocking.allowed x hx)))).trans
        (hclosed opened close)
    | turnedAway unblocking _ _ close _ calls =>
      rw [calls]
      exact (hsealed.trans (hadded opened fun x hx => .inr (.inl (unblocking.allowed x hx)))).trans
        (hclosed opened close)
    | filed unblocking _ _ _ calls =>
      rw [calls]
      exact hsealed.trans (hadded opened fun x hx => .inr (.inl (unblocking.allowed x hx)))

omit [Kernel κ] in
/-- After the call that accepts, only what was accepted is named. -/
theorem Reception.about {n' : Node κ} {e : Event} {o : Outcome Unit} (h : Reception n e o n') :
    Added (·.About e.opened?) (e :: n.world.past) n'.world.past :=
  h.handles.mono fun _ => Call.Handles.about

end Node

end SpanEcho

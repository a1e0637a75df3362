import SpanEcho.Proofs.Reactor.Isolation

/-!
# Which failures end a pass

A pass ends early because an accepted descriptor is refused, which is fatal, or because the wait
itself fails, which is not called fatal though no later pass would mend it. What goes wrong while a
socket is accepted, prepared or served ends no pass, and none of it is fatal.
-/

namespace SpanEcho

open SpanEcho.Action Loop Reactor

/-! ## How actions fail -/

namespace Action

variable {σ α β : Type} {allowed : Failure → Prop}

/-- If the action fails, then with an allowed failure. -/
def Fails (allowed : Failure → Prop) (m : Action σ α) : Prop :=
  ∀ s why, (m s).1 = .failed why → allowed why

namespace Fails

theorem pure (a : α) : Fails allowed (Pure.pure a : Action σ α) :=
  fun _ _ => nofun

theorem stop (d : Defect) : Fails allowed (Action.stop d : Action σ α) :=
  fun _ _ => nofun

theorem bind {m : Action σ α} {f : α → Action σ β} (hm : Fails allowed m)
    (hf : ∀ a, Fails allowed (f a)) : Fails allowed (m >>= f) := by
  intro s why h
  rw [bind_apply] at h
  split at h
  · exact hf _ _ why h
  · rename_i heq
    obtain rfl := Outcome.failed.inj h
    exact hm s _ (congrArg Prod.fst heq)
  · cases h

/-- An attempt takes every failure for a value. -/
theorem attempt (m : Action σ α) : Fails allowed (Action.attempt m) := by
  intro s why h
  unfold Action.attempt at h
  split at h <;> cases h

theorem when {c : Bool} {m : Action σ Unit} (hm : Fails allowed m) :
    Fails allowed (Action.when c m) := by
  cases c with
  | true => exact hm
  | false => exact .pure ()

end Fails

end Action

/-- The failure is not called fatal. -/
def Failure.Mild (why : Failure) : Prop :=
  why.isFatal = false

/-- No reply of the kernel is a fatal failure. -/
theorem Answer.mild {α : Type} {operation : String} {answer : Answer α} {why : Failure}
    (h : answer.result operation = .error why) : why.Mild := by
  rcases answer.result_cases operation with ⟨value, rfl⟩ | ⟨-, hresult⟩ | ⟨-, errno, hresult⟩
  · cases h
  · rw [hresult] at h
    cases h
    rfl
  · rw [hresult] at h
    cases h
    rfl

theorem Event.WaitFailed.mild {why : Failure} {e : Event} (h : Event.WaitFailed why e) :
    why.Mild := by
  obtain ⟨thread, call, reply, arrivals⟩ := e
  cases call with
  | select bound reads writes limit =>
    obtain ⟨-, -, rfl⟩ := h
    rfl
  | poll entries millis =>
    obtain ⟨-, -, rfl⟩ := h
    rfl
  | watch entries highest limit =>
    obtain ⟨-, name, errno, rfl⟩ := h
    rfl
  | _ => exact h.elim

/-! ## What fails without ending a pass -/

variable {κ α : Type} [Kernel κ]

theorem Sys.mild_ask (c : Call) (read : c.Reply → Answer α) :
    Fails Failure.Mild (Sys.ask c read : Sys κ α) := by
  intro w why h
  rw [ask_apply] at h
  unfold ending at h
  split at h
  · cases h
  · rename_i hresult
    cases h
    exact Answer.mild hresult

namespace Socket

theorem mild_setCloseOnExec (fd : Descriptor) :
    Fails Failure.Mild (setCloseOnExec fd : Sys κ Unit) :=
  .bind (Sys.mild_ask _ _) fun _ => Sys.mild_ask _ _

theorem mild_setNonBlocking (fd : Descriptor) :
    Fails Failure.Mild (setNonBlocking fd : Sys κ Unit) := by
  refine .bind (Sys.mild_ask _ _) fun flags => ?_
  split
  · exact .pure ()
  · exact Sys.mild_ask _ _

theorem mild_closingOnFailure (fd : Descriptor) {m : Sys κ α} (hm : Fails Failure.Mild m) :
    Fails Failure.Mild (closingOnFailure [fd] m) := by
  intro w why h
  rw [closingOnFailure_apply] at h
  split at h
  · cases h
  · rename_i heq
    exact hm w why ((congrArg Prod.fst heq).trans h)

theorem mild_accept (listener : Descriptor) :
    Fails Failure.Mild (Socket.accept listener : Sys κ (Descriptor × Option Endpoint)) := by
  refine .bind (Sys.mild_ask _ _) fun accepted => ?_
  exact mild_closingOnFailure _ (.bind (mild_setCloseOnExec _) fun _ => .pure _)

end Socket

namespace Session

theorem mild_ingest (bytes : Bytes) : Fails Failure.Mild (ingest bytes) := by
  have hstage : ∀ b, Fails Failure.Mild (stage b) := by
    intro b s why h
    unfold stage at h
    split at h
    · cases h
    · rename_i out _
      by_cases hroom : s.outbox.bytes.length < s.outbox.capacity
      · rw [Outbox.push, if_pos hroom] at h
        cases h
      · rw [Outbox.push, if_neg hroom] at h
        obtain rfl := Outcome.failed.inj h
        rfl
  induction bytes with
  | nil => exact .pure _
  | cons b rest ih => exact .bind (hstage b) fun _ => .bind ih fun _ => .pure _

/-- A session fails as its peer does, or for want of room. -/
theorem mild_absorb (chunk : Nat) {inflow : Inflow} (h : ∀ why, inflow = .failed why → why.Mild) :
    Fails Failure.Mild (absorb chunk inflow) := by
  intro s why hfailed
  unfold absorb at hfailed
  split at hfailed
  · cases hfailed
  · cases hfailed
    exact h why rfl
  · cases hfailed
  · split at hfailed
    · cases hfailed
    · rename_i received _ _
      generalize hingest :
        ingest received { s with bytesIn := s.bytesIn + received.length } = result at hfailed
      obtain ⟨staged, s'⟩ := result
      cases staged with
      | ok any => cases hfailed
      | defect d => cases hfailed
      | failed why' =>
        cases hfailed
        exact mild_ingest received _ why (congrArg Prod.fst hingest)

theorem mild_settle {outflow : Outflow} (h : ∀ why, outflow = .failed why → why.Mild) :
    Fails Failure.Mild (settle outflow) := by
  intro s why hfailed
  unfold settle at hfailed
  split at hfailed
  · cases hfailed
  · cases hfailed
    exact h why rfl
  · split at hfailed
    · cases hfailed
    · dsimp only at hfailed
      split at hfailed <;> cases hfailed

end Session

theorem Inflow.mild {result : Except Failure Bytes} {why : Failure}
    (h : Inflow.ofResult result = .failed why) : result = .error why := by
  unfold ofResult at h
  split at h
  · cases h
  · cases h
  · cases h
    rfl

theorem Outflow.mild {result : Except Failure Nat} {why : Failure}
    (h : Outflow.ofResult result = .failed why) : result = .error why := by
  unfold ofResult at h
  split at h
  · cases h
  · cases h
  · cases h
    rfl

namespace Reactor

theorem mild_exchange (t : Ticket) (entry : Entry Descriptor) (d : Direction) :
    Fails Failure.Mild (exchange t entry d : Loop κ Interest) := by
  intro n why h
  cases d with
  | receive =>
    simp only [exchange, Session.onReadable] at h
    split at h
    · split at h
      · cases h
      · exact Session.mild_absorb _ (fun why' hw => Answer.mild (Inflow.mild hw)) _ why h
    · cases h
  | send =>
    simp only [exchange, Session.onWritable] at h
    split at h
    · split at h
      · cases h
      · exact Session.mild_settle (fun why' hw => Answer.mild (Outflow.mild hw)) _ why h
    · cases h

/-! ### Serving -/

/-- Never fails. -/
abbrev Unfailing {α : Type} (m : Loop κ α) : Prop :=
  Fails (fun _ => False) m

omit [Kernel κ] in
theorem unfailing_reactor : Unfailing (Loop.reactor : Loop κ Reactor) :=
  fun _ _ => nofun

omit [Kernel κ] in
theorem unfailing_adjust (f : Reactor → Reactor) : Unfailing (Loop.adjust f : Loop κ Unit) :=
  fun _ _ => nofun

omit [Kernel κ] in
theorem unfailing_log (level : Log.Level) (text : String) :
    Unfailing (Loop.log level text : Loop κ Unit) :=
  fun _ _ => nofun

theorem unfailing_close (fd : Descriptor) : Unfailing (Loop.sys (Socket.close fd) : Loop κ Unit) :=
  fun _ _ => nofun

omit [Kernel κ] in
theorem unfailing_countTraffic (t : Ticket) (old : Session) :
    Unfailing (countTraffic t old : Loop κ Unit) := by
  refine .bind unfailing_reactor fun r => ?_
  split
  · exact .pure ()
  · split
    · exact .stop _
    · exact unfailing_adjust _

omit [Kernel κ] in
theorem unfailing_verdict (t : Ticket) (answer : Except Failure Interest) :
    Unfailing (verdict t answer : Loop κ Interest) := by
  cases answer with
  | ok interest => exact .pure interest
  | error why =>
    exact .bind (unfailing_log _ _) fun _ => .bind (unfailing_adjust _) fun _ => .pure _

theorem unfailing_hangUp (t : Ticket) : Unfailing (hangUp t : Loop κ Unit) := by
  refine .bind unfailing_reactor fun r => ?_
  split
  · exact .pure ()
  · split
    · exact .stop _
    · exact .bind (unfailing_adjust _) fun _ => .bind (unfailing_close _) fun _ =>
        .bind (unfailing_log _ _) fun _ => unfailing_adjust _

theorem unfailing_keep (t : Ticket) (interest : Interest) :
    Unfailing (keep t interest : Loop κ Unit) := by
  unfold keep
  split
  · exact unfailing_hangUp t
  · exact unfailing_adjust _

/-- Serving never fails: what goes wrong with a connection closes it. -/
theorem unfailing_serve (t : Ticket) (d : Direction) : Unfailing (serve t d : Loop κ Unit) := by
  refine .bind unfailing_reactor fun r => ?_
  split
  · exact .pure ()
  · exact .bind (.attempt _) fun answer => .bind (unfailing_countTraffic t _) fun _ =>
      .bind (unfailing_verdict t answer) fun interest => .bind (unfailing_log _ _) fun _ =>
        unfailing_keep t interest

end Reactor

namespace Node

variable {m : Multiplexor} {s : Settings} {n₀ n : Node κ} {ready : Readiness} {due : List Readiness}
  {why : Failure}

/-- The failures that a reactor deals with itself: what goes wrong while a socket is accepted, is
made non-blocking, or is served. -/
inductive Isolates (n : Node κ) (why : Failure) : Prop
  | accepting {w : World κ} (failed : Socket.accept n.reactor.listener n.world = (.failed why, w))
  | preparing {fd : Descriptor} {w : World κ}
      (failed : Socket.setNonBlocking fd n.world = (.failed why, w))
  | serving {t : Ticket} {entry : Entry Descriptor} {d : Direction} {n' : Node κ}
      (filed : n.reactor.registry.get? t = some entry)
      (failed : exchange t entry d n = (.failed why, n'))

theorem Isolates.mild (h : n.Isolates why) : why.Mild := by
  cases h with
  | accepting failed => exact Socket.mild_accept _ _ why (congrArg Prod.fst failed)
  | preparing failed => exact Socket.mild_setNonBlocking _ _ why (congrArg Prod.fst failed)
  | serving _ failed => exact mild_exchange _ _ _ _ why (congrArg Prod.fst failed)

/-! ## What ends a pass -/

/-- A turn that fails is the listener's, and what it accepted is refused. -/
theorem refuses_of_dispatch (ht : n.Tidy) (hfailed : (dispatch ready n).1 = .failed why)
    (hfresh : Fresh (dispatch ready n).2.world.past) : ∃ fd, n.reactor.Refuses fd why := by
  by_cases he : ready.fd = n.reactor.listener
  · rw [dispatch_listener he] at hfailed hfresh
    cases hr : ready.readable with
    | false =>
      rw [hr] at hfailed
      cases hfailed
    | true =>
      rw [hr] at hfailed hfresh
      have hbad : (acceptOne n).1 ≠ .ok () := fun ho => by
        rw [show (acceptOne n).1 = .failed why from hfailed] at ho
        cases ho
      obtain ⟨fd, -, hearly⟩ := (accepting_acceptOne n).early hbad rfl ht hfresh
      rcases hearly with ⟨why', ho, hrefuses⟩ | ⟨ho, -⟩
      · obtain rfl : why = why' := Outcome.failed.inj (hfailed.symm.trans ho)
        exact ⟨fd, hrefuses⟩
      · exact absurd (hfailed.symm.trans ho) nofun
  · cases hf : n.reactor.registry.find? ready.fd with
    | none =>
      rw [dispatch_missing he hf] at hfailed
      cases hfailed
    | some t =>
      rw [dispatch_found he hf] at hfailed
      have hboth : Unfailing (serveReady t ready : Loop κ Unit) :=
        .bind (.when (unfailing_serve t .receive)) fun _ => .when (unfailing_serve t .send)
      exact (hboth n why hfailed).elim

/-- When the turns of a pass fail, it is for a descriptor that is refused in a state on the way. -/
theorem refuses_of_dispatchAll (hstart : Starting m s n₀) (hreach : n₀.Reaches n due)
    (hfailed : (dispatchAll due n).1 = .failed why)
    (hfresh : Fresh (dispatchAll due n).2.world.past) :
    ∃ n' due' fd, n₀.Reaches n' due' ∧ n'.reactor.Refuses fd why := by
  induction due generalizing n with
  | nil => cases hfailed
  | cons x due ih =>
    have hnext := hreach.dispatch
    have ht : Fresh (dispatch x n).2.world.past → n.Tidy := fun hf =>
      hstart.tidy_of_reaches hreach (hf.of_suffix ((tame_dispatch x).grows.grows n))
    have hturn : ∀ why, (dispatch x n).1 = .failed why → Fresh (dispatch x n).2.world.past →
        ∃ fd, n.reactor.Refuses fd why := fun why ho hf => refuses_of_dispatch (ht hf) ho hf
    rw [dispatchAll, bind_apply] at hfailed hfresh
    rcases hx : dispatch x n with ⟨o, n₁⟩
    rw [hx] at hfailed hfresh hnext hturn
    cases o with
    | ok _ => exact ih hnext hfailed hfresh
    | failed why' =>
      obtain rfl : why' = why := Outcome.failed.inj hfailed
      obtain ⟨fd, hrefuses⟩ := hturn why' rfl hfresh
      exact ⟨n, _, fd, hreach, hrefuses⟩
    | defect d => cases hfailed

end Node

open Node

variable {m : Multiplexor} {s : Settings} {n₀ n : Node κ}

/-- **Which failures are fatal.** A pass fails fatally when an accepted descriptor is beyond the
limit of the multiplexor or finds the registry full, and otherwise only because its wait failed,
which is not called fatal. No failure that a reactor deals with itself is fatal. -/
theorem fatal_of_pass (hstart : Starting m s n₀) (hreach : n₀.Reaches n [])
    (hfresh : Fresh (Reactor.pass n).2.world.past) :
    (∀ why, (Reactor.pass n).1 = .failed why →
      (why.isFatal = true ∧ ∃ n' due fd, n₀.Reaches n' due ∧ n'.reactor.Refuses fd why) ∨
        (why.isFatal = false ∧ ∃ e ∈ (Reactor.pass n).2.world.past, Event.WaitFailed why e)) ∧
      ∀ (n' : Node κ) why, n'.Isolates why → why.isFatal = false := by
  refine ⟨fun why hfailed => ?_, fun n' why h => h.mild⟩
  have ht : n.Tidy := hstart.tidy_of_reaches hreach (hfresh.of_suffix (Reaches.here.pass).grows)
  obtain ⟨plan, n₁, hprepare⟩ := sure_prepare n
  rcases await_cases (ht.watchable hprepare) with
    ⟨ready, n₂, hawait⟩ | ⟨why', n', e, hawait, hpast, hwait⟩
  · have hreach₂ := hreach.wait
    rw [bind_of_ok hprepare, hawait] at hreach₂
    rw [pass_state hprepare hawait] at hfresh
    rw [pass_apply hprepare hawait, bind_apply] at hfailed
    have hturns : (dispatchAll ready n₂).1 = .failed why := by
      split at hfailed
      · cases hfailed
      · rename_i heq
        obtain rfl := Outcome.failed.inj hfailed
        exact congrArg Prod.fst heq
      · cases hfailed
    obtain ⟨n', due, fd, hreach', hrefuses⟩ := refuses_of_dispatchAll hstart hreach₂ hturns hfresh
    exact .inl ⟨hrefuses.isFatal, n', due, fd, hreach', hrefuses⟩
  · have hpass : Reactor.pass n = (.failed why', n') := by
      rw [Reactor.pass, bind_of_ok hprepare, Reactor.complete, bind_apply, hawait]
    rw [hpass] at hfailed ⊢
    obtain rfl : why' = why := Outcome.failed.inj hfailed
    refine .inr ⟨hwait.mild, e, ?_, hwait⟩
    rw [hpast]
    exact List.mem_cons_self

namespace Deaf

/-- The first wait fails because of a bad descriptor. -/
def world : World Script :=
  { level := .off, kernel := { waits := [(.main, [{ errno := some .badDescriptor }])] } }

def settings : Settings := {}

def launched : Node Script :=
  ⟨.fresh 3 .poll settings, (Serving.launch settings world).2⟩

theorem starting : Starting .poll settings launched := by
  have hmade : Serving.launch settings world = (.ok (.fresh 3 .poll settings), launched.world) :=
    Prod.ext (by decide +kernel) rfl
  exact .launched rfl rfl hmade

theorem fatal_of_deaf :
    Fresh (Reactor.pass launched).2.world.past ∧
      (Reactor.pass launched).1 = .failed (.system "poll" .badDescriptor) ∧
      ∃ e ∈ (Reactor.pass launched).2.world.past,
        Event.WaitFailed (.system "poll" .badDescriptor) e := by
  have hfresh : Fresh (Reactor.pass launched).2.world.past := Lawful.fresh (by decide +kernel)
  have hfailed : (Reactor.pass launched).1 = .failed (.system "poll" .badDescriptor) := by
    decide +kernel
  refine ⟨hfresh, hfailed, ?_⟩
  rcases (fatal_of_pass starting .here hfresh).1 _ hfailed with ⟨hfatal, -⟩ | ⟨-, hwait⟩
  · cases hfatal
  · exact hwait

/-- A pass ends with a failure that is not called fatal. -/
theorem pass_of_deaf :
    Starting .poll settings launched ∧ launched.Reaches launched [] ∧
      Fresh (Reactor.pass launched).2.world.past ∧
      ∃ why, (Reactor.pass launched).1 = .failed why ∧ why.isFatal = false := by
  refine ⟨starting, .here, Lawful.fresh (by decide +kernel), .system "poll" .badDescriptor, ?_⟩
  exact ⟨by decide +kernel, rfl⟩

end Deaf

end SpanEcho

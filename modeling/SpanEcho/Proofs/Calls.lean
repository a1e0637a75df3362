import SpanEcho.Proofs.Composed
import SpanEcho.Serving

/-!
# Which calls are made

Each part of a reactor makes calls of a few kinds and no others, whatever the kernel replies: up to
a wait the clock is read, a wait is one call of its multiplexor, a connection is served by calls
that move bytes in one direction and by closing it. An action makes `Calling` calls if all the
actions that it is put together from do.
-/

namespace SpanEcho

open SpanEcho.Action

/-- The descriptor on which a call accepts, receives or sends. -/
def Call.subject? : Call → Option Descriptor
  | .accept fd | .receive fd _ | .send fd _ _ => some fd
  | _ => none

/-- The calls that move bytes over `fd` in one direction. -/
def Direction.Moves (fd : Descriptor) : Direction → Call → Prop
  | .receive, .receive source _ => source = fd
  | .send, .send target _ _ => target = fd
  | _, _ => False

instance (fd : Descriptor) (d : Direction) (c : Call) : Decidable (d.Moves fd c) := by
  unfold Direction.Moves
  split <;> infer_instance

namespace Direction.Moves

variable {fd fd' : Descriptor} {d d' : Direction} {c : Call}

theorem subject (h : d.Moves fd c) : c.subject? = some fd := by
  unfold Moves at h
  split at h
  · exact congrArg some h
  · exact congrArg some h
  · exact h.elim

theorem carrier (h : d.Moves fd c) : c.carrier? = some fd := by
  unfold Moves at h
  split at h
  · exact congrArg some h
  · exact congrArg some h
  · exact h.elim

theorem direction_eq (h : d.Moves fd c) (h' : d'.Moves fd' c) : d = d' := by
  cases d <;> cases d' <;> first | rfl | (cases c <;> first | exact h.elim | exact h'.elim)

end Direction.Moves

/-- The calls by which a socket is opened, set up and closed again. -/
def Call.SetsUp : Call → Prop
  | .socket | .descriptorFlags _ | .setDescriptorFlags _ _ | .statusFlags _ | .setStatusFlags _ _ =>
    True
  | .setOption _ _ _ | .bind _ _ | .listen _ _ | .localName _ | .close _ => True
  | _ => False

/-- The calls that wait for readiness. -/
def Call.Waits : Call → Prop
  | .poll _ _ | .select _ _ _ _ | .watch _ _ _ => True
  | _ => False

theorem Call.SetsUp.not_waits {c : Call} (h : c.SetsUp) : ¬ c.Waits := by
  cases c <;> first | exact id | exact h.elim

/-- The call by which a multiplexor waits. -/
def Multiplexor.Asks (entries : List Registration) (highest : Descriptor)
    (limit : Option Duration) :
    Multiplexor → Call → Prop
  | .select, c => (∀ e ∈ entries, select.refusal? e.fd = none) ∧
    c = .select (highest + 1) (watched (·.readable) entries) (watched (·.writable) entries)
      (limit.map .ofDuration)
  | .poll, c => c = .poll entries (Polled.millis limit)
  | .external _ _, c => c = .watch entries highest limit

variable {allowed : Call → Prop} {κ α : Type}

theorem Added.of_trace {w w' : World κ} {events : List Event} (h : w'.trace = w.trace ++ events)
    (hevents : ∀ e ∈ events, allowed e.call) : Added allowed w.past w'.past := by
  refine ⟨events.reverse, ?_, fun e he => hevents e (List.mem_reverse.mp he)⟩
  rw [World.past_of_trace h, List.reverse_append, World.trace, List.reverse_reverse]

namespace Sys

/-- Put together from actions that make allowed calls only. -/
abbrev Calling (allowed : Call → Prop) (m : Sys κ α) : Prop :=
  Composed (fun _ m => ∀ w : World κ, Added allowed w.past (m w).2.past) m

theorem Calling.added {m : Sys κ α} (hm : Calling allowed m) (w : World κ) :
    Added allowed w.past (m w).2.past :=
  Composed.along (R := fun w w' : World κ => Added allowed w.past w'.past) (fun _ => .refl _)
    (fun _ _ _ h h' => h.trans h') hm (fun _ _ hb => hb) w

theorem calling_log (level : Log.Level) (text : String) :
    Calling allowed (Sys.log level text : Sys κ Unit) :=
  .basic fun w => by
    show Added allowed w.past (w.write _).past
    rw [World.write_past]
    exact .refl _

variable [Kernel κ]

theorem calling_call {c : Call} (hc : allowed c) : Calling allowed (Sys.call c : Sys κ c.Reply) :=
  .basic fun w => by
    show Added allowed w.past (w.call c).2.past
    rw [World.call_past]
    exact .single hc

theorem calling_ask {c : Call} (hc : allowed c) (read : c.Reply → Answer α) :
    Calling allowed (Sys.ask c read : Sys κ α) := by
  refine .bind (calling_call hc) fun reply => ?_
  unfold demand
  split
  · exact .pure _
  · exact .fail _

end Sys

namespace Multiplexor

variable [Kernel κ]

omit [Kernel κ] in
theorem calling_interruptedOr (operation : String) (errno : Errno) :
    Sys.Calling allowed (interruptedOr operation errno : Sys κ (List Readiness)) := by
  unfold interruptedOr
  split
  · exact .pure _
  · exact .fail _

/-- A wait is one call, or none if `select` cannot be called. -/
theorem calling_wait (m : Multiplexor) (entries : List Registration) (highest : Descriptor)
    (limit : Option Duration) :
    Sys.Calling (m.Asks entries highest limit)
      (m.wait entries highest limit : Sys κ (List Readiness)) := by
  cases m with
  | select =>
    simp only [wait]
    split
    · exact .fail _
    · rename_i hnone
      refine .bind (Sys.calling_call ⟨List.findSome?_eq_none_iff.mp hnone, rfl⟩) fun reply => ?_
      split
      · exact calling_interruptedOr _ _
      · exact .pure _
  | poll =>
    refine .bind (Sys.calling_call rfl) fun reply => ?_
    split
    · exact calling_interruptedOr _ _
    · exact .pure _
  | external name bound =>
    refine .bind (Sys.calling_call rfl) fun reply => ?_
    cases reply with
    | ok ready => exact .pure _
    | failed errno => exact .fail _
    | notOpen => exact .fail _

end Multiplexor

/-! ## Setting up -/

namespace Socket

variable [Kernel κ]

theorem calling_close (fd : Descriptor) (hc : allowed (.close fd)) :
    Sys.Calling allowed (Socket.close fd : Sys κ Unit) :=
  .bind (Sys.calling_call hc) fun _ => .pure _

theorem calling_closingOnFailure (fd : Descriptor) {m : Sys κ α} (hm : Sys.Calling allowed m)
    (hc : allowed (.close fd)) : Sys.Calling allowed (closingOnFailure [fd] m) := by
  refine .bind (.observe hm) fun o => ?_
  cases o with
  | ok a => exact .pure a
  | failed e => exact .bind (.bind (calling_close fd hc) fun _ => .pure _) fun _ => .ofOutcome _
  | defect d => exact .bind (.bind (calling_close fd hc) fun _ => .pure _) fun _ => .ofOutcome _

theorem calling_listenOn (port : Nat) (backlog : Int) (reusePort : Bool) :
    Sys.Calling Call.SetsUp (listenOn port backlog reusePort : Sys κ Descriptor) := by
  have hask : ∀ {α : Type} {c : Call} {read : c.Reply → Answer α}, c.SetsUp →
      Sys.Calling Call.SetsUp (Sys.ask c read : Sys κ α) := fun hc => Sys.calling_ask hc _
  refine .bind (hask (by trivial)) fun number => calling_closingOnFailure _ ?_ (by trivial)
  exact .bind (.bind (hask (by trivial)) fun _ => hask (by trivial)) fun _ =>
    .bind (hask (by trivial)) fun _ => .bind (.when (hask (by trivial))) fun _ =>
      .bind (hask (by trivial)) fun _ => .bind (hask (by trivial)) fun _ => .pure _

theorem calling_localAddress (fd : Descriptor) (hc : allowed (.localName fd)) :
    Sys.Calling allowed (localAddress fd : Sys κ Endpoint) := by
  refine .bind (Sys.calling_ask hc _) fun name => ?_
  split
  · exact .pure _
  · exact .fail _

end Socket

theorem Reactor.calling_create [Kernel κ] (listener : Descriptor) (m : Multiplexor) (s : Settings) :
    Sys.Calling Call.SetsUp (create listener m s : Sys κ Reactor) := by
  have hask : ∀ {α : Type} {c : Call} {read : c.Reply → Answer α}, c.SetsUp →
      Sys.Calling Call.SetsUp (Sys.ask c read : Sys κ α) := fun hc => Sys.calling_ask hc _
  refine Socket.calling_closingOnFailure _ ?_ (by trivial)
  refine .bind (.failIf _) fun _ => .bind (.bind (hask (by trivial)) fun flags => ?_) fun _ =>
    .bind (.failIf _) fun _ => .bind (.reserve _) fun _ => .pure _
  split
  · exact .pure ()
  · exact hask (by trivial)

theorem Serving.calling_launch [Kernel κ] (s : Settings) :
    Sys.Calling Call.SetsUp (launch s : Sys κ Reactor) := by
  refine .bind (Socket.calling_listenOn _ _ _) fun listener => .bind ?_ fun _ =>
    .bind (Sys.calling_log _ _) fun _ => Reactor.calling_create _ _ _
  exact Socket.calling_closingOnFailure _
    (.bind (Socket.calling_localAddress _ (by trivial)) fun _ => .pure _) (by trivial)

namespace Loop

/-- Put together from actions that make allowed calls only. -/
abbrev Calling (allowed : Call → Prop) (m : Loop κ α) : Prop :=
  Composed (fun _ m => ∀ n : Node κ, Added allowed n.world.past (m n).2.world.past) m

theorem Calling.added {m : Loop κ α} (hm : Calling allowed m) (n : Node κ) :
    Added allowed n.world.past (m n).2.world.past :=
  Composed.along (R := fun n n' : Node κ => Added allowed n.world.past n'.world.past)
    (fun _ => .refl _) (fun _ _ _ h h' => h.trans h') hm (fun _ _ hb => hb) n

theorem calling_sys {m : Sys κ α} (hm : Sys.Calling allowed m) : Calling allowed (Loop.sys m) :=
  .basic fun n => hm.added n.world

theorem calling_reactor : Calling allowed (Loop.reactor : Loop κ Reactor) :=
  .basic fun _ => .refl _

theorem calling_adjust (f : Reactor → Reactor) : Calling allowed (Loop.adjust f : Loop κ Unit) :=
  .basic fun _ => .refl _

theorem calling_count (f : Tally → Tally) : Calling allowed (Loop.count f : Loop κ Unit) :=
  calling_adjust _

theorem calling_log (level : Log.Level) (text : String) :
    Calling allowed (Loop.log level text : Loop κ Unit) :=
  calling_sys (Sys.calling_log level text)

theorem calling_now [Kernel κ] (hc : allowed .clock) :
    Calling allowed (Loop.sys Sys.now : Loop κ Duration) :=
  calling_sys (Sys.calling_call hc)

end Loop

namespace Reactor

open Loop

variable [Kernel κ]

/-! ## Around a wait -/

theorem calling_prepare : Calling (· = .clock) (prepare : Loop κ Plan) := by
  have hresume : Calling (· = .clock) (resumeAccepting : Loop κ Unit) := by
    refine .bind calling_reactor fun r => ?_
    split
    · exact .pure ()
    · refine .bind (calling_now rfl) fun now => ?_
      split
      · exact .bind (calling_log _ _) fun _ => calling_adjust _
      · exact .pure ()
  have hlimit : Calling (· = .clock) (waitLimit : Loop κ (Option Duration)) := by
    refine .bind calling_reactor fun r => ?_
    split
    · exact .pure _
    · refine .bind (calling_now rfl) fun now => ?_
      split <;> exact .pure _
  exact .bind hresume fun _ => .bind calling_reactor fun _ => .bind hlimit fun _ => .pure _

theorem added_await (plan : Plan) (n : Node κ) :
    Added (n.reactor.multiplexor.Asks plan.entries plan.highest plan.limit) n.world.past
      (await plan n).2.world.past := by
  have hrest : ∀ r : Reactor,
      Calling (r.multiplexor.Asks plan.entries plan.highest plan.limit) (do
        let ready ← Loop.sys (r.multiplexor.wait plan.entries plan.highest plan.limit)
        Loop.count fun t => { t with loops := t.loops + 1 }
        let loops := (← Loop.reactor).tally.loops
        Loop.log .debug s!"loop {loops}: {ready.length} ready of {plan.entries.length} registered"
        pure ready : Loop κ (List Readiness)) := fun r =>
    .bind (calling_sys (Multiplexor.calling_wait _ _ _ _)) fun _ => .bind (calling_count _) fun _ =>
      .bind calling_reactor fun _ => .bind (calling_log _ _) fun _ => .pure _
  exact (hrest n.reactor).added n

/-- A reactor asks for the name of its listener, and for the time. -/
theorem added_start (n : Node κ) :
    Added (fun c => c = .localName n.reactor.listener ∨ c = .clock) n.world.past
      (start n).2.world.past := by
  rw [start, bind_of_ok (rfl : Loop.reactor n = (.ok n.reactor, n))]
  exact Calling.added (.bind (.attempt (calling_sys (Socket.calling_localAddress _ (.inl rfl))))
    fun _ => .bind (calling_log _ _) fun _ => calling_now (.inr rfl)) n

theorem calling_report (last : Duration) :
    Calling (· = .clock) (report last : Loop κ Duration) := by
  refine .bind calling_reactor fun r => ?_
  split
  · exact .pure _
  · refine .bind (calling_now rfl) fun now => ?_
    split
    · exact .bind calling_reactor fun _ => .bind (calling_log _ _) fun _ => calling_now rfl
    · exact .pure _

omit [Kernel κ] in
theorem calling_finish : Calling allowed (finish : Loop κ Tally) :=
  .bind calling_reactor fun _ => .bind (calling_log _ _) fun _ => .pure _

/-! ## Serving -/

theorem calling_acceptFailed (e : Failure) :
    Calling (· = .clock) (acceptFailed e : Loop κ Unit) := by
  refine .bind (calling_count _) fun _ => ?_
  split
  · exact .bind (calling_log _ _) fun _ => .bind (calling_now rfl) fun _ => calling_adjust _
  · exact calling_log _ _

/-- A handler makes one call at most, in its direction. -/
theorem calling_exchange (t : Ticket) (entry : Entry Descriptor) (d : Direction)
    (hc : ∀ c, d.Moves entry.socket c → allowed c) :
    Calling allowed (exchange t entry d : Loop κ Interest) := by
  refine .basic fun n => ?_
  cases d with
  | receive =>
    simp only [exchange, Session.onReadable]
    split
    · split
      · exact .refl _
      · exact (World.call_past _ n.world) ▸ .single (hc _ rfl)
    · exact .refl _
  | send =>
    simp only [exchange, Session.onWritable]
    split
    · split
      · exact .refl _
      · exact (World.call_past _ n.world) ▸ .single (hc _ rfl)
    · exact .refl _

theorem calling_hangUp (t : Ticket) (hc : ∀ fd, allowed (.close fd)) :
    Calling allowed (hangUp t : Loop κ Unit) := by
  refine .bind calling_reactor fun r => ?_
  split
  · exact .pure ()
  · split
    · exact .stop _
    · exact .bind (calling_adjust _) fun _ =>
        .bind (calling_sys (Socket.calling_close _ (hc _))) fun _ =>
        .bind (calling_log _ _) fun _ => calling_count _

omit [Kernel κ] in
theorem calling_countTraffic (t : Ticket) (old : Session) :
    Calling allowed (countTraffic t old : Loop κ Unit) := by
  refine .bind calling_reactor fun r => ?_
  split
  · exact .pure ()
  · split
    · exact .stop _
    · exact calling_count _

omit [Kernel κ] in
theorem calling_verdict (t : Ticket) (answer : Except Failure Interest) :
    Calling allowed (verdict t answer : Loop κ Interest) := by
  cases answer with
  | ok interest => exact .pure _
  | error e => exact .bind (calling_log _ _) fun _ => .bind (calling_count _) fun _ => .pure _

theorem calling_followUp (t : Ticket) (d : Direction) (old : Session)
    (answer : Except Failure Interest) (hc : ∀ fd, allowed (.close fd)) :
    Calling allowed (followUp t d old answer : Loop κ Unit) := by
  have hkeep : ∀ interest, Calling allowed (keep t interest : Loop κ Unit) := fun interest => by
    unfold keep
    split
    · exact calling_hangUp t hc
    · exact calling_adjust _
  exact .bind (calling_countTraffic t old) fun _ => .bind (calling_verdict t answer) fun _ =>
    .bind (calling_log _ _) fun _ => hkeep _

/-- To serve a connection in one direction, bytes are moved in that direction, or it is closed. -/
theorem calling_serve (t : Ticket) (d : Direction) :
    Calling (fun c => ∃ fd, d.Moves fd c ∨ c = .close fd) (serve t d : Loop κ Unit) := by
  refine .bind calling_reactor fun r => ?_
  split
  · exact .pure ()
  · exact .bind (.attempt (calling_exchange t _ d fun c hc => ⟨_, .inl hc⟩)) fun _ =>
      calling_followUp t d _ _ fun fd => ⟨fd, .inr rfl⟩

end Reactor

/-! ## Nothing waits but a wait -/

section Unwaiting

variable [Kernel κ]

namespace Socket

theorem calling_setCloseOnExec (fd : Descriptor) :
    Sys.Calling (¬ ·.Waits) (setCloseOnExec fd : Sys κ Unit) :=
  .bind (Sys.calling_ask id _) fun _ => Sys.calling_ask id _

theorem calling_setNonBlocking (fd : Descriptor) :
    Sys.Calling (¬ ·.Waits) (setNonBlocking fd : Sys κ Unit) := by
  refine .bind (Sys.calling_ask id _) fun flags => ?_
  split
  · exact .pure ()
  · exact Sys.calling_ask id _

theorem calling_accept (listener : Descriptor) :
    Sys.Calling (¬ ·.Waits) (accept listener : Sys κ (Descriptor × Option Endpoint)) :=
  .bind (Sys.calling_ask id _) fun _ =>
    calling_closingOnFailure _ (.bind (calling_setCloseOnExec _) fun _ => .pure _) id

omit [Kernel κ] in
theorem calling_reportPeer (peer : Option Endpoint) :
    Sys.Calling (¬ ·.Waits) (reportPeer peer : Sys κ Unit) := by
  cases peer <;> exact Sys.calling_log _ _

theorem calling_closeAll (fds : List Descriptor) :
    Sys.Calling (¬ ·.Waits) (closeAll fds : Sys κ Unit) := by
  induction fds with
  | nil => exact .pure ()
  | cons fd rest ih => exact .bind (calling_close fd id) fun _ => ih

end Socket

namespace Reactor

open Loop

theorem not_waits_of_clock {c : Call} (h : c = .clock) : ¬ c.Waits := by
  subst h
  exact id

theorem calling_enrol (fd : Descriptor) (peer : Option Endpoint) :
    Calling (¬ ·.Waits) (enrol fd peer : Loop κ Unit) := by
  have hclose : Calling (¬ ·.Waits) (Loop.sys (Socket.close fd) : Loop κ Unit) :=
    calling_sys (Socket.calling_close fd id)
  refine .bind (.attempt (calling_sys (Socket.calling_setNonBlocking fd))) fun result => ?_
  cases result with
  | error why => exact .bind (calling_log _ _) fun _ => .bind (calling_count _) fun _ => hclose
  | ok _ =>
    refine .bind calling_reactor fun r => .bind (.observe ?_) fun filed => ?_
    · exact .bind (calling_sys (.failIf _)) fun _ => .bind (.reserve _) fun _ =>
        .bind (.basic fun _ => .refl _) fun _ => .pure _
    · cases filed with
      | ok _ =>
        exact .bind (calling_count _) fun _ => .bind (calling_sys (Socket.calling_reportPeer peer))
          fun _ => calling_log _ _
      | failed why => exact .bind hclose fun _ => .ofOutcome _
      | defect what => exact .bind hclose fun _ => .ofOutcome _

theorem calling_acceptOne : Calling (¬ ·.Waits) (acceptOne : Loop κ Unit) := by
  refine .bind calling_reactor fun r => .bind (.attempt (calling_sys (Socket.calling_accept _)))
    fun result => ?_
  split
  · exact calling_log _ _
  · exact .basic fun n => ((calling_acceptFailed _).added n).mono fun _ => not_waits_of_clock
  · exact calling_enrol _ _

/-- To serve what is ready takes no other wait. -/
theorem calling_dispatchAll (ready : List Readiness) :
    Calling (¬ ·.Waits) (dispatchAll ready : Loop κ Unit) := by
  have hserve : ∀ (t : Ticket) (d : Direction), Calling (¬ ·.Waits) (serve t d : Loop κ Unit) := by
    refine fun t d => .basic fun n => ((calling_serve t d).added n).mono fun c hc => ?_
    obtain ⟨fd, hmoves | rfl⟩ := hc
    · cases c with
      | receive => exact id
      | send => exact id
      | _ => cases d <;> exact hmoves.elim
    · exact id
  induction ready with
  | nil => exact .pure ()
  | cons x rest ih =>
    refine .bind (.bind calling_reactor fun r => ?_) fun _ => ih
    split
    · exact .when calling_acceptOne
    · split
      · exact .pure ()
      · exact .bind (.when (hserve _ _)) fun _ => .when (hserve _ _)

end Reactor

namespace Fleet

theorem calling_spawnNext (f : Fleet) : Sys.Calling (¬ ·.Waits) (f.spawnNext : Sys κ Fleet) := by
  have haskStop : Sys.Calling (¬ ·.Waits) (Sys.askStop : Sys κ Unit) := .basic fun _ => .refl _
  unfold spawnNext
  split
  · refine .bind (Sys.calling_call id) fun reply => ?_
    cases reply with
    | ok _ => exact .pure _
    | _ => exact .bind (Socket.calling_close _ id) fun _ => .bind haskStop fun _ => .pure _
  · exact .pure _

theorem calling_conclude (f : Fleet) :
    Sys.Calling (¬ ·.Waits) (f.conclude : Sys κ (Option Tally)) := by
  unfold conclude
  split
  · exact .pure _
  · split
    · exact .bind (Socket.calling_closeAll _) fun _ => .fail _
    · split
      · exact .fail _
      · exact .bind (Sys.calling_log _ _) fun _ => .pure _

end Fleet

end Unwaiting

end SpanEcho

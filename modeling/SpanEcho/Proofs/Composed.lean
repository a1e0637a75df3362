import SpanEcho.Proofs.Triple
import SpanEcho.Reactor.Run

/-!
# What actions are made of

All that a reactor does is put together from a few basic actions: calls, lines written, looks at the
requests to stop, and changes of its own state. What holds of those and survives the putting
together holds of every action here: pasts only grow, and a reactor keeps its listener, its
multiplexor and its settings.
-/

namespace SpanEcho

namespace Action

/-- Put together from basic actions. -/
inductive Composed {σ : Type} (basic : (α : Type) → Action σ α → Prop) :
    {α : Type} → Action σ α → Prop
  | basic {α : Type} {m : Action σ α} (h : basic α m) : Composed basic m
  | ofOutcome {α : Type} (o : Outcome α) : Composed basic (Action.ofOutcome o)
  | bind {α β : Type} {m : Action σ α} {f : α → Action σ β} (hm : Composed basic m)
      (hf : ∀ a, Composed basic (f a)) : Composed basic (m >>= f)
  | attempt {α : Type} {m : Action σ α} (hm : Composed basic m) : Composed basic (Action.attempt m)
  | observe {α : Type} {m : Action σ α} (hm : Composed basic m) : Composed basic (Action.observe m)

namespace Composed

variable {σ ν α : Type} {basic : (α : Type) → Action σ α → Prop}

theorem pure (a : α) : Composed basic (Pure.pure a : Action σ α) :=
  .ofOutcome (.ok a)

theorem fail (e : Failure) : Composed basic (Action.fail e : Action σ α) :=
  .ofOutcome (.failed e)

theorem stop (d : Defect) : Composed basic (Action.stop d : Action σ α) :=
  .ofOutcome (.defect d)

theorem when {c : Bool} {m : Action σ Unit} (hm : Composed basic m) :
    Composed basic (Action.when c m) := by
  cases c with
  | true => exact hm
  | false => exact .pure ()

theorem failIf (e : Option Failure) : Composed basic (Action.failIf e : Action σ Unit) := by
  cases e with
  | none => exact .pure ()
  | some e => exact .fail e

theorem reserve (size : Nat) : Composed basic (Memory.reserve size : Action σ Unit) := by
  unfold Memory.reserve
  split
  · exact .pure ()
  · exact .stop _

theorem mono {basic' : (α : Type) → Action σ α → Prop} {m : Action σ α} (hm : Composed basic m)
    (h : ∀ (α : Type) (m : Action σ α), basic α m → basic' α m) : Composed basic' m := by
  induction hm with
  | basic hb => exact .basic (h _ _ hb)
  | ofOutcome o => exact .ofOutcome o
  | bind _ _ ihm ihf => exact .bind ihm ihf
  | attempt _ ih => exact .attempt ih
  | observe _ ih => exact .observe ih

/-- What every basic action keeps, every action keeps. -/
theorem keeps [Viewed σ ν] {m : Action σ α} {I : ν → Prop} (hm : Composed basic m)
    (h : ∀ (α : Type) (m : Action σ α), basic α m → Keeps I m) : Keeps I m := by
  induction hm with
  | basic hb => exact h _ _ hb
  | ofOutcome o => exact Triple.ofOutcome fun _ _ h => h
  | bind _ _ ihm ihf => exact Keeps.bind ihm ihf
  | attempt _ ih => exact Keeps.attempt ih
  | observe _ ih => exact Keeps.observe ih

/-- What leads from state to state through every basic action leads through every action. -/
theorem along {R : σ → σ → Prop} (hrefl : ∀ s, R s s)
    (htrans : ∀ s s' s'', R s s' → R s' s'' → R s s'') {m : Action σ α}
    (hm : Composed basic m)
    (h : ∀ (α : Type) (m : Action σ α), basic α m → ∀ s, R s (m s).2) (s : σ) : R s (m s).2 := by
  induction hm generalizing s with
  | basic hb => exact h _ _ hb s
  | ofOutcome o => exact hrefl s
  | bind _ _ ihm ihf =>
    have hfirst := ihm s
    rw [bind_apply]
    split <;> rename_i heq <;> rw [heq] at hfirst
    · exact htrans _ _ _ hfirst (ihf _ _)
    · exact hfirst
    · exact hfirst
  | attempt _ ih =>
    rw [attempt_state]
    exact ih s
  | observe _ ih => exact ih s

end Composed

end Action

open SpanEcho.Action

/-! ## Worlds -/

variable {κ α : Type} [Kernel κ]

namespace Sys

inductive Basic : (α : Type) → Sys κ α → Prop
  | call (c : Call) : Basic _ (Sys.call c)
  | log (level : Log.Level) (text : String) : Basic _ (Sys.log level text)
  | stopping : Basic _ Sys.stopping
  | askStop : Basic _ Sys.askStop
  | switchTo (t : Thread) : Basic _ (Sys.switchTo t)

/-- Put together from calls, lines, and looks at the requests to stop. -/
abbrev Tame (m : Sys κ α) : Prop :=
  Composed (@Basic κ _) m

theorem Tame.grows {m : Sys κ α} (hm : Tame m) : Keeps (fun _ => True) m := by
  apply hm.keeps
  intro _ _ hb
  cases hb with
  | call c => exact triple_call fun _ _ _ _ _ _ => trivial
  | log level text => exact (silent_log level text).triple fun _ _ _ => trivial
  | stopping => exact ⟨fun _ => List.suffix_rfl, fun _ _ _ => trivial⟩
  | askStop => exact silent_askStop.triple fun _ _ _ => trivial
  | switchTo t => exact (silent_switchTo t).triple fun _ _ _ => trivial

theorem tame_ask (c : Call) (read : c.Reply → Answer α) : Tame (Sys.ask c read : Sys κ α) := by
  refine .bind (.basic (.call c)) fun reply => ?_
  unfold demand
  split
  · exact .pure _
  · exact .fail _

/-! ### Actions that make quiet calls only -/

inductive Calm : (α : Type) → Sys κ α → Prop
  | call {c : Call} (hc : c.Quiet) : Calm _ (Sys.call c)
  | log (level : Log.Level) (text : String) : Calm _ (Sys.log level text)

/-- Put together from quiet calls and lines. -/
abbrev Quiet (m : Sys κ α) : Prop :=
  Composed (@Calm κ _) m

theorem Quiet.tame {m : Sys κ α} (hm : Quiet m) : Tame m := by
  apply hm.mono
  intro _ _ hb
  cases hb with
  | call hc => exact .call _
  | log level text => exact .log level text

theorem Quiet.added {m : Sys κ α} (hm : Quiet m) (w : World κ) :
    Added Call.Quiet w.past (m w).2.past := by
  refine Composed.along (R := fun w w' : World κ => Added Call.Quiet w.past w'.past)
    (fun _ => .refl _) (fun _ _ _ h h' => h.trans h') hm ?_ w
  intro _ _ hb w
  cases hb with
  | call hc =>
    show Added Call.Quiet w.past (w.call _).2.past
    rw [World.call_past]
    exact .single hc
  | log level text =>
    show Added Call.Quiet w.past (w.write _).past
    rw [World.write_past]
    exact .refl _

theorem quiet_ask {c : Call} (hc : c.Quiet) (read : c.Reply → Answer α) :
    Quiet (Sys.ask c read : Sys κ α) := by
  refine .bind (.basic (.call hc)) fun reply => ?_
  unfold demand
  split
  · exact .pure _
  · exact .fail _

theorem quiet_now : Quiet (Sys.now : Sys κ Duration) :=
  .basic (.call (c := .clock) trivial)

theorem quiet_log (level : Log.Level) (text : String) : Quiet (Sys.log level text : Sys κ Unit) :=
  .basic (.log level text)

end Sys

namespace Socket

open Sys (Tame tame_ask Quiet quiet_ask quiet_log)

theorem tame_close (fd : Descriptor) : Tame (Socket.close fd : Sys κ Unit) :=
  .bind (.basic (.call _)) fun _ => .pure _

theorem tame_closeAll (fds : List Descriptor) : Tame (Socket.closeAll fds : Sys κ Unit) := by
  induction fds with
  | nil => exact .pure ()
  | cons fd rest ih => exact .bind (tame_close fd) fun _ => ih

theorem tame_closingOnFailure (fds : List Descriptor) {m : Sys κ α} (hm : Tame m) :
    Tame (Socket.closingOnFailure fds m) := by
  refine .bind (.observe hm) fun o => ?_
  cases o with
  | ok a => exact .pure a
  | failed e => exact .bind (tame_closeAll fds) fun _ => .ofOutcome _
  | defect d => exact .bind (tame_closeAll fds) fun _ => .ofOutcome _

theorem quiet_setCloseOnExec (fd : Descriptor) : Quiet (Socket.setCloseOnExec fd : Sys κ Unit) :=
  .bind (quiet_ask (by exact trivial) _) fun _ => quiet_ask (by exact trivial) _

theorem quiet_setNonBlocking (fd : Descriptor) : Quiet (Socket.setNonBlocking fd : Sys κ Unit) := by
  refine .bind (quiet_ask (by exact trivial) _) fun flags => ?_
  split
  · exact .pure ()
  · exact quiet_ask (by exact trivial) _

theorem tame_accept (listener : Descriptor) :
    Tame (Socket.accept listener : Sys κ (Descriptor × Option Endpoint)) := by
  refine .bind (tame_ask _ _) fun accepted => tame_closingOnFailure _ ?_
  exact .bind (quiet_setCloseOnExec _).tame fun _ => .pure _

theorem quiet_localAddress (fd : Descriptor) : Quiet (Socket.localAddress fd : Sys κ Endpoint) := by
  refine .bind (quiet_ask (by exact trivial) _) fun name => ?_
  split
  · exact .pure _
  · exact .fail _

theorem quiet_reportPeer (peer : Option Endpoint) :
    Quiet (Socket.reportPeer peer : Sys κ Unit) := by
  cases peer <;> exact quiet_log _ _

end Socket

namespace Multiplexor

theorem quiet_interruptedOr (operation : String) (errno : Errno) :
    Sys.Quiet (interruptedOr operation errno : Sys κ (List Readiness)) := by
  unfold interruptedOr
  split
  · exact .pure _
  · exact .fail _

theorem quiet_wait (m : Multiplexor) (entries : List Registration) (highest : Descriptor)
    (limit : Option Duration) :
    Sys.Quiet (m.wait entries highest limit : Sys κ (List Readiness)) := by
  cases m with
  | select =>
    simp only [wait]
    split
    · exact .fail _
    · refine .bind (.basic (.call (by exact trivial))) fun reply => ?_
      split
      · exact quiet_interruptedOr _ _
      · exact .pure _
  | poll =>
    refine .bind (.basic (.call (by exact trivial))) fun reply => ?_
    split
    · exact quiet_interruptedOr _ _
    · exact .pure _
  | external name bound =>
    refine .bind (.basic (.call (by exact trivial))) fun reply => ?_
    cases reply with
    | ok ready => exact .pure _
    | failed errno => exact .fail _
    | notOpen => exact .fail _

end Multiplexor

/-! ## Nodes -/

/-- What does not change as long as a reactor runs. -/
structure Reactor.Steady (r r' : Reactor) : Prop where
  listener : r'.listener = r.listener
  multiplexor : r'.multiplexor = r.multiplexor
  settings : r'.settings = r.settings

namespace Reactor

theorem Steady.refl (r : Reactor) : r.Steady r :=
  ⟨rfl, rfl, rfl⟩

theorem Steady.trans {r r' r'' : Reactor} (h : r.Steady r') (h' : r'.Steady r'') : r.Steady r'' :=
  ⟨h'.listener.trans h.listener, h'.multiplexor.trans h.multiplexor, h'.settings.trans h.settings⟩

/-- Reactors that differ in their counters and their pause at most. -/
structure Alike (r r' : Reactor) : Prop where
  listener : r'.listener = r.listener
  multiplexor : r'.multiplexor = r.multiplexor
  settings : r'.settings = r.settings
  registry : r'.registry = r.registry

theorem Alike.refl (r : Reactor) : r.Alike r :=
  ⟨rfl, rfl, rfl, rfl⟩

theorem Alike.trans {r r' r'' : Reactor} (h : r.Alike r') (h' : r'.Alike r'') : r.Alike r'' :=
  ⟨h'.listener.trans h.listener, h'.multiplexor.trans h.multiplexor, h'.settings.trans h.settings,
    h'.registry.trans h.registry⟩

theorem Alike.steady {r r' : Reactor} (h : r.Alike r') : r.Steady r' :=
  ⟨h.listener, h.multiplexor, h.settings⟩

end Reactor

namespace Loop

inductive Basic : (α : Type) → Loop κ α → Prop
  | sys {α : Type} {m : Sys κ α} (hm : Sys.Tame m) : Basic _ (Loop.sys m)
  | reactor : Basic _ Loop.reactor
  | adjust (f : Reactor → Reactor) (hf : ∀ r, Reactor.Steady r (f r)) : Basic _ (Loop.adjust f)
  | registry {α : Type} (m : Action (Registry Descriptor) α) : Basic _ (Loop.registry m)
  | exchange (t : Ticket) (entry : Entry Descriptor) (d : Direction) :
      Basic _ (Reactor.exchange t entry d)

/-- Put together from tame actions on the world, changes of the reactor, and exchanges with a
peer. -/
abbrev Tame (m : Loop κ α) : Prop :=
  Composed (@Basic κ _) m

/-- A handler makes one call at most, which moves bytes over the connection's own socket. -/
theorem exchange_world (t : Ticket) (entry : Entry Descriptor) (d : Direction) (n : Node κ) :
    (Reactor.exchange t entry d n).2.world = n.world ∨
      ∃ c : Call, c.carrier? = some entry.socket ∧
        (Reactor.exchange t entry d n).2.world = (n.world.call c).2 := by
  cases d with
  | receive =>
    simp only [Reactor.exchange, Session.onReadable]
    split
    · split
      · exact .inl rfl
      · exact .inr ⟨_, rfl, rfl⟩
    · exact .inl rfl
  | send =>
    simp only [Reactor.exchange, Session.onWritable]
    split
    · split
      · exact .inl rfl
      · exact .inr ⟨_, rfl, rfl⟩
    · exact .inl rfl

theorem exchange_grows (t : Ticket) (entry : Entry Descriptor) (d : Direction) :
    Keeps (fun _ => True) (Reactor.exchange t entry d : Loop κ Interest) := by
  refine ⟨fun n => ?_, fun _ _ _ => trivial⟩
  show n.world.past <:+ (Reactor.exchange t entry d n).2.world.past
  rcases exchange_world t entry d n with h | ⟨c, -, h⟩
  · exact h ▸ List.suffix_rfl
  · rw [h, World.call_past]
    exact List.suffix_cons _ _

theorem Tame.grows {m : Loop κ α} (hm : Tame m) : Keeps (fun _ => True) m := by
  apply hm.keeps
  intro _ _ hb
  cases hb with
  | sys hm => exact triple_sys fun _ => hm.grows
  | reactor => exact ⟨fun _ => List.suffix_rfl, fun _ _ _ => trivial⟩
  | adjust f => exact triple_adjust fun _ _ _ => trivial
  | registry m => exact triple_registry fun _ _ _ => trivial
  | exchange t entry d => exact exchange_grows t entry d

/-- Whatever the kernel replies, what does not change as long as a reactor runs stays. -/
theorem Tame.along {m : Loop κ α} (hm : Tame m) (n : Node κ) :
    n.reactor.Steady (m n).2.reactor := by
  refine Composed.along (R := fun n n' : Node κ => n.reactor.Steady n'.reactor) (fun _ => .refl _)
    (fun _ _ _ h h' => h.trans h') hm ?_ n
  intro _ _ hb n
  cases hb with
  | adjust f hf => exact hf _
  | _ => exact ⟨rfl, rfl, rfl⟩

theorem Tame.steady {m : Loop κ α} (hm : Tame m) (r : Reactor) :
    Keeps (fun v => r.Steady v.reactor) m where
  grows := hm.grows.grows
  ensures := fun n h _ => h.trans (hm.along n)

theorem tame_sys {m : Sys κ α} (hm : Sys.Tame m) : Tame (Loop.sys m) :=
  .basic (.sys hm)

theorem tame_reactor : Tame (Loop.reactor : Loop κ Reactor) :=
  .basic .reactor

theorem tame_adjust (f : Reactor → Reactor)
    (hf : ∀ r, Reactor.Steady r (f r) := by exact fun _ => ⟨rfl, rfl, rfl⟩) :
    Tame (Loop.adjust f : Loop κ Unit) :=
  .basic (.adjust f hf)

theorem tame_count (f : Tally → Tally) : Tame (Loop.count f : Loop κ Unit) :=
  tame_adjust _

theorem tame_log (level : Log.Level) (text : String) : Tame (Loop.log level text : Loop κ Unit) :=
  tame_sys (Sys.quiet_log level text).tame

/-! ## Actions that make quiet calls only and leave the registry alone -/

inductive Calm : (α : Type) → Loop κ α → Prop
  | sys {α : Type} {m : Sys κ α} (hm : Sys.Quiet m) : Calm _ (Loop.sys m)
  | reactor : Calm _ Loop.reactor
  | adjust (f : Reactor → Reactor) (hf : ∀ r, Reactor.Alike r (f r)) : Calm _ (Loop.adjust f)

/-- Put together from quiet actions on the world and changes of the counters and the pause. -/
abbrev Quiet (m : Loop κ α) : Prop :=
  Composed (@Calm κ _) m

theorem Quiet.tame {m : Loop κ α} (hm : Quiet m) : Tame m := by
  apply hm.mono
  intro _ _ hb
  cases hb with
  | sys hm => exact .sys hm.tame
  | reactor => exact .reactor
  | adjust f hf => exact .adjust f fun r => (hf r).steady

/-- Whatever the kernel replies, a quiet action leaves the registry alone and opens, closes and
moves nothing. -/
theorem Quiet.along {m : Loop κ α} (hm : Quiet m) (n : Node κ) :
    n.reactor.Alike (m n).2.reactor ∧ Added Call.Quiet n.world.past (m n).2.world.past := by
  refine Composed.along
    (R := fun n n' : Node κ => n.reactor.Alike n'.reactor ∧
      Added Call.Quiet n.world.past n'.world.past)
    (fun n => ⟨.refl _, .refl _⟩) (fun _ _ _ h h' => ⟨h.1.trans h'.1, h.2.trans h'.2⟩) hm ?_ n
  intro _ _ hb n
  cases hb with
  | sys hm => exact ⟨.refl _, hm.added n.world⟩
  | reactor => exact ⟨.refl _, .refl _⟩
  | adjust f hf => exact ⟨hf _, .refl _⟩

theorem Quiet.alike {m : Loop κ α} (hm : Quiet m) (r : Reactor) :
    Keeps (fun v => r.Alike v.reactor) m where
  grows := hm.tame.grows.grows
  ensures := fun n h _ => h.trans (hm.along n).1

/-- What does not depend on counters and pause may be carried over a quiet action. -/
theorem Quiet.carry {m : Loop κ α} (hm : Quiet m) {P : Scene → Prop} {Q : Outcome α → Scene → Prop}
    {K : Reactor → Prop} (hK : ∀ {r r' : Reactor}, r.Alike r' → K r → K r') (h : Triple P m Q) :
    Triple (fun v => P v ∧ K v.reactor) m fun o v => Q o v ∧ K v.reactor where
  grows := h.grows
  ensures := fun n hn hlaw =>
    ⟨h.ensures n hn.1 hlaw, hK ((hm.alike n.reactor).ensures n (.refl n.reactor) hlaw) hn.2⟩

theorem quiet_sys {m : Sys κ α} (hm : Sys.Quiet m) : Quiet (Loop.sys m) :=
  .basic (.sys hm)

theorem quiet_reactor : Quiet (Loop.reactor : Loop κ Reactor) :=
  .basic .reactor

theorem quiet_adjust (f : Reactor → Reactor)
    (hf : ∀ r, Reactor.Alike r (f r) := by exact fun _ => ⟨rfl, rfl, rfl, rfl⟩) :
    Quiet (Loop.adjust f : Loop κ Unit) :=
  .basic (.adjust f hf)

theorem quiet_count (f : Tally → Tally) : Quiet (Loop.count f : Loop κ Unit) :=
  quiet_adjust _

theorem quiet_log (level : Log.Level) (text : String) : Quiet (Loop.log level text : Loop κ Unit) :=
  quiet_sys (Sys.quiet_log level text)

end Loop

namespace Reactor

open Loop (Tame tame_sys tame_reactor tame_adjust tame_count tame_log)
open Loop (Quiet quiet_sys quiet_reactor quiet_adjust quiet_count quiet_log)

theorem quiet_resumeAccepting : Quiet (resumeAccepting : Loop κ Unit) := by
  refine .bind quiet_reactor fun r => ?_
  split
  · exact .pure ()
  · refine .bind (quiet_sys Sys.quiet_now) fun now => ?_
    split
    · exact .bind (quiet_log _ _) fun _ => quiet_adjust _
    · exact .pure ()

theorem quiet_waitLimit : Quiet (waitLimit : Loop κ (Option Duration)) := by
  refine .bind quiet_reactor fun r => ?_
  split
  · exact .pure _
  · refine .bind (quiet_sys Sys.quiet_now) fun now => ?_
    split <;> exact .pure _

theorem quiet_prepare : Quiet (prepare : Loop κ Plan) :=
  .bind quiet_resumeAccepting fun _ => .bind quiet_reactor fun _ =>
    .bind quiet_waitLimit fun _ => .pure _

theorem quiet_acceptFailed (e : Failure) : Quiet (acceptFailed e : Loop κ Unit) := by
  refine .bind (quiet_count _) fun _ => ?_
  split
  · exact .bind (quiet_log _ _) fun _ => .bind (quiet_sys Sys.quiet_now) fun _ => quiet_adjust _
  · exact quiet_log _ _

theorem tame_enrol (fd : Descriptor) (peer : Option Endpoint) :
    Tame (enrol fd peer : Loop κ Unit) := by
  refine .bind (.attempt (tame_sys (Socket.quiet_setNonBlocking fd).tame)) fun result => ?_
  cases result with
  | error e =>
    exact .bind (tame_log _ _) fun _ => .bind (tame_count _) fun _ =>
      tame_sys (Socket.tame_close fd)
  | ok _ =>
    refine .bind tame_reactor fun r => .bind (.observe ?_) fun o => ?_
    · exact .bind (tame_sys (.failIf _)) fun _ => .bind (.reserve _) fun _ =>
        .bind (.basic (.registry _)) fun _ => .pure _
    · cases o with
      | ok _ =>
        exact .bind (tame_count _) fun _ =>
          .bind (tame_sys (Socket.quiet_reportPeer peer).tame) fun _ => tame_log _ _
      | failed e => exact .bind (tame_sys (Socket.tame_close fd)) fun _ => .ofOutcome _
      | defect d => exact .bind (tame_sys (Socket.tame_close fd)) fun _ => .ofOutcome _

theorem tame_acceptOne : Tame (acceptOne : Loop κ Unit) := by
  refine .bind tame_reactor fun r =>
    .bind (.attempt (tame_sys (Socket.tame_accept _))) fun result => ?_
  split
  · exact tame_log _ _
  · exact (quiet_acceptFailed _).tame
  · exact tame_enrol _ _

theorem quiet_countTraffic (t : Ticket) (old : Session) :
    Quiet (countTraffic t old : Loop κ Unit) := by
  refine .bind quiet_reactor fun r => ?_
  split
  · exact .pure ()
  · split
    · exact .stop _
    · exact quiet_count _

theorem quiet_verdict (t : Ticket) (answer : Except Failure Interest) :
    Quiet (verdict t answer : Loop κ Interest) := by
  cases answer with
  | ok interest => exact .pure _
  | error e => exact .bind (quiet_log _ _) fun _ => .bind (quiet_count _) fun _ => .pure _

theorem tame_hangUp (t : Ticket) : Tame (hangUp t : Loop κ Unit) := by
  refine .bind tame_reactor fun r => ?_
  split
  · exact .pure ()
  · split
    · exact .stop _
    · exact .bind (tame_adjust _) fun _ => .bind (tame_sys (Socket.tame_close _)) fun _ =>
        .bind (tame_log _ _) fun _ => tame_count _

theorem tame_keep (t : Ticket) (interest : Interest) : Tame (keep t interest : Loop κ Unit) := by
  unfold keep
  split
  · exact tame_hangUp t
  · exact tame_adjust _

theorem tame_followUp (t : Ticket) (d : Direction) (old : Session)
    (answer : Except Failure Interest) : Tame (followUp t d old answer : Loop κ Unit) :=
  .bind (quiet_countTraffic t old).tame fun _ => .bind (quiet_verdict t answer).tame fun _ =>
    .bind (tame_log _ _) fun _ => tame_keep t _

theorem tame_serve (t : Ticket) (d : Direction) : Tame (serve t d : Loop κ Unit) := by
  refine .bind tame_reactor fun r => ?_
  split
  · exact .pure ()
  · exact .bind (.attempt (.basic (.exchange t _ d))) fun _ => tame_followUp t d _ _

theorem tame_dispatch (ready : Readiness) : Tame (dispatch ready : Loop κ Unit) := by
  refine .bind tame_reactor fun r => ?_
  split
  · exact .when tame_acceptOne
  · split
    · exact .pure ()
    · exact .bind (.when (tame_serve _ _)) fun _ => .when (tame_serve _ _)

theorem tame_dispatchAll (ready : List Readiness) : Tame (dispatchAll ready : Loop κ Unit) := by
  induction ready with
  | nil => exact .pure ()
  | cons r rest ih => exact .bind (tame_dispatch r) fun _ => ih

theorem quiet_await (plan : Plan) : Quiet (await plan : Loop κ (List Readiness)) :=
  .bind quiet_reactor fun _ => .bind (quiet_sys (Multiplexor.quiet_wait _ _ _ _)) fun _ =>
    .bind (quiet_count _) fun _ => .bind quiet_reactor fun _ =>
      .bind (quiet_log _ _) fun _ => .pure _

theorem quiet_start : Quiet (start : Loop κ Duration) :=
  .bind quiet_reactor fun _ => .bind (.attempt (quiet_sys (Socket.quiet_localAddress _))) fun _ =>
    .bind (quiet_log _ _) fun _ => quiet_sys Sys.quiet_now

theorem quiet_report (last : Duration) : Quiet (report last : Loop κ Duration) := by
  refine .bind quiet_reactor fun r => ?_
  split
  · exact .pure _
  · refine .bind (quiet_sys Sys.quiet_now) fun now => ?_
    split
    · exact .bind quiet_reactor fun _ => .bind (quiet_log _ _) fun _ => quiet_sys Sys.quiet_now
    · exact .pure _

theorem quiet_finish : Quiet (finish : Loop κ Tally) :=
  .bind quiet_reactor fun _ => .bind (quiet_log _ _) fun _ => .pure _

end Reactor

end SpanEcho

import SpanEcho.Proofs.LogLevel

/-!
# Which lines a reactor writes

The lines with the counters, which a reactor writes at intervals, begin with a word of their own
(`Log.Line.periodic`). All else that a reactor writes, in a pass, at its start and at its end,
begins with one of a few other words (`Log.Line.Ordinary`). So only the report after a pass can
write a periodic line.
-/

namespace SpanEcho

open SpanEcho.Action

/-! ## The words that lines begin with -/

namespace Log

/-- The words with which the lines of a reactor begin that do not come at intervals. -/
inductive Opening where
  | resuming | accept | loop | socket | peer | reactor

@[simp] def Opening.text : Opening → String
  | resuming => "resuming "
  | accept => "accept "
  | loop => "loop "
  | socket => "socket "
  | peer => "peer "
  | reactor => "reactor: "

namespace Line

/-- Whether a line has the counters as they are logged at intervals. -/
def periodic (l : Line) : Bool :=
  "stats: ".toList.isPrefixOf l.text.toList

def Ordinary (l : Line) : Prop :=
  ∃ opening : Opening, opening.text.toList <+: l.text.toList

/-- None of the words is the beginning of another. -/
theorem Ordinary.not_periodic {l : Line} (h : l.Ordinary) : l.periodic = false := by
  obtain ⟨opening, hopening⟩ := h
  have hneither : ¬ "stats: ".toList <+: opening.text.toList ∧
      ¬ opening.text.toList <+: "stats: ".toList := by
    cases opening <;> decide
  rw [Bool.eq_false_iff]
  intro hperiodic
  rcases List.prefix_or_prefix_of_prefix (List.isPrefixOf_iff_prefix.mp hperiodic) hopening with
    h | h
  · exact hneither.1 h
  · exact hneither.2 h

end Line

end Log

/-! ## What is written -/

/-- From `w` to `w'` lines of one kind are written, and the level stays. -/
structure World.Wrote {κ : Type} (kind : Log.Line → Prop) (w w' : World κ) : Prop where
  level : w'.level = w.level
  lines : ∃ said, w'.remarks = said ++ w.remarks ∧ ∀ r ∈ said, kind r.line

namespace World.Wrote

variable {κ : Type} {kind : Log.Line → Prop} {w w' w'' : World κ}

theorem nothing (hlevel : w'.level = w.level) (hremarks : w'.remarks = w.remarks) :
    Wrote kind w w' :=
  ⟨hlevel, [], hremarks, List.forall_mem_nil _⟩

theorem trans (h : Wrote kind w w') (h' : Wrote kind w' w'') : Wrote kind w w'' := by
  obtain ⟨hlevel, said, hremarks, hsaid⟩ := h
  obtain ⟨hlevel', said', hremarks', hsaid'⟩ := h'
  refine ⟨hlevel'.trans hlevel, said' ++ said, by rw [hremarks', hremarks, List.append_assoc],
    fun r hr => ?_⟩
  rcases List.mem_append.mp hr with hr | hr
  · exact hsaid' r hr
  · exact hsaid r hr

theorem call [Kernel κ] (c : Call) (w : World κ) : Wrote kind w (w.call c).2 :=
  nothing (w.call_log c).1 (w.call_log c).2

theorem write {line : Log.Line} (h : kind line) (w : World κ) : Wrote kind w (w.write line) := by
  unfold World.write
  split
  · refine ⟨rfl, [⟨w.thread, line⟩], rfl, fun r hr => ?_⟩
    rw [List.mem_singleton.mp hr]
    exact h
  · exact nothing rfl rfl

end World.Wrote

variable {κ α : Type} {kind : Log.Line → Prop}

namespace Sys

/-- Put together from actions that write lines of one kind only. -/
abbrev Saying (kind : Log.Line → Prop) (m : Sys κ α) : Prop :=
  Composed (fun _ m => ∀ w : World κ, World.Wrote kind w (m w).2) m

theorem Saying.wrote {m : Sys κ α} (hm : Saying kind m) (w : World κ) :
    World.Wrote kind w (m w).2 :=
  Composed.along (fun _ => .nothing rfl rfl) (fun _ _ _ => .trans) hm (fun _ _ hb => hb) w

theorem saying_log {level : Log.Level} {text : String} (h : kind ⟨some level, text⟩) :
    Saying kind (Sys.log level text : Sys κ Unit) :=
  .basic fun w => .write h w

variable [Kernel κ]

theorem saying_call (c : Call) : Saying kind (Sys.call c : Sys κ c.Reply) :=
  .basic fun w => .call c w

theorem saying_ask (c : Call) (read : c.Reply → Answer α) :
    Saying kind (Sys.ask c read : Sys κ α) := by
  refine .bind (saying_call c) fun reply => ?_
  unfold demand
  split
  · exact .pure _
  · exact .fail _

end Sys

/-! ## Sockets and waits, which write nothing or greet -/

namespace Socket

open Sys (Saying saying_call saying_ask saying_log)

variable [Kernel κ]

theorem saying_close (fd : Descriptor) : Saying kind (Socket.close fd : Sys κ Unit) :=
  .bind (saying_call _) fun _ => .pure _

theorem saying_setNonBlocking (fd : Descriptor) :
    Saying kind (Socket.setNonBlocking fd : Sys κ Unit) := by
  refine .bind (saying_ask _ _) fun flags => ?_
  split
  · exact .pure ()
  · exact saying_ask _ _

theorem saying_accept (listener : Descriptor) :
    Saying kind (Socket.accept listener : Sys κ (Descriptor × Option Endpoint)) := by
  refine .bind (saying_ask _ _) fun accepted => .bind (.observe ?_) fun o => ?_
  · exact .bind (.bind (saying_ask _ _) fun _ => saying_ask _ _) fun _ => .pure _
  · cases o with
    | ok a => exact .pure a
    | failed why => exact .bind (.bind (saying_close _) fun _ => .pure _) fun _ => .ofOutcome _
    | defect what => exact .bind (.bind (saying_close _) fun _ => .pure _) fun _ => .ofOutcome _

theorem saying_localAddress (fd : Descriptor) :
    Saying kind (Socket.localAddress fd : Sys κ Endpoint) := by
  refine .bind (saying_ask _ _) fun name => ?_
  split
  · exact .pure _
  · exact .fail _

omit [Kernel κ] in
theorem saying_reportPeer (peer : Option Endpoint) :
    Saying Log.Line.Ordinary (Socket.reportPeer peer : Sys κ Unit) := by
  cases peer with
  | none => exact saying_log ⟨.peer, by simp⟩
  | some address => exact saying_log ⟨.peer, by simp [toString]⟩

end Socket

theorem Multiplexor.saying_wait [Kernel κ] (m : Multiplexor) (entries : List Registration)
    (highest : Descriptor) (limit : Option Duration) :
    Sys.Saying kind (m.wait entries highest limit : Sys κ (List Readiness)) := by
  have hinterrupted : ∀ operation errno,
      Sys.Saying kind (interruptedOr operation errno : Sys κ (List Readiness)) := by
    intro operation errno
    unfold interruptedOr
    split
    · exact .pure _
    · exact .fail _
  cases m with
  | select =>
    simp only [wait]
    split
    · exact .fail _
    · refine .bind (Sys.saying_call _) fun reply => ?_
      split
      · exact hinterrupted _ _
      · exact .pure _
  | poll =>
    refine .bind (Sys.saying_call _) fun reply => ?_
    split
    · exact hinterrupted _ _
    · exact .pure _
  | external name bound =>
    refine .bind (Sys.saying_call _) fun reply => ?_
    cases reply with
    | ok ready => exact .pure _
    | failed errno => exact .fail _
    | notOpen => exact .fail _

namespace Loop

/-- Put together from actions that write lines of one kind only. -/
abbrev Saying (kind : Log.Line → Prop) (m : Loop κ α) : Prop :=
  Composed (fun _ m => ∀ n : Node κ, World.Wrote kind n.world (m n).2.world) m

theorem Saying.wrote {m : Loop κ α} (hm : Saying kind m) (n : Node κ) :
    World.Wrote kind n.world (m n).2.world :=
  Composed.along (R := fun n n' : Node κ => World.Wrote kind n.world n'.world)
    (fun _ => .nothing rfl rfl) (fun _ _ _ => .trans) hm (fun _ _ hb => hb) n

theorem saying_sys {m : Sys κ α} (hm : Sys.Saying kind m) : Saying kind (Loop.sys m) :=
  .basic fun n => hm.wrote n.world

theorem saying_reactor : Saying kind (Loop.reactor : Loop κ Reactor) :=
  .basic fun _ => .nothing rfl rfl

theorem saying_adjust (f : Reactor → Reactor) : Saying kind (Loop.adjust f : Loop κ Unit) :=
  .basic fun _ => .nothing rfl rfl

theorem saying_log {level : Log.Level} {text : String} (h : kind ⟨some level, text⟩) :
    Saying kind (Loop.log level text : Loop κ Unit) :=
  saying_sys (Sys.saying_log h)

theorem saying_now [Kernel κ] : Saying kind (Loop.sys Sys.now : Loop κ Duration) :=
  saying_sys (Sys.saying_call .clock)

end Loop

/-! ## Reactors -/

namespace Reactor

open Log.Line (Ordinary)
open Loop (Saying saying_sys saying_reactor saying_adjust saying_log saying_now)

variable [Kernel κ]

theorem saying_prepare : Saying Ordinary (prepare : Loop κ Plan) := by
  have hresume : Saying Ordinary (resumeAccepting : Loop κ Unit) := by
    refine .bind saying_reactor fun r => ?_
    split
    · exact .pure ()
    · refine .bind saying_now fun now => ?_
      split
      · exact .bind (saying_log ⟨.resuming, by simp⟩) fun _ => saying_adjust _
      · exact .pure ()
  have hlimit : Saying Ordinary (waitLimit : Loop κ (Option Duration)) := by
    refine .bind saying_reactor fun r => ?_
    split
    · exact .pure _
    · refine .bind saying_now fun now => ?_
      split <;> exact .pure _
  exact .bind hresume fun _ => .bind saying_reactor fun _ => .bind hlimit fun _ => .pure _

theorem saying_await (plan : Plan) : Saying Ordinary (await plan : Loop κ (List Readiness)) :=
  .bind saying_reactor fun _ => .bind (saying_sys (Multiplexor.saying_wait _ _ _ _)) fun _ =>
    .bind (saying_adjust _) fun _ => .bind saying_reactor fun _ =>
      .bind (saying_log ⟨.loop, by simp [toString]⟩) fun _ => .pure _

theorem saying_acceptFailed (why : Failure) : Saying Ordinary (acceptFailed why : Loop κ Unit) := by
  refine .bind (saying_adjust _) fun _ => ?_
  split
  · exact .bind (saying_log ⟨.accept, by simp [toString]⟩) fun _ =>
      .bind saying_now fun _ => saying_adjust _
  · exact saying_log ⟨.accept, by simp [toString]⟩

theorem saying_enrol (fd : Descriptor) (peer : Option Endpoint) :
    Saying Ordinary (enrol fd peer : Loop κ Unit) := by
  have hclose : Saying Ordinary (Loop.sys (Socket.close fd) : Loop κ Unit) :=
    saying_sys (Socket.saying_close fd)
  refine .bind (.attempt (saying_sys (Socket.saying_setNonBlocking fd))) fun result => ?_
  cases result with
  | error why =>
    exact .bind (saying_log ⟨.socket, by simp [toString]⟩) fun _ =>
      .bind (saying_adjust _) fun _ => hclose
  | ok _ =>
    refine .bind saying_reactor fun r => .bind (.observe ?_) fun o => ?_
    · exact .bind (saying_sys (.failIf _)) fun _ => .bind (.reserve _) fun _ =>
        .bind (.basic fun _ => .nothing rfl rfl) fun _ => .pure _
    · cases o with
      | ok _ =>
        exact .bind (saying_adjust _) fun _ =>
          .bind (saying_sys (Socket.saying_reportPeer peer)) fun _ =>
            saying_log ⟨.socket, by simp [toString]⟩
      | failed why => exact .bind hclose fun _ => .ofOutcome _
      | defect what => exact .bind hclose fun _ => .ofOutcome _

theorem saying_acceptOne : Saying Ordinary (acceptOne : Loop κ Unit) := by
  refine .bind saying_reactor fun r =>
    .bind (.attempt (saying_sys (Socket.saying_accept _))) fun result => ?_
  split
  · exact saying_log ⟨.accept, by simp⟩
  · exact saying_acceptFailed _
  · exact saying_enrol _ _

theorem saying_exchange (t : Ticket) (entry : Entry Descriptor) (d : Direction) :
    Saying kind (exchange t entry d : Loop κ Interest) := by
  refine .basic fun n => ?_
  rcases Loop.exchange_world t entry d n with hw | ⟨c, -, hw⟩
  · rw [hw]
    exact .nothing rfl rfl
  · rw [hw]
    exact .call c n.world

theorem saying_keep (t : Ticket) (interest : Interest) :
    Saying Ordinary (keep t interest : Loop κ Unit) := by
  unfold keep
  split
  · refine .bind saying_reactor fun r => ?_
    split
    · exact .pure ()
    · split
      · exact .stop _
      · exact .bind (saying_adjust _) fun _ => .bind (saying_sys (Socket.saying_close _)) fun _ =>
          .bind (saying_log ⟨.socket, by simp [toString]⟩) fun _ => saying_adjust _
  · exact saying_adjust _

theorem saying_followUp (t : Ticket) (d : Direction) (old : Session)
    (answer : Except Failure Interest) :
    Saying Ordinary (followUp t d old answer : Loop κ Unit) := by
  have hcount : Saying Ordinary (countTraffic t old : Loop κ Unit) := by
    refine .bind saying_reactor fun r => ?_
    split
    · exact .pure ()
    · split
      · exact .stop _
      · exact saying_adjust _
  have hverdict : Saying Ordinary (verdict t answer : Loop κ Interest) := by
    cases answer with
    | ok interest => exact .pure _
    | error why =>
      exact .bind (saying_log ⟨.socket, by simp [toString]⟩) fun _ =>
        .bind (saying_adjust _) fun _ => .pure _
  exact .bind hcount fun _ => .bind hverdict fun _ =>
    .bind (saying_log ⟨.socket, by simp [toString]⟩) fun _ => saying_keep t _

theorem saying_serve (t : Ticket) (d : Direction) : Saying Ordinary (serve t d : Loop κ Unit) := by
  refine .bind saying_reactor fun r => ?_
  split
  · exact .pure ()
  · exact .bind (.attempt (saying_exchange t _ d)) fun _ => saying_followUp t d _ _

theorem saying_dispatch (ready : Readiness) : Saying Ordinary (dispatch ready : Loop κ Unit) := by
  refine .bind saying_reactor fun r => ?_
  split
  · exact .when saying_acceptOne
  · split
    · exact .pure ()
    · exact .bind (.when (saying_serve _ _)) fun _ => .when (saying_serve _ _)

theorem saying_dispatchAll (ready : List Readiness) :
    Saying Ordinary (dispatchAll ready : Loop κ Unit) := by
  induction ready with
  | nil => exact .pure ()
  | cons r rest ih => exact .bind (saying_dispatch r) fun _ => ih

/-- A pass writes no periodic line. -/
theorem saying_pass : Saying Ordinary (pass : Loop κ Nat) :=
  .bind saying_prepare fun plan => .bind (saying_await plan) fun ready =>
    .bind (saying_dispatchAll ready) fun _ => .pure _

theorem saying_start : Saying Ordinary (start : Loop κ Duration) :=
  .bind saying_reactor fun _ =>
    .bind (.attempt (saying_sys (Socket.saying_localAddress _))) fun _ =>
      .bind (saying_log ⟨.reactor, by simp [toString]⟩) fun _ => saying_now

omit [Kernel κ] in
theorem saying_finish : Saying Ordinary (finish : Loop κ Tally) :=
  .bind saying_reactor fun _ => .bind (saying_log ⟨.reactor, by simp [toString]⟩) fun _ => .pure _

end Reactor

end SpanEcho

import SpanEcho.Proofs.Session
import SpanEcho.Proofs.Stopping
import SpanEcho.Script.Kernel

/-!
# What the log level changes

The level that is set decides which lines are written, and nothing else. Of two runs from one start
the quieter one makes the calls of the louder, ends as it does and leaves the same reactor. Its
lines are those of the louder run that are grave enough, in their order.

The two runs go side by side (`Agrees`): from worlds that differ in their level and their lines
alone (`Muffles`), each basic action comes to worlds that do so, and hence every action that is put
together from them.
-/

namespace SpanEcho

open SpanEcho.Action

/-! ## Two runs of an action -/

namespace Action

variable {σ α β : Type} {R : σ → σ → Prop} {basic : (α : Type) → Action σ α → Prop}

/-- From related states the action ends alike, and leaves related states. -/
def Agrees (R : σ → σ → Prop) (m : Action σ α) : Prop :=
  ∀ s t, R s t → (m s).1 = (m t).1 ∧ R (m s).2 (m t).2

theorem Agrees.bind {m : Action σ α} {f : α → Action σ β} (hm : Agrees R m)
    (hf : ∀ a, Agrees R (f a)) : Agrees R (m >>= f) := by
  intro s t hst
  obtain ⟨ho, hstates⟩ := hm s t hst
  rw [bind_apply, bind_apply]
  rcases hs : m s with ⟨o, s'⟩
  rcases ht : m t with ⟨o', t'⟩
  rw [hs, ht] at ho hstates
  cases ho
  cases o with
  | ok a => exact hf a s' t' hstates
  | failed why => exact ⟨rfl, hstates⟩
  | defect what => exact ⟨rfl, hstates⟩

theorem Agrees.observe {m : Action σ α} (hm : Agrees R m) : Agrees R (Action.observe m) := by
  intro s t hst
  obtain ⟨ho, hstates⟩ := hm s t hst
  exact ⟨congrArg Outcome.ok ho, hstates⟩

theorem Agrees.attempt {m : Action σ α} (hm : Agrees R m) : Agrees R (Action.attempt m) := by
  intro s t hst
  obtain ⟨ho, hstates⟩ := hm s t hst
  unfold Action.attempt
  rcases hs : m s with ⟨o, s'⟩
  rcases ht : m t with ⟨o', t'⟩
  rw [hs, ht] at ho hstates
  cases ho
  cases o <;> exact ⟨rfl, hstates⟩

/-- Where every basic action agrees, every action does. -/
theorem Composed.agrees {m : Action σ α} (hm : Composed basic m)
    (h : ∀ (α : Type) (m : Action σ α), basic α m → Agrees R m) : Agrees R m := by
  induction hm with
  | basic hb => exact h _ _ hb
  | ofOutcome o => exact fun _ _ hst => ⟨rfl, hst⟩
  | bind _ _ ihm ihf => exact ihm.bind ihf
  | attempt _ ih => exact ih.attempt
  | observe _ ih => exact ih.observe

end Action

/-! ## Worlds -/

/-- Whether a line has a level of its own, and one that is at most `level`. -/
def Log.Line.upTo (level : Log.Level) (l : Log.Line) : Bool :=
  l.level.any (·.rank ≤ level.rank)

namespace World

variable {κ : Type} {level : Log.Level} {w v : World κ}

/-- The world with `level` set, and of the lines only those up to it. -/
def muffled (level : Log.Level) (w : World κ) : World κ :=
  { w with level, remarks := w.remarks.filter (·.line.upTo level) }

/-- `w` is `v` at a level that lets no more through. -/
structure Muffles (level : Log.Level) (w v : World κ) : Prop where
  same : w = v.muffled level
  quieter : level.rank ≤ v.level.rank
  shown : ∀ r ∈ v.remarks, r.line.level ≠ some .off

theorem notice_muffled (w : World κ) (a : Arrival) :
    (w.muffled level).notice a = (w.notice a).muffled level := by
  cases a with
  | stop => rfl
  | signal number =>
    simp only [notice]
    change (if w.disposition number = .handler then _ else _) = _
    split <;> rfl

/-- What arrives during a call leaves the log alone. -/
theorem notice_log (w : World κ) (a : Arrival) :
    (w.notice a).level = w.level ∧ (w.notice a).remarks = w.remarks := by
  cases a with
  | stop => exact ⟨rfl, rfl⟩
  | signal number =>
    simp only [notice]
    split <;> exact ⟨rfl, rfl⟩

theorem foldl_notice_muffled (arrivals : List Arrival) (w : World κ) :
    arrivals.foldl notice (w.muffled level) = (arrivals.foldl notice w).muffled level := by
  induction arrivals generalizing w with
  | nil => rfl
  | cons a rest ih => rw [List.foldl_cons, List.foldl_cons, notice_muffled, ih]

theorem foldl_notice_log (arrivals : List Arrival) (w : World κ) :
    (arrivals.foldl notice w).level = w.level ∧ (arrivals.foldl notice w).remarks = w.remarks := by
  induction arrivals generalizing w with
  | nil => exact ⟨rfl, rfl⟩
  | cons a rest ih =>
    obtain ⟨hlevel, hremarks⟩ := ih (w.notice a)
    exact ⟨hlevel.trans (w.notice_log a).1, hremarks.trans (w.notice_log a).2⟩

theorem call_muffled [Kernel κ] (w : World κ) (c : Call) :
    (w.muffled level).call c = ((w.call c).1, (w.call c).2.muffled level) :=
  Prod.ext rfl (foldl_notice_muffled _ { w with kernel := _, past := _ })

theorem call_log [Kernel κ] (w : World κ) (c : Call) :
    (w.call c).2.level = w.level ∧ (w.call c).2.remarks = w.remarks :=
  foldl_notice_log _ _

theorem Muffles.call [Kernel κ] (h : Muffles level w v) (c : Call) :
    (w.call c).1 = (v.call c).1 ∧ Muffles level (w.call c).2 (v.call c).2 := by
  have hlog := v.call_log c
  rw [h.same, call_muffled]
  exact ⟨rfl, rfl, hlog.1 ▸ h.quieter, hlog.2 ▸ h.shown⟩

/-- A line that is written at the lower level is written at the higher one; written at the higher
alone, it is not one up to the lower. -/
theorem Muffles.write (h : Muffles level w v) (own : Log.Level) (text : String) :
    Muffles level (w.write ⟨some own, text⟩) (v.write ⟨some own, text⟩) := by
  have hlevel : w.level = level := by rw [h.same]; rfl
  have hshown : ∀ {current : Log.Level},
      (⟨some own, text⟩ : Log.Line).shownAt current ↔ own ≠ .off ∧ own.rank ≤ current.rank := by
    simp [Log.Line.shownAt, Log.Level.shownAt]
  have hupTo : (⟨some own, text⟩ : Log.Line).upTo level ↔ own.rank ≤ level.rank := by
    simp [Log.Line.upTo]
  unfold World.write
  by_cases hv : (⟨some own, text⟩ : Log.Line).shownAt v.level
  · have hoff := (hshown.mp hv).1
    have hkept : ∀ r ∈ ⟨v.thread, ⟨some own, text⟩⟩ :: v.remarks, r.line.level ≠ some .off :=
      List.forall_mem_cons.mpr ⟨fun he => hoff (Option.some.inj he), h.shown⟩
    rw [if_pos hv]
    by_cases hw : (⟨some own, text⟩ : Log.Line).shownAt w.level
    · have hin := hupTo.mpr (hlevel ▸ (hshown.mp hw).2)
      rw [if_pos hw]
      refine ⟨?_, h.quieter, hkept⟩
      rw [h.same]
      simp [muffled, hin]
    · have hout : ¬ (⟨some own, text⟩ : Log.Line).upTo level := fun hin =>
        hw (hshown.mpr ⟨hoff, hlevel ▸ hupTo.mp hin⟩)
      rw [if_neg hw]
      refine ⟨?_, h.quieter, hkept⟩
      rw [h.same]
      simp [muffled, hout]
  · have hw : ¬ (⟨some own, text⟩ : Log.Line).shownAt w.level := fun hw =>
      hv (hshown.mpr ⟨(hshown.mp hw).1, Nat.le_trans (hlevel ▸ (hshown.mp hw).2) h.quieter⟩)
    rw [if_neg hv, if_neg hw]
    exact h

end World

variable {κ α : Type} [Kernel κ] {level : Log.Level}

theorem Sys.Tame.agrees {m : Sys κ α} (hm : Sys.Tame m) : Agrees (World.Muffles level) m := by
  apply Composed.agrees hm
  intro _ _ hb w v h
  cases hb with
  | call c =>
    obtain ⟨hreply, hworlds⟩ := h.call c
    exact ⟨congrArg Outcome.ok hreply, hworlds⟩
  | log own text => exact ⟨rfl, h.write own text⟩
  | stopping =>
    have hstopping : w.stopping = v.stopping := by rw [h.same]; rfl
    exact ⟨congrArg Outcome.ok hstopping, h⟩
  | askStop => exact ⟨rfl, by rw [h.same]; rfl, h.quieter, h.shown⟩
  | switchTo t => exact ⟨rfl, by rw [h.same]; rfl, h.quieter, h.shown⟩

/-! ## Nodes -/

namespace Node

/-- The same reactor, in worlds that differ in their level and their lines alone. -/
structure Muffles (level : Log.Level) (n n' : Node κ) : Prop where
  reactor : n.reactor = n'.reactor
  world : n.world.Muffles level n'.world

end Node

namespace Reactor

/-- A socket in a muffled world answers as the socket does. -/
theorem muffled_faithful (level : Log.Level) : Peer.Faithful fun p : SocketPeer κ =>
    ({ p with world := p.world.muffled level } : SocketPeer κ) where
  receive room p := by
    simp only [Peer.receive, World.call_muffled]
  send bytes p := by
    simp only [Peer.send, World.call_muffled]

theorem exchange_muffled (t : Ticket) (entry : Entry Descriptor) (d : Direction) (r : Reactor)
    (w : World κ) : exchange t entry d ⟨r, w.muffled level⟩ =
      ((exchange t entry d ⟨r, w⟩).1, ⟨(exchange t entry d ⟨r, w⟩).2.reactor,
        (exchange t entry d ⟨r, w⟩).2.world.muffled level⟩) := by
  cases d with
  | receive =>
    have hpart := Session.answer_part (muffled_faithful level) entry.session
      (.readable r.settings.receiveChunk) ⟨entry.socket, w⟩
    simp only [Session.answer] at hpart
    simp only [exchange, hpart]
  | send =>
    have hpart := Session.answer_part (muffled_faithful level) entry.session .writable
      ⟨entry.socket, w⟩
    simp only [Session.answer] at hpart
    simp only [exchange, hpart]

end Reactor

theorem Loop.Tame.agrees {m : Loop κ α} (hm : Loop.Tame m) : Agrees (Node.Muffles level) m := by
  apply Composed.agrees hm
  intro _ _ hb n n' h
  obtain ⟨hreactor, hworld⟩ := h
  cases hb with
  | sys hm =>
    obtain ⟨ho, hworlds⟩ := hm.agrees n.world n'.world hworld
    exact ⟨ho, hreactor, hworlds⟩
  | reactor => exact ⟨congrArg Outcome.ok hreactor, hreactor, hworld⟩
  | adjust f => exact ⟨rfl, congrArg f hreactor, hworld⟩
  | registry m =>
    refine ⟨congrArg (fun r : Reactor => (m r.registry).1) hreactor, ?_, hworld⟩
    exact congrArg (fun r : Reactor => { r with registry := (m r.registry).2 }) hreactor
  | exchange t entry d =>
    obtain ⟨r, w⟩ := n
    obtain ⟨r', v⟩ := n'
    cases hreactor
    obtain rfl : w = v.muffled level := hworld.same
    have hlog : (Reactor.exchange t entry d ⟨r, v⟩).2.world.level = v.level ∧
        (Reactor.exchange t entry d ⟨r, v⟩).2.world.remarks = v.remarks := by
      rcases Loop.exchange_world t entry d ⟨r, v⟩ with hw | ⟨c, -, hw⟩
      · rw [hw]
        exact ⟨rfl, rfl⟩
      · rw [hw]
        exact v.call_log c
    rw [Reactor.exchange_muffled]
    exact ⟨rfl, rfl, rfl, hlog.1 ▸ hworld.quieter, hlog.2 ▸ hworld.shown⟩

/-! ## Reactors -/

namespace Reactor

open Loop (Tame tame_sys)

theorem tame_pass : Tame (pass : Loop κ Nat) :=
  .bind quiet_prepare.tame fun plan => .bind (quiet_await plan).tame fun ready =>
    .bind (tame_dispatchAll ready) fun _ => .pure _

theorem tame_passes (last : Duration) (most : Nat) :
    Tame (passes last most : Loop κ (Option Tally)) := by
  have hfinish : Tame (some <$> finish : Loop κ (Option Tally)) :=
    .bind quiet_finish.tame fun _ => .pure _
  induction most generalizing last with
  | zero =>
    refine .bind (tame_sys (.basic .stopping)) fun asked => ?_
    split
    · exact hfinish
    · exact .pure _
  | succ most ih =>
    refine .bind (tame_sys (.basic .stopping)) fun asked => ?_
    split
    · exact hfinish
    · exact .bind tame_pass fun _ => .bind (quiet_report last).tame fun last => ih last

theorem tame_run (most : Nat) : Tame (run most : Loop κ (Option Tally)) :=
  .bind quiet_start.tame fun last => tame_passes last most

/-- Makes `count` passes, whatever comes of each; answers how each of them ended. -/
def passesInTurn : (count : Nat) → Loop κ (List (Outcome Nat))
  | 0 => pure []
  | count + 1 => do
    let ended ← Action.observe pass
    let rest ← passesInTurn count
    pure (ended :: rest)

theorem tame_passesInTurn (count : Nat) :
    Tame (passesInTurn count : Loop κ (List (Outcome Nat))) := by
  induction count with
  | zero => exact .pure _
  | succ count ih => exact .bind (.observe tame_pass) fun _ => .bind ih fun _ => .pure _

/-- Makes a reactor and lets it do `m`; answers how `m` ended and what it left of the reactor. -/
def employ (listener : Descriptor) (multiplexor : Multiplexor) (settings : Settings)
    (m : Loop κ α) : Sys κ (Outcome α × Reactor) := do
  let reactor ← create listener multiplexor settings
  fun w =>
    let (ended, n) := m { reactor, world := w }
    (.ok (ended, n.reactor), n.world)

theorem agrees_employ (listener : Descriptor) (multiplexor : Multiplexor) (settings : Settings)
    {m : Loop κ α} (hm : Tame m) :
    Agrees (World.Muffles level) (employ listener multiplexor settings m) := by
  refine (tame_create listener multiplexor settings).agrees.bind fun r w v h => ?_
  obtain ⟨ho, hreactor, hworld⟩ := hm.agrees ⟨r, w⟩ ⟨r, v⟩ ⟨rfl, h⟩
  exact ⟨congrArg Outcome.ok (Prod.ext ho hreactor), hworld⟩

end Reactor

/-! ## Two levels -/

/-- The world with a level set, and nothing logged yet. -/
def World.logging (level : Log.Level) (w : World κ) : World κ :=
  { w with level, remarks := [] }

/-- Two endings that are the same in all but the lines: of those of the louder, the quieter has the
ones up to `level`. -/
structure SameButForLines (level : Log.Level) (quiet loud : Outcome α × World κ) : Prop where
  result : quiet.1 = loud.1
  calls : quiet.2.trace = loud.2.trace
  lines : quiet.2.remarks = loud.2.remarks.filter (·.line.upTo level)
  silent : level = .off → quiet.2.remarks = []

omit [Kernel κ] in
theorem sameButForLines_of_agrees {m : Sys κ α} {quiet loud : Log.Level}
    (hm : Agrees (World.Muffles quiet) m) (h : quiet.rank ≤ loud.rank) (w : World κ) :
    SameButForLines quiet (m (w.logging quiet)) (m (w.logging loud)) := by
  obtain ⟨ho, hworlds⟩ := hm (w.logging quiet) (w.logging loud) ⟨rfl, h, nofun⟩
  refine ⟨ho, by rw [hworlds.same]; rfl, by rw [hworlds.same]; rfl, fun hoff => ?_⟩
  subst hoff
  rw [hworlds.same]
  -- No level but `off` is as low as `off`, and no line is written at it.
  refine List.filter_eq_nil_iff.mpr fun r hr hupTo => hworlds.shown r hr ?_
  obtain ⟨own, hown, hrank⟩ := (Option.any_eq_true _ _).mp hupTo
  rw [hown]
  cases own <;> first | rfl | exact absurd hrank (by decide)

/-- **Logging does not interfere.** Whatever the settings, the kernel and the number of passes, a
reactor at a level ends as it does at any lower one, with the same counters, registry and pause, and
makes the same calls with the same replies, both pass by pass and in a run. The lines at the lower
level are those of the higher whose own level is at most the lower one, in their order, and at `off`
there are none. -/
theorem lines_of_levels {quiet loud : Log.Level} (h : quiet.rank ≤ loud.rank)
    (listener : Descriptor) (multiplexor : Multiplexor) (settings : Settings) (w : World κ) :
    (∀ count,
      let life := Reactor.employ listener multiplexor settings (Reactor.passesInTurn count)
      SameButForLines quiet (life (w.logging quiet)) (life (w.logging loud))) ∧
    ∀ most,
      let life := Reactor.employ listener multiplexor settings (Reactor.run most)
      SameButForLines quiet (life (w.logging quiet)) (life (w.logging loud)) :=
  ⟨fun count => sameButForLines_of_agrees
      (Reactor.agrees_employ _ _ _ (Reactor.tame_passesInTurn count)) h w,
    fun most => sameButForLines_of_agrees (Reactor.agrees_employ _ _ _ (Reactor.tame_run most)) h w⟩

namespace Chatty

/-- A client is accepted, the next accept fails for want of descriptors, and the connection of the
client is reset after the greeting. -/
def world : World Script :=
  { kernel :=
      { sockets := [{ number := 3, queue :=
          [.connection none ⟨2, 16, ⟨.unspecified, 50000⟩⟩ false { giving := [.failed 104] },
            .failed 24] }]
        waits := [(.main,
          [{ ready := [(3, { readable := true })] },
            { ready := [(3, { readable := true })] },
            { ready := [(4, { writable := true })] },
            { ready := [(4, { readable := true })] }])] } }

def life (level : Log.Level) : Outcome (Outcome (Option Tally) × Reactor) × World Script :=
  Reactor.employ 3 .poll {} (Reactor.run 6) (world.logging level)

theorem lines_of_chatty :
    Log.Level.warn.rank ≤ Log.Level.trace.rank ∧ (life .warn).1 = (life .trace).1 ∧
      (life .warn).2.trace = (life .trace).2.trace ∧
      (life .warn).2.remarks = (life .trace).2.remarks.filter (·.line.upTo .warn) ∧
      (life .warn).2.remarks.map (·.line.level) = [some .error, some .warn] ∧
      (life .trace).2.remarks.length = 14 := by
  have hle : Log.Level.warn.rank ≤ Log.Level.trace.rank := by decide
  have hsame : SameButForLines .warn (life .warn) (life .trace) :=
    (lines_of_levels hle 3 .poll {} world).2 6
  exact ⟨hle, hsame.result, hsame.calls, hsame.lines, by decide +kernel, by decide +kernel⟩

end Chatty

end SpanEcho

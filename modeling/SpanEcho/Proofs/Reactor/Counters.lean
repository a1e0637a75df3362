import SpanEcho.Proofs.Reactor.Counting

/-!
# The counters

Every counter can be read off the trace. The one exception is the counter of accepted connections:
it is as large as the counter of closed connections and the number of live ones together. Where the
kernel does the waiting a wait lists the listener once at most, so that a wait was counted for every
connection.
-/

namespace SpanEcho

open SpanEcho.Action Loop Reactor

/-! ## Throughout a run -/

/-- The counters are what the past says, and the accepted connections those closed and
those live. -/
def Scene.Counted (v : Scene) : Prop :=
  v.reactor.tally =
    { tallyOf v.past with accepts := (tallyOf v.past).closes + v.reactor.registry.live }

namespace Node

variable {κ : Type} {n n' : Node κ} {d : Tally} {others : List Descriptor}
  {theirs : Descriptor → Traffic}

theorem Counts.counted (hc : Counts d n n') (h : Scene.Counted (Viewed.view n)) :
    Scene.Counted (Viewed.view n') := by
  have htally : n.reactor.tally = { tallyOf n.world.past with
    accepts := (tallyOf n.world.past).closes + n.reactor.registry.live } := h
  have hlive := hc.live
  show n'.reactor.tally = { tallyOf n'.world.past with
    accepts := (tallyOf n'.world.past).closes + n'.reactor.registry.live }
  rw [hc.tally, hc.past, htally]
  ext <;> simp
  omega

variable [Kernel κ]

omit [Kernel κ] in
/-- A step that keeps a reactor sound and counts what its events count for keeps it counted. -/
theorem counted_of_counts {α : Type} {m : Loop κ α} (hm : Keeps (Scene.Sound others theirs) m)
    (hc : ∀ n : Node κ, Scene.Sound others theirs (Viewed.view n) → Lawful (m n).2.world.past →
      ∃ c, Counts c n (m n).2) : Keeps (fun v => v.Sound others theirs ∧ v.Counted) m where
  grows := hm.grows
  ensures := fun n h hlaw =>
    have ⟨_, hcounts⟩ := hc n h.1 hlaw
    ⟨hm.ensures n h.1 hlaw, hcounts.counted h.2⟩

theorem invariant_counted : Invariant κ fun _ v => v.Sound others theirs ∧ v.Counted where
  start := counted_of_counts sound_start fun n _ _ => ⟨{}, (idling_start.idle n).counts⟩
  wait := counted_of_counts (Triple.bind sound_prepare sound_await) fun n _ _ => ⟨_, counts_wait n⟩
  dispatch := fun ready _ => counted_of_counts (sound_dispatch ready) fun _ hsound hlaw =>
    have ⟨c, hc, _⟩ := counts_dispatch hsound ready hlaw
    ⟨c, hc⟩
  report := fun last => counted_of_counts (sound_report last) fun n _ _ =>
    ⟨{}, ((idling_report last).idle n).counts⟩
  finish := counted_of_counts sound_finish fun n _ _ => ⟨{}, (idling_finish.idle n).counts⟩

/-! ### Waits and connections -/

omit [Kernel κ] in
theorem countP_le_one_of_nodup {due : List Readiness} (h : (due.map (·.fd)).Nodup)
    (fd : Descriptor) : due.countP (·.fd = fd) ≤ 1 := by
  have hcount := List.nodup_iff_count_le_one.mp h fd
  rwa [List.count, List.countP_map] at hcount

/-- The reactor is attended, and it has counted a wait for every connection and for the listener if
that is due. -/
def Paced (others : List Descriptor) (theirs : Descriptor → Traffic) (due : List Readiness)
    (v : Scene) : Prop :=
  Attended others theirs due v ∧
    v.reactor.tally.accepts + due.countP (·.fd = v.reactor.listener) ≤ v.reactor.tally.loops

omit [Kernel κ] in
theorem paced_idle {α : Type} {m : Loop κ α} (hm : Idling m)
    (h : Keeps (Attended others theirs []) m) : Keeps (Paced others theirs []) m where
  grows := h.grows
  ensures := fun n hn hlaw => by
    refine ⟨h.ensures n hn.1 hlaw, ?_⟩
    have htally : (m n).2.reactor.tally = n.reactor.tally := (hm.idle n).tally
    show (m n).2.reactor.tally.accepts + 0 ≤ (m n).2.reactor.tally.loops
    rw [htally]
    exact hn.2

theorem paced_wait : Triple (Paced others theirs []) (prepare >>= await : Loop κ (List Readiness))
    fun o v => Paced others theirs (Readiness.afterWait o) v := by
  have hattended :
      Triple (Attended others theirs []) (prepare >>= await : Loop κ (List Readiness)) _ :=
    invariant_attended.wait
  refine ⟨hattended.grows, fun n hn hlaw => ⟨hattended.ensures n hn.1 hlaw, ?_⟩⟩
  have hnodup := (hattended.ensures n hn.1 hlaw).2.nodup
  have htally := (counts_wait n).tally
  have hpaced : n.reactor.tally.accepts + 0 ≤ n.reactor.tally.loops := hn.2
  show ((prepare >>= await) n).2.reactor.tally.accepts +
      (Readiness.afterWait ((prepare >>= await) n).1).countP
        (fun x : Readiness => x.fd = ((prepare >>= await) n).2.reactor.listener) ≤
    ((prepare >>= await) n).2.reactor.tally.loops
  have hlisted := countP_le_one_of_nodup hnodup ((prepare >>= await) n).2.reactor.listener
  rw [htally, Tally.accepts_add, Tally.loops_add]
  cases ho : ((prepare >>= await) n).1 with
  | ok ready =>
    rw [ho] at hlisted
    show n.reactor.tally.accepts + 0 + _ ≤ n.reactor.tally.loops + 1
    omega
  | failed why => exact hpaced
  | defect what => exact hpaced

theorem paced_dispatch (ready : Readiness) (due : List Readiness) :
    Triple (Paced others theirs (ready :: due)) (dispatch ready : Loop κ Unit)
      fun o v => Paced others theirs (if o.isOk then due else []) v := by
  have hattended :
      Triple (Attended others theirs (ready :: due)) (dispatch ready : Loop κ Unit) _ :=
    invariant_attended.dispatch ready due
  refine ⟨hattended.grows, fun n hn hlaw => ⟨hattended.ensures n hn.1 hlaw, ?_⟩⟩
  obtain ⟨c, hc, hloops, haccepts⟩ := counts_dispatch hn.1.1.1 ready hlaw
  have hpaced : n.reactor.tally.accepts + (ready :: due).countP (·.fd = n.reactor.listener) ≤
    n.reactor.tally.loops := hn.2
  have hlistener : (dispatch ready n).2.reactor.listener = n.reactor.listener :=
    (((tame_dispatch ready).steady n.reactor).ensures n (.refl _) hlaw).listener
  have hrest : (if (dispatch ready n).1.isOk then due else []).countP (·.fd = n.reactor.listener) ≤
      due.countP (·.fd = n.reactor.listener) := by
    split
    · exact Nat.le_refl _
    · exact Nat.zero_le _
  show (dispatch ready n).2.reactor.tally.accepts +
      (if (dispatch ready n).1.isOk then due else []).countP
        (fun x : Readiness => x.fd = (dispatch ready n).2.reactor.listener) ≤
    (dispatch ready n).2.reactor.tally.loops
  rw [hc.tally, Tally.accepts_add, Tally.loops_add, hloops, hlistener]
  rw [List.countP_cons] at hpaced
  simp only [decide_eq_true_eq] at hpaced
  omega

theorem invariant_paced : Invariant κ (Paced others theirs) where
  start := paced_idle idling_start invariant_attended.start
  wait := paced_wait
  dispatch := paced_dispatch
  report := fun last => paced_idle (idling_report last) (invariant_attended.report last)
  finish := paced_idle idling_finish invariant_attended.finish

end Node

/-! ### From the start -/

namespace Sys

variable {κ α β : Type} [Kernel κ]

/-- None of the calls that the action makes on the way to a value is counted. -/
def Discreet (m : Sys κ α) : Prop :=
  ∀ w a w', m w = (.ok a, w') → tallyOf w'.past = tallyOf w.past

omit [Kernel κ] in
theorem discreet_pure (a : α) : Discreet (pure a : Sys κ α) := by
  intro w b w' h
  cases h
  rfl

omit [Kernel κ] in
theorem discreet_of_not_ok {m : Sys κ α} (h : ∀ w, (m w).1.isOk = false) : Discreet m := by
  intro w a w' hm
  have hnot := h w
  rw [hm] at hnot
  cases hnot

omit [Kernel κ] in
theorem discreet_bind {m : Sys κ α} {f : α → Sys κ β} (hm : Discreet m) (hf : ∀ a, Discreet (f a)) :
    Discreet (m >>= f) := by
  intro w b w' h
  obtain ⟨a, w₁, hfirst, hrest⟩ := bind_eq_ok.mp h
  rw [hf a w₁ b w' hrest, hm w a w₁ hfirst]

/-- A call that counts only when it fails. -/
theorem discreet_ask {c : Call} {read : c.Reply → Answer α}
    (h : ∀ thread reply arrivals a, read reply = .ok a →
      (⟨thread, c, reply, arrivals⟩ : Event).tally = {}) : Discreet (Sys.ask c read : Sys κ α) := by
  intro w a w' hask
  rw [ask_apply] at hask
  obtain ⟨hending, rfl⟩ := Prod.mk.inj hask
  have huncounted : (w.event c).tally = {} := h _ (w.call c).1 _ a (ending_ok.mp hending)
  rw [World.call_past, tallyOf, huncounted, Tally.add_empty]

end Sys

namespace Socket

open Sys (Discreet discreet_pure discreet_of_not_ok discreet_bind discreet_ask)

variable {κ α : Type} [Kernel κ]

theorem discreet_closingOnFailure (fd : Descriptor) {m : Sys κ α} (hm : Discreet m) :
    Discreet (closingOnFailure [fd] m) :=
  fun w a w' h => hm w a w' (closingOnFailure_ok h)

theorem discreet_setCloseOnExec (fd : Descriptor) : Discreet (setCloseOnExec fd : Sys κ Unit) := by
  refine discreet_bind (discreet_ask ?_) fun flags => discreet_ask ?_
  · rintro _ _ _ _ rfl
    rfl
  · rintro _ _ _ _ rfl
    rfl

theorem discreet_setNonBlocking (fd : Descriptor) : Discreet (setNonBlocking fd : Sys κ Unit) := by
  refine discreet_bind (discreet_ask ?_) fun flags => ?_
  · rintro _ _ _ _ rfl
    rfl
  split
  · exact discreet_pure ()
  · refine discreet_ask ?_
    rintro _ _ _ _ rfl
    rfl

theorem discreet_listenOn (port : Nat) (backlog : Int) (reusePort : Bool) :
    Discreet (listenOn port backlog reusePort : Sys κ Descriptor) := by
  have hoption : ∀ fd option, Discreet (setOption fd option : Sys κ Unit) := fun fd option =>
    discreet_ask fun _ _ _ _ _ => rfl
  refine discreet_bind (discreet_ask fun _ _ _ _ _ => rfl) fun number => ?_
  refine discreet_closingOnFailure _ (discreet_bind (discreet_setCloseOnExec _) fun _ => ?_)
  refine discreet_bind (hoption _ _) fun _ => discreet_bind ?_ fun _ => ?_
  · cases reusePort with
    | true => exact hoption _ _
    | false => exact discreet_pure ()
  refine discreet_bind (discreet_ask fun _ _ _ _ _ => rfl) fun _ => ?_
  exact discreet_bind (discreet_ask fun _ _ _ _ _ => rfl) fun _ => discreet_pure _

theorem discreet_localAddress (fd : Descriptor) : Discreet (localAddress fd : Sys κ Endpoint) := by
  refine discreet_bind (discreet_ask fun _ _ _ _ _ => rfl) fun name => ?_
  split
  · exact discreet_pure _
  · exact discreet_of_not_ok fun _ => rfl

end Socket

open Sys (Discreet discreet_pure discreet_of_not_ok discreet_bind)

variable {κ : Type} [Kernel κ] {m : Multiplexor} {s : Settings} {n₀ n : Node κ}
  {due : List Readiness}

theorem Reactor.discreet_create (listener : Descriptor) (m : Multiplexor) (s : Settings) :
    Discreet (create listener m s : Sys κ Reactor) := by
  have hfailIf : ∀ failure, Discreet (Action.failIf failure : Sys κ Unit) := fun failure => by
    cases failure with
    | none => exact discreet_pure ()
    | some why => exact discreet_of_not_ok fun _ => rfl
  refine Socket.discreet_closingOnFailure _ (discreet_bind (hfailIf _) fun _ => ?_)
  refine discreet_bind (Socket.discreet_setNonBlocking _) fun _ =>
    discreet_bind (hfailIf _) fun _ => ?_
  refine discreet_bind ?_ fun _ => discreet_pure _
  unfold Memory.reserve
  split
  · exact discreet_pure ()
  · exact discreet_of_not_ok fun _ => rfl

theorem Serving.discreet_launch (s : Settings) : Discreet (launch s : Sys κ Reactor) := by
  refine discreet_bind (Socket.discreet_listenOn _ _ _) fun listener => ?_
  refine discreet_bind (Socket.discreet_closingOnFailure _ ?_) fun port => ?_
  · exact discreet_bind (Socket.discreet_localAddress _) fun _ => discreet_pure _
  refine discreet_bind (fun w _ w' h => ?_) fun _ => Reactor.discreet_create _ _ _
  obtain ⟨-, rfl⟩ := Prod.mk.inj h
  exact congrArg tallyOf (World.write_past _ w)

/-- Nothing that comes before a reactor is counted. -/
theorem Starting.tallyOf_eq (h : Starting m s n₀) : tallyOf n₀.world.past = {} := by
  cases h with
  | created past opened made =>
    rw [Reactor.discreet_create _ m s _ _ _ made, Socket.discreet_listenOn _ _ _ _ _ _ opened, past]
    rfl
  | launched past method made =>
    rw [Serving.discreet_launch s _ _ _ made, past]
    rfl

/-- A started reactor is sound and its counters are what the past says, in every state it comes
to. -/
theorem Starting.counted (hstart : Starting m s n₀) (hreach : n₀.Reaches n due)
    (hlaw : Lawful n.world.past) :
    Scene.Sound [] (fun _ => {}) (Viewed.view n) ∧ Scene.Counted (Viewed.view n) := by
  refine Node.invariant_counted.holds hreach (fun hlaw => ?_) hlaw
  obtain ⟨⟨listener, hfresh⟩, -, hsound⟩ := hstart.sound hlaw
  refine ⟨hsound, ?_⟩
  show n₀.reactor.tally = { tallyOf n₀.world.past with
    accepts := (tallyOf n₀.world.past).closes + n₀.reactor.registry.live }
  rw [hstart.tallyOf_eq, hfresh]
  rfl

/-- A reactor that waits with a method of the kernel has counted a wait for every connection. -/
theorem Starting.accepts_le {method : WaitMethod} (hstart : Starting method.multiplexor s n₀)
    (hreach : n₀.Reaches n due) (hlaw : Lawful n.world.past) :
    n.reactor.tally.accepts ≤ n.reactor.tally.loops := by
  have hpaced : Node.Paced [] (fun _ => {}) due (Viewed.view n) := by
    refine Node.invariant_paced.holds hreach (fun hlaw => ?_) hlaw
    refine ⟨(hstart.attended .here hlaw).2, ?_⟩
    obtain ⟨listener, hfresh⟩ := (hstart.sound hlaw).1
    show n₀.reactor.tally.accepts + 0 ≤ n₀.reactor.tally.loops
    rw [hfresh]
    exact Nat.le_refl 0
  exact (Nat.le_add_right _ _).trans hpaced.2

/-- **The counters equal the trace.** In every state a started reactor comes to, each counter can be
read off the calls that were made and their replies. The accepted connections are those closed and
those live; where the kernel does the waiting, no more were accepted than waits were counted. -/
theorem counters_of_trace (hstart : Starting m s n₀) (hreach : n₀.Reaches n due)
    (hlaw : Lawful n.world.past) :
    n.reactor.stats.accepts = n.reactor.stats.closes + n.reactor.registry.toList.length ∧
      n.reactor.stats.live = n.reactor.registry.toList.length ∧
      n.reactor.stats.loops = n.world.trace.countP (·.wakes) ∧
      n.reactor.stats.receives = n.world.trace.countP (0 < ·.inward) ∧
      n.reactor.stats.bytesIn = (n.world.trace.map (·.inward)).sum ∧
      n.reactor.stats.sends = n.world.trace.countP (0 < ·.outward) ∧
      n.reactor.stats.bytesOut = (n.world.trace.map (·.outward)).sum ∧
      n.reactor.stats.closes = n.world.trace.countP (·.hangsUp) + n.world.trace.countP (·.breaks) ∧
      ∀ method : WaitMethod, m = method.multiplexor →
        n.reactor.stats.accepts ≤ n.reactor.stats.loops := by
  obtain ⟨⟨traffic, -, haccounts, -⟩, hcounted⟩ := hstart.counted hreach hlaw
  have hlive : n.reactor.registry.live = n.reactor.registry.toList.length := haccounts.registry.live
  have htally : n.reactor.tally = { tallyOf n.world.past with
    accepts := (tallyOf n.world.past).closes + n.reactor.registry.live } := hcounted
  rw [tallyOf_eq, hlive] at htally
  have hpaced : ∀ method : WaitMethod, m = method.multiplexor →
      n.reactor.tally.accepts ≤ n.reactor.tally.loops := by
    rintro method rfl
    exact hstart.accepts_le hreach hlaw
  simp only [Reactor.stats, World.trace, List.countP_reverse, List.map_reverse, List.sum_reverse]
  refine ⟨?_, hlive, ?_, ?_, ?_, ?_, ?_, ?_, hpaced⟩ <;> rw [htally]

/-- The reactor of two connections served in turns, after its last pass. -/
theorem Visits.counters_of_node :
    Lawful node.world.past ∧ node.reactor.registry.toList.length = 2 ∧
      node.reactor.stats.accepts = node.reactor.stats.closes + 2 ∧
      node.reactor.stats.loops = node.world.trace.countP (·.wakes) ∧
      node.reactor.stats.closes =
        node.world.trace.countP (·.hangsUp) + node.world.trace.countP (·.breaks) ∧
      node.reactor.stats.accepts ≤ node.reactor.stats.loops := by
  have hlaw : Lawful node.world.past := by decide +kernel
  have hreach : launched.Reaches node [] := by
    rw [node]
    exact Node.Reaches.here.run 6
  have hlive : node.reactor.registry.toList.length = 2 := by decide +kernel
  obtain ⟨haccepts, -, hloops, -, -, -, -, hcloses, hpaced⟩ :=
    counters_of_trace starting hreach hlaw
  exact ⟨hlaw, hlive, hlive ▸ haccepts, hloops, hcloses, hpaced .select rfl⟩

end SpanEcho

import SpanEcho.Proofs.Reactor.Custody
import SpanEcho.Proofs.Serving

/-!
# Nothing blocks but a wait

From the first listener to the end of the last thread, every descriptor is in custody: a listener is
sealed until a reactor takes it over, and what reactors hold is ready. So nobody accepts on,
receives from, sends to or waits for a descriptor that could block or would outlive the program,
whatever fails on the way; and a descriptor whose flags could not be set is closed at once.
-/

namespace SpanEcho

open SpanEcho.Action Scene

variable {κ α : Type} [Kernel κ] {born : List Event → Flags} {others : List (Descriptor × Standing)}
  {past : List Event}

namespace Reactor

/-- A reactor is made of a sealed listener, which becomes ready, or the listener is closed. -/
theorem guards_create (listener : Descriptor) (m : Multiplexor) (s : Settings) :
    Triple (Custody born ((listener, .sealed) :: others) none) (create listener m s : Sys κ Reactor)
      (Outcome.Ends (fun r past => Guards born others none ⟨r, past⟩) (Custody born others none))
      (Trusted born) := by
  refine Socket.triple_closingOnFailure ?_ (Socket.custody_closeDoomed listener)
  refine Triple.bind (Q := Outcome.Ends (fun _ => Custody born ((listener, .sealed) :: others) none)
      (Custody born others (some listener)))
    (Triple.failIf (fun _ _ h => h) fun _ _ _ h => h.condemn) fun _ => ?_
  refine Triple.bind (Socket.custody_setNonBlocking listener) fun _ => ?_
  refine Triple.bind (Q := Outcome.Ends (fun _ => Custody born ((listener, .ready) :: others) none)
      (Custody born others (some listener)))
    (Triple.failIf (fun _ _ h => h) fun _ _ _ h => h.condemn) fun _ => ?_
  refine Triple.bind (Q := Outcome.Ends (fun _ => Custody born ((listener, .ready) :: others) none)
      (Custody born others (some listener)))
    (Triple.reserve (fun _ _ h => h) fun _ _ _ h => h.condemn) fun _ => ?_
  refine Triple.pure fun past _ h => ⟨?_, Registry.sound_empty s.maxConnections, nofun⟩
  exact h.perm (List.perm_append_singleton (listener, .ready) others).symm

theorem guards_closeAll (r : Reactor) :
    Triple (fun past => Guards born others none ⟨r, past⟩) (r.closeAll : Sys κ Unit)
      (fun o past => o = .ok () ∧ Custody born others none past) (Trusted born) :=
  (Socket.custody_closeAll r.held .ready).strengthen fun _ _ h =>
    h.custody.perm List.perm_append_comm

end Reactor

/-! ## Threads -/

namespace Stage

/-- What a thread has in custody. -/
def custody : Stage → List (Descriptor × Standing)
  | .created listener => [(listener, .sealed)]
  | .looping r _ | .waiting r _ _ => r.custody
  | .ended _ => []

/-- Connections are filed under their sockets, and a plan is for what its reactor watches. -/
def Filed : Stage → Prop
  | .created _ | .ended _ => True
  | .looping r _ => r.Filed
  | .waiting r _ plan => r.Filed ∧ plan.entries = r.registrations

/-- A thread has its descriptors in custody, in a world where others have `others`. -/
structure Guards (born : List Event → Flags) (others : List (Descriptor × Standing)) (stage : Stage)
    (past : List Event) : Prop where
  custody : Custody born (others ++ stage.custody) none past
  filed : stage.Filed

/-- A thread has come to a stage in which it has its descriptors in custody. -/
def Secures (born : List Event → Flags) (others : List (Descriptor × Standing)) (o : Outcome Stage)
    (past : List Event) : Prop :=
  ∃ stage, o = .ok stage ∧ stage.Guards born others past

theorem guards_ended (outcome : Outcome Tally) (h : Custody born others none past) :
    Guards born others (.ended outcome) past :=
  ⟨by rwa [custody, List.append_nil], trivial⟩

end Stage

open Stage (Secures)

namespace Shard

omit [Kernel κ] in
theorem secures_conclude (index : Nat) (outcome : Outcome Tally) :
    Triple (Custody born others none) (conclude index outcome : Sys κ Stage) (Secures born others)
      (Trusted born) :=
  (silent_announce index outcome).bind
    (Triple.pure fun _ _ h => ⟨_, rfl, Stage.guards_ended outcome h⟩)

theorem secures_close (index : Nat) (r : Reactor) (outcome : Outcome Tally) :
    Triple (fun past => Scene.Guards born others none ⟨r, past⟩)
      (close index r outcome : Sys κ Stage) (Secures born others) (Trusted born) :=
  Triple.done_bind (Reactor.guards_closeAll r) (secures_conclude index outcome)

/-- Whatever a thread does in a turn, it uses nothing but what is ready. -/
theorem secures_turn (settings : Settings) (index : Nat) (stage : Stage) :
    Triple (stage.Guards born others) (turn settings index stage : Sys κ Stage)
      (Secures born others) (Trusted born) := by
  have hclose : ∀ (r : Reactor) (outcome : Outcome Tally),
      Triple (fun past => Scene.Guards born others none ⟨r, past⟩)
        (close index r outcome : Sys κ Stage) (Secures born others) (Trusted born) :=
    secures_close index
  have hlooping : ∀ (last : Duration) (r : Reactor),
      Triple (fun past => Scene.Guards born others none ⟨r, past⟩)
        (pure (.looping r last) : Sys κ Stage) (Secures born others) (Trusted born) := fun last r =>
    Triple.pure fun _ _ h => ⟨_, rfl, h.custody, h.filed⟩
  cases stage with
  | created listener =>
    have hcreate : Triple (Stage.Guards born others (.created listener))
        (Reactor.create listener settings.method.multiplexor settings : Sys κ Reactor)
        (Outcome.Ends (fun r past => Scene.Guards born others none ⟨r, past⟩)
          (Custody born others none)) (Trusted born) :=
      (Reactor.guards_create listener _ settings).strengthen fun _ _ h =>
        h.custody.perm (List.perm_append_singleton (listener, Standing.sealed) others)
    refine Triple.observe_bind hcreate fun o => ?_
    cases o with
    | ok r => exact triple_carryOn index r hclose Reactor.guards_start hlooping
    | failed e => exact secures_conclude index (.failed e)
    | defect d => exact secures_conclude index (.defect d)
  | looping r last =>
    refine Triple.strengthen (P := fun past => Scene.Guards born others none ⟨r, past⟩)
      (Sys.triple_stopping_bind fun stop => ?_) fun _ _ h => ⟨h.custody, h.filed⟩
    split
    · exact triple_carryOn index r hclose Reactor.guards_finish fun tally r => hclose r (.ok tally)
    · refine triple_carryOn index r hclose Reactor.guards_prepare fun plan r => ?_
      exact Triple.pure fun _ _ h => ⟨.waiting r last plan, rfl, h.1.custody, h.1.filed, h.2⟩
  | waiting r last plan =>
    refine (triple_carryOn index r hclose (Triple.bind (Reactor.guards_complete plan) fun _ =>
      Reactor.guards_report last) hlooping).strengthen fun past _ h => ?_
    exact ⟨⟨h.custody, h.filed.1⟩, h.filed.2⟩
  | ended outcome => exact Triple.pure fun _ _ h => ⟨_, rfl, h⟩

end Shard

/-! ## Fleets -/

namespace Fleet

/-- All threads have their descriptors in custody, in a world where others have `others`. -/
structure Guards (born : List Event → Flags) (others : List (Descriptor × Standing))
    (shards : List Shard) (past : List Event) : Prop where
  custody : Custody born (others ++ shards.flatMap (·.stage.custody)) none past
  filed : ∀ s ∈ shards, s.stage.Filed

/-- What threads are still to take over is sealed. -/
def Secure (born : List Event → Flags) (f : Fleet) (past : List Event) : Prop :=
  Guards born (f.waitingListeners.map (·, .sealed)) f.shards past

/-- A fleet has come to where its descriptors are in custody. -/
def Secures (born : List Event → Flags) (o : Outcome Fleet) (past : List Event) : Prop :=
  ∃ f, o = .ok f ∧ f.Secure born past

variable {s : Shard} {rest shards : List Shard}

/-- For one thread, the rest are others. -/
theorem guards_cons : Guards born others (s :: rest) past ↔
    s.stage.Guards born (others ++ rest.flatMap (·.stage.custody)) past ∧
      ∀ x ∈ rest, x.stage.Filed := by
  have hperm : (others ++ (s :: rest).flatMap (·.stage.custody)).Perm
      (others ++ rest.flatMap (·.stage.custody) ++ s.stage.custody) := by
    rw [List.flatMap_cons, List.append_assoc]
    exact List.perm_append_comm.append_left others
  constructor
  · intro h
    obtain ⟨hs, hrest⟩ := List.forall_mem_cons.mp h.filed
    exact ⟨⟨h.custody.perm hperm, hs⟩, hrest⟩
  · intro h
    exact ⟨h.1.custody.perm hperm.symm, List.forall_mem_cons.mpr ⟨h.1.filed, h.2⟩⟩

/-- For the rest, one thread is another. -/
theorem guards_rest : Guards born others (s :: rest) past ↔
    Guards born (others ++ s.stage.custody) rest past ∧ s.stage.Filed := by
  have hassoc : others ++ (s :: rest).flatMap (·.stage.custody) =
      others ++ s.stage.custody ++ rest.flatMap (·.stage.custody) := by
    rw [List.flatMap_cons, List.append_assoc]
  constructor
  · intro h
    obtain ⟨hs, hrest⟩ := List.forall_mem_cons.mp h.filed
    exact ⟨⟨hassoc ▸ h.custody, hrest⟩, hs⟩
  · intro h
    exact ⟨hassoc ▸ h.1.custody, List.forall_mem_cons.mpr ⟨h.2, h.1.filed⟩⟩

theorem guards_turnOf (settings : Settings) (index : Nat) (shards : List Shard) :
    Triple (Guards born others shards) (turnOf settings index shards : Sys κ (List Shard))
      (fun o past => ∃ shards', o = .ok shards' ∧ Guards born others shards' past)
      (Trusted born) := by
  induction shards generalizing others with
  | nil => exact Triple.pure fun _ _ h => ⟨[], rfl, h⟩
  | cons s rest ih =>
    rw [turnOf]
    split
    · refine Triple.strengthen ?_ fun _ _ h => guards_cons.mp h
      refine (Sys.silent_switchTo _).bind (Triple.answer_bind
        (Triple.frame_answer (Shard.secures_turn settings index s.stage)) fun stage => ?_)
      exact (Sys.silent_switchTo _).bind (Triple.pure fun _ _ h => ⟨_, rfl, guards_cons.mpr h⟩)
    · refine Triple.strengthen ?_ fun _ _ h => guards_rest.mp h
      exact Triple.answer_bind (Triple.frame_answer ih) fun shards =>
        Triple.pure fun _ _ h => ⟨_, rfl, guards_rest.mpr h⟩

/-- A listener that waited becomes that of a thread. -/
theorem Guards.spawned {listener : Descriptor} {waiting : List (Descriptor × Standing)}
    (h : Guards born ((listener, .sealed) :: waiting) shards past) (index : Nat) :
    Guards born waiting (shards ++ [⟨index, .created listener⟩]) past := by
  refine ⟨?_, fun s hs => ?_⟩
  · rw [List.flatMap_append, ← List.append_assoc]
    exact h.custody.perm (List.perm_append_singleton _ _).symm
  · rcases List.mem_append.mp hs with hs | hs
    · exact h.filed s hs
    · rw [List.mem_singleton.mp hs]
      trivial

/-- A listener for which there is no thread is closed. -/
theorem guards_refused (listener : Descriptor) :
    Triple (Guards born ((listener, .sealed) :: others) shards) (Socket.close listener : Sys κ Unit)
      (fun o past => o = .ok () ∧ Guards born others shards past) (Trusted born) :=
  ((Socket.custody_close listener).frame (φ := ∀ s ∈ shards, s.stage.Filed)).weaken
    (fun _ _ h => ⟨h.custody.condemn, h.filed⟩) fun _ _ _ h => ⟨h.1.1, h.1.2, h.2⟩

theorem secures_spawnNext (f : Fleet) :
    Triple (f.Secure born) (f.spawnNext : Sys κ Fleet) (Secures born) (Trusted born) := by
  unfold spawnNext
  split
  · rename_i listener waiting hspawn hwaiting
    refine Triple.strengthen
      (P := Guards born ((listener, .sealed) :: waiting.map (·, .sealed)) f.shards)
      ?_ fun past _ h => ?_
    · have hrefused : ∀ errno,
          Triple (Guards born ((listener, .sealed) :: waiting.map (·, .sealed)) f.shards)
            (do
              Socket.close listener
              Sys.askStop
              pure { f with
                waitingListeners := waiting, spawnFailure := some (.system "spawn" errno) } :
                Sys κ Fleet) (Secures born) (Trusted born) := fun errno =>
        Triple.done_bind (guards_refused listener)
          (Sys.silent_askStop.bind (Triple.pure fun _ _ h => ⟨_, rfl, h⟩))
      refine Triple.bind (Q := Outcome.Ends
          (fun _ => Guards born ((listener, .sealed) :: waiting.map (·, .sealed)) f.shards)
          fun _ => False)
        (Sys.triple_call fun _ _ _ _ h _ => ⟨h.custody.plain ⟨.inl trivial, rfl, nofun⟩, h.filed⟩)
        (fun reply => ?_) (fun _ _ h => h.elim) fun _ _ h => h.elim
      cases reply with
      | ok _ => exact Triple.pure fun _ _ h => ⟨_, rfl, h.spawned f.shards.length⟩
      | failed errno => exact hrefused errno
      | notOpen => exact hrefused .badDescriptor
    · rw [Secure, hwaiting] at h
      exact h
  · exact Triple.pure fun _ _ h => ⟨f, rfl, h⟩

theorem secures_step (t : Turn) (f : Fleet) :
    Triple (f.Secure born) (f.step t : Sys κ Fleet) (Secures born) (Trusted born) := by
  cases t with
  | main => exact secures_spawnNext f
  | shard index =>
    exact Triple.answer_bind (guards_turnOf f.settings index f.shards) fun shards =>
      Triple.pure fun _ _ h => ⟨_, rfl, h⟩

/-- Whatever the schedule, all descriptors stay in custody. -/
theorem secures_follow (schedule : List Turn) (f : Fleet) :
    Triple (f.Secure born) (follow schedule f : Sys κ Fleet) (Secures born) (Trusted born) := by
  induction schedule generalizing f with
  | nil => exact Triple.pure fun _ _ h => ⟨f, rfl, h⟩
  | cons t rest ih =>
    exact Triple.answer_bind (secures_step t f) ih

/-- Whatever was opened is in custody. -/
def Settled (born : List Event → Flags) (_ : Outcome (Option Tally)) (past : List Event) : Prop :=
  ∃ held, Custody born held none past

theorem settled_conclude (f : Fleet) :
    Triple (f.Secure born) (f.conclude : Sys κ (Option Tally)) (Settled born) (Trusted born) := by
  unfold conclude
  split
  · exact Triple.pure fun _ _ h => ⟨_, h.custody⟩
  · split
    · exact Triple.done_bind ((Socket.custody_closeAll f.waitingListeners .sealed).strengthen
        fun _ _ h => h.custody) (Triple.fail fun _ _ h => ⟨_, h⟩)
    · split
      · exact Triple.fail fun _ _ h => ⟨_, h.custody⟩
      · exact (Sys.silent_log _ _).bind (Triple.pure fun _ _ h => ⟨_, h.custody⟩)

end Fleet

/-! ## Serving -/

namespace Serving

open Fleet (Settled)

/-- The listeners opened so far are sealed, or all are closed. -/
theorem custody_openMore (port : Nat) (backlog : Int) (opened : List Descriptor) (count : Nat) :
    Triple (Custody born (opened.map (·, .sealed)) none)
      (openMore port backlog opened count : Sys κ (List Descriptor))
      (Outcome.Ends (fun fds => Custody born (fds.map (·, .sealed)) none) (Custody born [] none))
      (Trusted born) := by
  induction count generalizing opened with
  | zero => exact Triple.pure fun _ _ h => h
  | succ count ih =>
    have hclose : Triple (Custody born (opened.map (·, .sealed)) none)
        (Socket.closeAll opened : Sys κ Unit) (fun o past => o = .ok () ∧ Custody born [] none past)
        (Trusted born) := by
      have h : Triple (Custody born (opened.map (·, .sealed) ++ []) none)
        (Socket.closeAll opened : Sys κ Unit) _ (Trusted born) :=
        Socket.custody_closeAll opened .sealed
      rwa [List.append_nil] at h
    refine Triple.bind (Socket.triple_closingOnFailure (Socket.custody_listenOn port backlog true)
      hclose) fun fd => (ih (opened ++ [fd])).strengthen fun past _ h => ?_
    rw [List.map_append]
    exact h.perm (List.perm_append_singleton _ _).symm

theorem custody_portOf (listener : Descriptor) :
    Triple (Custody born [(listener, .sealed)] none) (portOf listener : Sys κ Nat)
      (Outcome.Ends (fun _ => Custody born [(listener, .sealed)] none) (Custody born [] none))
      (Trusted born) :=
  Socket.triple_closingOnFailure
    (Sys.custody_further (.bind (Socket.calling_localAddress _ ⟨.inl trivial, rfl, nofun⟩) fun _ =>
      .pure _))
    (Socket.custody_closeDoomed listener)

theorem guards_launch (s : Settings) :
    Triple (Custody born [] none) (launch s : Sys κ Reactor)
      (Outcome.Ends (fun r past => Scene.Guards born [] none ⟨r, past⟩) (Custody born [] none))
      (Trusted born) := by
  refine Triple.bind (Socket.custody_listenOn _ _ _) fun listener => ?_
  refine Triple.bind (custody_portOf listener) fun port => ?_
  exact (Sys.silent_log _ _).bind (Reactor.guards_create listener _ s)

theorem secure_assemble (s : Settings) :
    Triple (Custody born [] none) (assemble s : Sys κ Fleet)
      (Outcome.Ends (fun f past => f.Secure born past) (Custody born [] none)) (Trusted born) := by
  refine Triple.bind (Socket.custody_listenOn s.port s.backlog true) fun first => ?_
  refine Triple.bind (custody_portOf first) fun port => ?_
  refine Triple.bind (custody_openMore port s.backlog [first] (s.workers - 1)) fun listeners => ?_
  refine (Sys.silent_log _ _).bind (Triple.pure fun past _ h => ⟨?_, List.forall_mem_nil _⟩)
  exact (List.append_nil (listeners.map (·, Standing.sealed))).symm ▸ h

theorem settled_runToEnd (most : Nat) (r : Reactor) :
    Triple (fun past => Scene.Guards born [] none ⟨r, past⟩)
      (runToEnd most r : Sys κ (Option Tally)) (Settled born) (Trusted born) := by
  refine triple_runToEnd most r (Reactor.guards_run most) (fun r o => ?_) fun v h => ⟨_, h.custody⟩
  exact Triple.done_bind (Reactor.guards_closeAll r) (Triple.ofOutcome fun _ _ h => ⟨_, h⟩)

/-- However serving ends, whatever was opened was in custody. -/
theorem settled_serve (most : Nat) (schedule : List Turn) (s : Settings) :
    Triple (Custody born [] none) (serve most schedule s : Sys κ (Option Tally)) (Settled born)
      (Trusted born) := by
  have hnone : ∀ (o : Outcome (Option Tally)) (past : List Event), Custody born [] none past →
      Settled born o past := fun _ _ h => ⟨[], h⟩
  refine Triple.bind (Q := Outcome.Ends (fun _ => Custody born [] none) (Custody born [] none))
    (Triple.failIf (fun _ _ h => h) fun _ _ _ h => h) (fun _ => ?_) (fun _ _ h => hnone _ _ h)
    fun _ _ h => hnone _ _ h
  split
  · exact Triple.bind (guards_launch s) (fun r => settled_runToEnd most r)
      (fun _ _ h => hnone _ _ h) fun _ _ h => hnone _ _ h
  · refine Triple.bind (secure_assemble s) (fun fleet => ?_) (fun _ _ h => hnone _ _ h)
      fun _ _ h => hnone _ _ h
    exact Triple.answer_bind (Fleet.secures_follow schedule fleet) Fleet.settled_conclude

/-- **Nothing but a wait can block, and nothing outlives the program.** Descriptors are created with
whatever flags the kernel likes, but it hands out none that is open, and says of flags what they
are. Then, whatever else it replies, every descriptor that is accepted on, received from, sent to
or waited for does not block and closes on execution, and has all flags that it was created with.
A descriptor whose flags could not be looked at or set was not used before, and the next call
closes it. -/
theorem flags_of_serve {most : Nat} {schedule : List Turn} {s : Settings} {w₀ w : World κ}
    {o : Outcome (Option Tally)} (hstart : w₀.past = [])
    (hserve : serve most schedule s w₀ = (o, w))
    (hfresh : Fresh w.past) (hcandid : Candid born w.past) {before after : List Event} {e : Event}
    (htrace : w.trace = before ++ e :: after) :
    (∀ fd ∈ e.call.uses, Guarded born fd before.reverse) ∧
      ∀ fd, e.Spoils fd → Unused fd before.reverse ∧
        ∃ closing rest, after = closing :: rest ∧ closing.call = .close fd := by
  obtain ⟨held, hcustody⟩ : Settled born o w.past := by
    have hempty : Custody born [] none w₀.past := by
      rw [hstart]
      exact .empty
    have hsettled := (settled_serve most schedule s).ensures w₀ hempty
    rw [hserve] at hsettled
    exact hsettled ⟨hfresh, hcandid⟩
  have hpast : w.past = after.reverse ++ e :: before.reverse := by
    rw [World.past_of_trace htrace, List.reverse_append, List.reverse_cons, List.append_assoc]
    rfl
  rw [hpast] at hcustody
  obtain ⟨huses, hunused, -, -⟩ := hcustody.careful.of_suffix (List.suffix_append _ _)
  refine ⟨huses, fun fd hspoils => ⟨hunused fd hspoils.flagged, ?_⟩⟩
  cases after with
  | nil => exact nomatch hcustody.spoilt fd hspoils
  | cons closing rest =>
    rw [List.reverse_cons, List.append_assoc] at hcustody
    obtain ⟨-, -, hcloses, -⟩ := hcustody.careful.of_suffix (List.suffix_append _ _)
    exact ⟨closing, rest, rfl, hcloses fd hspoils⟩

end Serving

namespace Inherited

/-- Two connections arrive at the first of two reactors. The first cannot be kept from blocking; the
second does not block as it is. -/
def world : World Script :=
  let connection (fd : Nat) (nonBlocking : Bool) :=
    Script.Arriving.connection (some fd) ⟨2, 16, ⟨.unspecified, 40001⟩⟩ nonBlocking {}
  let listener : Script.Waking := { ready := [(3, { readable := true })] }
  { level := .off
    kernel :=
      { queues := [(3, [connection 5 false, connection 6 true])]
        waits := [(.reactor 0, [listener, listener, { ready := [(6, { writable := true })] }])]
        mishaps := [{ operation := "fcntl(F_SETFL)", errno := 5, fd := some 5 }] } }

def schedule : List Turn :=
  .main :: List.replicate 7 (.shard 0)

/-- What descriptors are created with. -/
def creation (past : List Event) : Flags :=
  if (openAfter past).head? = some 6 then { status := 2 ||| Descriptor.nonBlocking }
  else { status := 2 }

@[irreducible] def served : Outcome (Option Tally) × World Script :=
  Serving.serve 0 schedule { workers := 2 } world

/-- The call that was to make the first connection non-blocking. -/
def refused : Event :=
  served.2.trace.get ⟨25, by decide +kernel⟩

/-- The greeting of the second. -/
def greeted : Event :=
  served.2.trace.get ⟨33, by decide +kernel⟩

theorem flags_of_inherited :
    world.past = [] ∧ Fresh served.2.past ∧ Candid creation served.2.past ∧
      (refused.Spoils 5 ∧ Unused 5 (served.2.trace.take 25).reverse ∧
        ∃ closing rest, served.2.trace.drop 26 = closing :: rest ∧ closing.call = .close 5) ∧
      greeted.call.uses = [6] ∧ Guarded creation 6 (served.2.trace.take 33).reverse := by
  have hserve : Serving.serve 0 schedule { workers := 2 } world = (served.1, served.2) := by
    rw [served]
  have hlaw : Lawful served.2.past := by decide +kernel
  have hcandid : Candid creation served.2.past := by decide +kernel
  have hrefused : served.2.trace = served.2.trace.take 25 ++ refused :: served.2.trace.drop 26 := by
    rw [refused, List.get_eq_getElem, ← List.drop_eq_getElem_cons, List.take_append_drop]
  have hgreeted : served.2.trace = served.2.trace.take 33 ++ greeted :: served.2.trace.drop 34 := by
    rw [greeted, List.get_eq_getElem, ← List.drop_eq_getElem_cons, List.take_append_drop]
  have hspoils : refused.Spoils 5 := by decide +kernel
  have huses : greeted.call.uses = [6] := by decide +kernel
  obtain ⟨-, hspoilt⟩ := Serving.flags_of_serve rfl hserve hlaw.fresh hcandid hrefused
  obtain ⟨hready, -⟩ := Serving.flags_of_serve rfl hserve hlaw.fresh hcandid hgreeted
  exact ⟨rfl, hlaw.fresh, hcandid, ⟨hspoils, hspoilt 5 hspoils⟩, huses,
    hready 6 (by rw [huses]; exact List.mem_singleton_self 6)⟩

end Inherited

end SpanEcho

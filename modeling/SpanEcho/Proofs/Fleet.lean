import SpanEcho.Proofs.Reactor.Launch

/-!
# Fleets stay sound

The threads of a fleet live in one world, and each holds descriptors of its own. A turn of one
thread leaves what the others hold as it is, however the turn ends; so whatever the schedule, the
descriptors that are open are those of the threads and the listeners that still wait for theirs.
-/

namespace SpanEcho

open SpanEcho.Action Scene

/-! ## Stages -/

namespace Stage

/-- What a thread holds. -/
def held : Stage → List Descriptor
  | .created listener => [listener]
  | .looping r _ | .waiting r _ _ => r.held
  | .ended _ => []

/-- The reactor of a thread accounts for the traffic, and a plan is for what it watches. -/
def Stands (traffic : Descriptor → Traffic) : Stage → Prop
  | .created _ | .ended _ => True
  | .looping r _ => r.Accounts traffic
  | .waiting r _ plan => r.Accounts traffic ∧ plan.entries = r.registrations

/-- Thread and past agree, in a world where others hold `others` with the traffic `theirs`. -/
def Sound (others : List Descriptor) (theirs : Descriptor → Traffic) (stage : Stage)
    (past : List Event) : Prop :=
  ∃ traffic, Ledger (stage.held ++ others) traffic past ∧ stage.Stands traffic ∧
    ∀ fd ∈ others, traffic fd = theirs fd

/-- A thread has come to a stage in which it is sound. -/
def Arrives (others : List Descriptor) (theirs : Descriptor → Traffic) (o : Outcome Stage)
    (past : List Event) : Prop :=
  ∃ stage, o = .ok stage ∧ stage.Sound others theirs past

variable {stage : Stage} {traffic traffic' : Descriptor → Traffic} {others : List Descriptor}
  {theirs : Descriptor → Traffic} {past : List Event}

theorem Stands.congr (h : stage.Stands traffic) (ht : ∀ fd ∈ stage.held, traffic fd = traffic' fd) :
    stage.Stands traffic' := by
  cases stage with
  | created listener => trivial
  | looping r last => exact Reactor.Accounts.congr h ht
  | waiting r last plan => exact ⟨h.1.congr ht, h.2⟩
  | ended o => trivial

theorem sound_ended (outcome : Outcome Tally) (h : Ledger others theirs past) :
    Sound others theirs (.ended outcome) past :=
  ⟨theirs, h, trivial, fun _ _ => rfl⟩

end Stage

open Stage (Arrives)

/-! ## Turns of a thread -/

namespace Shard

variable {κ α : Type} [Kernel κ] {others : List Descriptor} {theirs : Descriptor → Traffic}

omit [Kernel κ] in
theorem silent_announce (index : Nat) (outcome : Outcome Tally) :
    Silent (announce index outcome : Sys κ Unit) := by
  cases outcome with
  | failed e => exact fun w => ⟨rfl, World.write_past _ w⟩
  | ok tally => exact Silent.pure
  | defect d => exact Silent.pure

omit [Kernel κ] in
theorem triple_conclude (index : Nat) (outcome : Outcome Tally) :
    Triple (Ledger others theirs) (conclude index outcome : Sys κ Stage) (Arrives others theirs) :=
  (silent_announce index outcome).bind
    (Triple.pure fun _ _ h => ⟨_, rfl, Stage.sound_ended outcome h⟩)

theorem triple_closeAll (r : Reactor) :
    Triple (fun past => Scene.Sound others theirs ⟨r, past⟩) (r.closeAll : Sys κ Unit)
      fun o past => o = .ok () ∧ Ledger others theirs past := by
  have hclose : ∀ traffic, Triple (Ledger (r.held ++ others) traffic) (r.closeAll : Sys κ Unit) _ :=
    fun _ => Socket.triple_closeAll r.held
  refine ⟨(hclose theirs).grows, ?_⟩
  intro w h hlaw
  obtain ⟨traffic, hl, -, hothers⟩ := h
  obtain ⟨ho, hclosed⟩ := (hclose traffic).ensures w hl hlaw
  exact ⟨ho, hclosed.congr hothers⟩

theorem triple_close (index : Nat) (r : Reactor) (outcome : Outcome Tally) :
    Triple (fun past => Scene.Sound others theirs ⟨r, past⟩) (close index r outcome : Sys κ Stage)
      (Arrives others theirs) :=
  Triple.done_bind (triple_closeAll r) (triple_conclude index outcome)

/-- A thread goes on with what an action of its reactor leaves, or closes down. -/
theorem triple_carryOn (index : Nat) (r : Reactor) {m : Loop κ α} {next : α → Reactor → Sys κ Stage}
    {P bad : Scene → Prop} {Q : Outcome α → Scene → Prop} {good : Outcome Stage → List Event → Prop}
    {law : List Event → Prop} [Hereditary law]
    (hclose : ∀ r outcome, Triple (fun past => bad ⟨r, past⟩) (close index r outcome : Sys κ Stage)
      good law)
    (hm : Triple P m Q law)
    (hnext : ∀ a r, Triple (fun past => Q (.ok a) ⟨r, past⟩) (next a r) good law)
    (hfailed : ∀ e v, Q (.failed e) v → bad v := by exact fun _ _ h => h)
    (hdefect : ∀ d v, Q (.defect d) v → bad v := by exact fun _ _ h => h) :
    Triple (fun past => P ⟨r, past⟩) (carryOn index r m next) good law := by
  constructor
  · intro w
    have hgrows := hm.grows ⟨r, w⟩
    unfold carryOn
    split <;> rename_i heq <;> rw [heq] at hgrows
    · exact hgrows.trans ((hnext _ _).grows _)
    · exact hgrows.trans ((hclose _ _).grows _)
    · exact hgrows.trans ((hclose _ _).grows _)
  · intro w hw
    have hensures := hm.ensures ⟨r, w⟩ hw
    unfold carryOn
    split <;> rename_i heq <;> rw [heq] at hensures <;> intro hlaw
    · exact (hnext _ _).ensures _ (hensures (Hereditary.of_suffix hlaw ((hnext _ _).grows _))) hlaw
    · exact (hclose _ _).ensures _
        (hfailed _ _ (hensures (Hereditary.of_suffix hlaw ((hclose _ _).grows _)))) hlaw
    · exact (hclose _ _).ensures _
        (hdefect _ _ (hensures (Hereditary.of_suffix hlaw ((hclose _ _).grows _)))) hlaw

/-- A thread makes its reactor, or has closed its listener. -/
theorem triple_create (listener : Descriptor) (m : Multiplexor) (settings : Settings) :
    Triple (Stage.Sound others theirs (.created listener))
      (Reactor.create listener m settings : Sys κ Reactor)
      (Outcome.Ends (fun r past => Scene.Sound others theirs ⟨r, past⟩)
        (Ledger others theirs)) := by
  have hcreate : ∀ traffic, Triple (Ledger (listener :: others) traffic)
      (Reactor.create listener m settings : Sys κ Reactor) _ := fun _ =>
    Reactor.triple_create listener m settings
  refine ⟨(hcreate theirs).grows, ?_⟩
  intro w h hlaw
  obtain ⟨traffic, hl, -, hothers⟩ := h
  have hmade := (hcreate traffic).ensures w hl hlaw
  refine hmade.imp (fun r h => ?_) fun hl => hl.congr hothers
  obtain ⟨⟨rfl, hledger⟩, -⟩ := h
  exact ⟨traffic, hledger, Reactor.fresh_accounts listener m settings, hothers⟩

/-- Whatever a thread does in a turn, what the others hold stays as it is. -/
theorem triple_turn (settings : Settings) (index : Nat) (stage : Stage) :
    Triple (stage.Sound others theirs) (turn settings index stage : Sys κ Stage)
      (Arrives others theirs) := by
  have harrives : ∀ stage : Stage, Triple (stage.Sound others theirs) (pure stage : Sys κ Stage)
      (Arrives others theirs) := fun stage => Triple.pure fun _ _ h => ⟨stage, rfl, h⟩
  have hlooping : ∀ (last : Duration) (r : Reactor),
      Triple (fun past => Scene.Sound others theirs ⟨r, past⟩)
        (pure (.looping r last) : Sys κ Stage)
        (Arrives others theirs) := fun last r => harrives (.looping r last)
  have hclose : ∀ (r : Reactor) (outcome : Outcome Tally),
      Triple (fun past => Scene.Sound others theirs ⟨r, past⟩) (close index r outcome : Sys κ Stage)
        (Arrives others theirs) := triple_close index
  cases stage with
  | created listener =>
    apply Triple.observe_bind (triple_create listener _ settings)
    intro o
    cases o with
    | ok r => exact triple_carryOn index r hclose Reactor.sound_start hlooping
    | failed e => exact triple_conclude index (.failed e)
    | defect d => exact triple_conclude index (.defect d)
  | looping r last =>
    apply Sys.triple_stopping_bind
    intro stop
    split
    · exact triple_carryOn index r hclose Reactor.sound_finish fun tally r => hclose r (.ok tally)
    · apply triple_carryOn index r hclose Reactor.sound_prepare
      intro plan r
      refine (harrives (.waiting r last plan)).strengthen ?_
      intro past _ h
      obtain ⟨⟨traffic, hl, ha, hothers⟩, hentries⟩ := h
      exact ⟨traffic, hl, ⟨ha, hentries⟩, hothers⟩
  | waiting r last plan =>
    refine (triple_carryOn index r hclose (Triple.bind (Reactor.sound_complete plan) fun _ =>
      Reactor.sound_report last) hlooping).strengthen ?_
    intro past _ h
    obtain ⟨traffic, hl, ⟨ha, hentries⟩, hothers⟩ := h
    exact ⟨⟨traffic, hl, ha, hothers⟩, hentries⟩
  | ended outcome => exact harrives (.ended outcome)

end Shard

/-! ## The fleet -/

namespace Fleet

variable {κ : Type} [Kernel κ] {others : List Descriptor} {theirs : Descriptor → Traffic}

/-- All threads are sound together. -/
def Together (others : List Descriptor) (theirs : Descriptor → Traffic) (shards : List Shard)
    (past : List Event) : Prop :=
  ∃ traffic, Ledger (shards.flatMap (·.stage.held) ++ others) traffic past ∧
    (∀ s ∈ shards, s.stage.Stands traffic) ∧ ∀ fd ∈ others, traffic fd = theirs fd

variable {s : Shard} {rest : List Shard} {past : List Event}

/-- For one thread, the rest are others. -/
theorem together_cons : Together others theirs (s :: rest) past ↔
    ∃ traffic, s.stage.Sound (rest.flatMap (·.stage.held) ++ others) traffic past ∧
      (∀ x ∈ rest, x.stage.Stands traffic) ∧ ∀ fd ∈ others, traffic fd = theirs fd := by
  constructor
  · intro h
    obtain ⟨traffic, hl, hstands, hothers⟩ := h
    rw [List.flatMap_cons, List.append_assoc] at hl
    obtain ⟨hs, hrest⟩ := List.forall_mem_cons.mp hstands
    exact ⟨traffic, ⟨traffic, hl, hs, fun _ _ => rfl⟩, hrest, hothers⟩
  · intro h
    obtain ⟨traffic, ⟨traffic', hl, hs, hagree⟩, hrest, hothers⟩ := h
    refine ⟨traffic', ?_, List.forall_mem_cons.mpr ⟨hs, fun x hx => ?_⟩, fun fd hfd => ?_⟩
    · rw [List.flatMap_cons, List.append_assoc]
      exact hl
    · refine (hrest x hx).congr fun fd hfd => (hagree fd ?_).symm
      exact List.mem_append_left _ (List.mem_flatMap.mpr ⟨x, hx, hfd⟩)
    · rw [hagree fd (List.mem_append_right _ hfd)]
      exact hothers fd hfd

/-- For the rest, one thread is another. -/
theorem together_rest : Together others theirs (s :: rest) past ↔
    ∃ traffic, Together (s.stage.held ++ others) traffic rest past ∧
      s.stage.Stands traffic ∧ ∀ fd ∈ others, traffic fd = theirs fd := by
  have hperm : ((s :: rest).flatMap (·.stage.held) ++ others).Perm
      (rest.flatMap (·.stage.held) ++ (s.stage.held ++ others)) := by
    rw [List.flatMap_cons, ← List.append_assoc]
    exact List.perm_append_comm.append_right others
  constructor
  · intro h
    obtain ⟨traffic, hl, hstands, hothers⟩ := h
    obtain ⟨hs, hrest⟩ := List.forall_mem_cons.mp hstands
    exact ⟨traffic, ⟨traffic, hl.perm hperm, hrest, fun _ _ => rfl⟩, hs, hothers⟩
  · intro h
    obtain ⟨traffic, ⟨traffic', hl, hrest, hagree⟩, hs, hothers⟩ := h
    refine ⟨traffic', hl.perm hperm.symm,
      List.forall_mem_cons.mpr ⟨hs.congr fun fd hfd => ?_, hrest⟩, fun fd hfd => ?_⟩
    · exact (hagree fd (List.mem_append_left _ hfd)).symm
    · rw [hagree fd (List.mem_append_right _ hfd)]
      exact hothers fd hfd

theorem triple_turnOf (settings : Settings) (index : Nat) (shards : List Shard) :
    Triple (Together others theirs shards) (turnOf settings index shards : Sys κ (List Shard))
      fun o past => ∃ shards', o = .ok shards' ∧ Together others theirs shards' past := by
  induction shards generalizing others theirs with
  | nil => exact Triple.pure fun _ _ h => ⟨[], rfl, h⟩
  | cons s rest ih =>
    rw [turnOf]
    split
    · refine Triple.strengthen (Triple.ofExists fun traffic => ?_) fun _ _ h => together_cons.mp h
      have hturn : Triple (s.stage.Sound (rest.flatMap (·.stage.held) ++ others) traffic)
          (Shard.turn settings index s.stage : Sys κ Stage) _ :=
        Shard.triple_turn settings index s.stage
      refine (Sys.silent_switchTo _).bind
        (Triple.answer_bind (Triple.frame_answer hturn) fun stage => ?_)
      exact (Sys.silent_switchTo _).bind
        (Triple.pure fun _ _ h => ⟨_, rfl, together_cons.mpr ⟨traffic, h⟩⟩)
    · refine Triple.strengthen (Triple.ofExists fun traffic => ?_) fun _ _ h => together_rest.mp h
      have hrest : Triple (Together (s.stage.held ++ others) traffic rest)
          (turnOf settings index rest : Sys κ (List Shard)) _ := ih
      exact Triple.answer_bind (Triple.frame_answer hrest) fun shards =>
        Triple.pure fun _ _ h => ⟨_, rfl, together_rest.mpr ⟨traffic, h⟩⟩

/-- What the threads hold, and the listeners that wait for theirs. -/
def held (f : Fleet) : List Descriptor :=
  f.shards.flatMap (·.stage.held) ++ f.waitingListeners

/-- Fleet and past agree. -/
def Sound (f : Fleet) (past : List Event) : Prop :=
  ∃ traffic, Together f.waitingListeners traffic f.shards past

/-- A fleet has come to where it is sound. -/
def Arrives (o : Outcome Fleet) (past : List Event) : Prop :=
  ∃ f, o = .ok f ∧ f.Sound past

theorem Sound.holds {f : Fleet} (h : f.Sound past) : Holds f.held past := by
  obtain ⟨_, traffic, hl, -⟩ := h
  exact ⟨traffic, hl⟩

variable {shards : List Shard} {listener : Descriptor} {waiting : List Descriptor}

/-- A listener that waited becomes that of a thread. -/
theorem Together.spawned (h : Together (listener :: waiting) theirs shards past) (index : Nat) :
    ∃ traffic, Together waiting traffic (shards ++ [⟨index, .created listener⟩]) past := by
  obtain ⟨traffic, hl, hstands, -⟩ := h
  refine ⟨traffic, traffic, ?_, ?_, fun _ _ => rfl⟩
  · rw [List.flatMap_append, List.append_assoc]
    exact hl
  · intro s hs
    rcases List.mem_append.mp hs with hs | hs
    · exact hstands s hs
    · rw [List.mem_singleton.mp hs]
      trivial

/-- A listener for which there is no thread is closed. -/
theorem triple_refused :
    Triple (Together (listener :: waiting) theirs shards) (Socket.close listener : Sys κ Unit)
      fun o past => o = .ok () ∧ Together waiting theirs shards past := by
  apply Triple.ofExists
  intro traffic
  have hclose : Triple (Ledger (listener :: (shards.flatMap (·.stage.held) ++ waiting)) traffic)
      (Socket.close listener : Sys κ Unit) _ := Socket.triple_close listener
  have hframed := Triple.frame (φ := (∀ s ∈ shards, s.stage.Stands traffic) ∧
    ∀ fd ∈ listener :: waiting, traffic fd = theirs fd) hclose
  refine hframed.weaken (fun past _ ⟨hl, h⟩ => ⟨hl.perm List.perm_middle, h⟩) ?_
  intro o past _ h
  obtain ⟨⟨ho, hl⟩, hstands, hothers⟩ := h
  exact ⟨ho, traffic, hl, hstands, fun fd hfd => hothers fd (List.mem_cons_of_mem _ hfd)⟩

theorem triple_spawnNext (f : Fleet) : Triple f.Sound (f.spawnNext : Sys κ Fleet) Arrives := by
  have hstays : Triple f.Sound (pure f : Sys κ Fleet) Arrives :=
    Triple.pure fun _ _ h => ⟨f, rfl, h⟩
  unfold spawnNext
  split
  · rename_i listener waiting hspawn hwaiting
    refine Triple.strengthen (Triple.ofExists fun theirs => ?_) fun past _ h => h
    rw [hwaiting]
    have hrefused : ∀ errno, Triple (Together (listener :: waiting) theirs f.shards)
        (do
          Socket.close listener
          Sys.askStop
          pure { f with
            waitingListeners := waiting, spawnFailure := some (.system "spawn" errno) } :
            Sys κ Fleet) Arrives := fun errno => by
      refine Triple.done_bind triple_refused (Sys.silent_askStop.bind (Triple.pure ?_))
      exact fun past _ h => ⟨_, rfl, theirs, h⟩
    refine Triple.bind
      (Q := Outcome.Ends (fun _ => Together (listener :: waiting) theirs f.shards) fun _ => False)
      (Sys.triple_call ?_) (fun reply => ?_) (fun _ _ h => h.elim) fun _ _ h => h.elim
    · intro thread reply arrivals past hs _
      obtain ⟨traffic, hl, h⟩ := hs
      exact ⟨traffic, hl.idle (Event.idle_of_quiet trivial) nofun, h⟩
    · cases reply with
      | ok _ => exact Triple.pure fun past _ h => ⟨_, rfl, h.spawned f.shards.length⟩
      | failed errno => exact hrefused errno
      | notOpen => exact hrefused .badDescriptor
  · exact hstays

theorem triple_step (t : Turn) (f : Fleet) : Triple f.Sound (f.step t : Sys κ Fleet) Arrives := by
  cases t with
  | main => exact triple_spawnNext f
  | shard index =>
    apply Triple.ofExists
    intro traffic
    exact Triple.answer_bind (triple_turnOf f.settings index f.shards) fun shards =>
      Triple.pure fun _ _ h => ⟨_, rfl, traffic, h⟩

/-- Whatever the schedule, the fleet stays sound. -/
theorem triple_follow (schedule : List Turn) (f : Fleet) :
    Triple f.Sound (follow schedule f : Sys κ Fleet) Arrives := by
  induction schedule generalizing f with
  | nil => exact Triple.pure fun _ _ h => ⟨f, rfl, h⟩
  | cons t rest ih =>
    exact Triple.answer_bind (triple_step t f) ih

/-- Threads that have ended hold nothing. -/
theorem held_of_ended {shards : List Shard} {outcomes : List (Outcome Tally)}
    (h : shards.mapM Shard.outcome? = some outcomes) : shards.flatMap (·.stage.held) = [] := by
  induction shards generalizing outcomes with
  | nil => rfl
  | cons s rest ih =>
    rw [List.mapM_cons] at h
    obtain ⟨outcome, hs, h⟩ := Option.bind_eq_some_iff.mp h
    obtain ⟨others, hrest, -⟩ := Option.bind_eq_some_iff.mp h
    rw [List.flatMap_cons, ih hrest, List.append_nil]
    cases hstage : s.stage with
    | ended outcome => rfl
    | _ =>
      rw [Shard.outcome?, hstage] at hs
      cases hs

theorem held_of_outcomes? {f : Fleet} {outcomes : List (Outcome Tally)}
    (h : f.outcomes? = some outcomes) : f.held = f.waitingListeners ∧
      (f.spawnFailure = none → f.waitingListeners = []) := by
  unfold outcomes? at h
  split at h
  · rename_i hstarted
    refine ⟨?_, fun hspawn => ?_⟩
    · rw [held, held_of_ended h, List.nil_append]
    · simpa [hspawn] using hstarted
  · cases h

/-- Once a server answers or fails, nothing is open any more. -/
def Settles (o : Outcome (Option Tally)) (past : List Event) : Prop :=
  ∃ held, Holds held past ∧ (o ≠ .ok none → held = [])

theorem triple_conclude (f : Fleet) :
    Triple f.Sound (f.conclude : Sys κ (Option Tally)) Settles := by
  unfold conclude
  split
  · exact Triple.pure fun past _ h => ⟨_, h.holds, fun ho => absurd rfl ho⟩
  · rename_i outcomes houtcomes
    obtain ⟨hheld, hnone⟩ := held_of_outcomes? houtcomes
    refine Triple.strengthen (P := Holds f.waitingListeners) ?_ fun past _ h => hheld ▸ h.holds
    split
    · exact Triple.done_bind (Socket.holds_closeAll f.waitingListeners)
        (Triple.fail fun past _ h => ⟨[], h, fun _ => rfl⟩)
    · rename_i hspawn
      rw [hnone hspawn]
      split
      · exact Triple.fail fun past _ h => ⟨[], h, fun _ => rfl⟩
      · exact (Sys.silent_log _ _).bind (Triple.pure fun past _ h => ⟨[], h, fun _ => rfl⟩)

end Fleet

end SpanEcho

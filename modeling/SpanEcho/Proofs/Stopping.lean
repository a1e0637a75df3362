import SpanEcho.Proofs.Composed
import SpanEcho.Serving
import SpanEcho.Script.Kernel

/-!
# How a request to stop reaches all threads

A request to stop is never taken back, and a thread that finds one ends. A thread of a fleet that
ends with its counters or with a failure leaves such a request behind, so that every other one ends
within two more turns of its own and begins no other wait. A thread that ends with a defect asks for
nothing, and the others go on.
-/

namespace SpanEcho

open SpanEcho.Action

variable {κ α : Type} [Kernel κ]

/-! ## Requests stay -/

namespace World

variable {w : World κ}

omit [Kernel κ] in
theorem stopping_notice (a : Arrival) (h : w.stopping) : (w.notice a).stopping := by
  cases a with
  | stop => rfl
  | signal number =>
    unfold notice
    dsimp only
    split
    · exact Bool.or_true _
    · exact h

theorem stopping_call (c : Call) (h : w.stopping) : (w.call c).2.stopping := by
  have hfold : ∀ (arrivals : List Arrival) (w : World κ), w.stopping →
      (arrivals.foldl notice w).stopping := by
    intro arrivals
    induction arrivals with
    | nil => exact fun _ h => h
    | cons a rest ih => exact fun w h => ih _ (stopping_notice a h)
  exact hfold _ _ h

omit [Kernel κ] in
theorem stopping_write (line : Log.Line) (h : w.stopping) : (w.write line).stopping := by
  unfold write
  split
  · exact h
  · exact h

end World

/-- Nothing that a server does takes a request back. -/
theorem Sys.Tame.stopping {m : Sys κ α} (hm : Sys.Tame m) {w : World κ} (h : w.stopping) :
    (m w).2.stopping := by
  refine Composed.along (R := fun w w' : World κ => w.stopping → w'.stopping) (fun _ h => h)
    (fun _ _ _ h h' hw => h' (h hw)) hm ?_ w h
  intro _ _ hb w h
  cases hb with
  | call c => exact World.stopping_call c h
  | log level text => exact World.stopping_write _ h
  | stopping => exact h
  | askStop => rfl
  | switchTo t => exact h

theorem Loop.Tame.stopping {m : Loop κ α} (hm : Loop.Tame m) {n : Node κ} (h : n.world.stopping) :
    (m n).2.world.stopping := by
  refine Composed.along (R := fun n n' : Node κ => n.world.stopping → n'.world.stopping)
    (fun _ h => h) (fun _ _ _ h h' hn => h' (h hn)) hm ?_ n h
  intro _ _ hb n h
  cases hb with
  | sys hm => exact hm.stopping h
  | reactor => exact h
  | adjust f => exact h
  | registry m => exact h
  | exchange t entry d =>
    rcases Loop.exchange_world t entry d n with hworld | ⟨c, -, hworld⟩
    · rwa [hworld]
    · rw [hworld]
      exact World.stopping_call c h

/-! ## Turns of a thread -/

namespace Stage

/-- The thread has ended, and not with a defect. -/
def Concluded (stage : Stage) : Prop :=
  ∃ o, stage = .ended o ∧ ∀ d, o ≠ .defect d

/-- The thread is in the middle of a pass. -/
def Waits (stage : Stage) : Prop :=
  ∃ r last plan, stage = .waiting r last plan

/-- How many turns a thread needs at most to end once it is asked to stop. -/
def left : Stage → Nat
  | .created _ | .waiting _ _ _ => 2
  | .looping _ _ => 1
  | .ended _ => 0

variable {stage : Stage}

theorem left_le (stage : Stage) : stage.left ≤ 2 := by
  cases stage <;> simp [left]

theorem ended_of_left (h : stage.left = 0) : ∃ o, stage = .ended o := by
  cases stage with
  | ended o => exact ⟨o, rfl⟩
  | _ => cases h

theorem Waits.left_eq (h : stage.Waits) : stage.left = 2 := by
  obtain ⟨r, last, plan, rfl⟩ := h
  rfl

end Stage

theorem Socket.sure_closeAll (fds : List Descriptor) : Sure (closeAll fds : Sys κ Unit) := by
  induction fds with
  | nil => exact .pure ()
  | cons fd rest ih => exact .bind (fun _ => ⟨(), _, rfl⟩) fun _ => ih

/-- Descriptors are closed in their order, whatever the kernel replies. -/
theorem Socket.trace_closeAll (fds : List Descriptor) (w : World κ) :
    ∃ closed, (closeAll fds w).2.trace = w.trace ++ closed ∧
      closed.map (·.call) = fds.map Call.close := by
  induction fds generalizing w with
  | nil => exact ⟨[], (List.append_nil _).symm, rfl⟩
  | cons fd rest ih =>
    obtain ⟨closed, htrace, hcalls⟩ := ih (w.call (.close fd)).2
    refine ⟨w.event (.close fd) :: closed, ?_, by rw [List.map_cons, List.map_cons, hcalls]; rfl⟩
    show (closeAll rest (w.call (.close fd)).2).2.trace = _
    rw [htrace, World.trace_call, List.append_assoc, List.singleton_append]

theorem Reactor.tame_create (listener : Descriptor) (m : Multiplexor) (s : Settings) :
    Sys.Tame (create listener m s : Sys κ Reactor) :=
  Socket.tame_closingOnFailure _ <| .bind (.failIf _) fun _ =>
    .bind (Socket.quiet_setNonBlocking _).tame fun _ => .bind (.failIf _) fun _ =>
      .bind (.reserve _) fun _ => .pure _

namespace Shard

/-- What a turn makes of a thread and its world. -/
structure Heeds (stage : Stage) (w : World κ) (stage' : Stage) (w' : World κ) : Prop where
  stays : w.stopping → w'.stopping
  sooner : w.stopping → stage'.left ≤ stage.left - 1
  tells : stage'.Concluded → stage.Concluded ∨ w'.stopping

/-- A turn of a thread that was at `stage` in `w` ends like this, and leaves the thread
somewhere. -/
def Leads (stage : Stage) (w : World κ) (result : Outcome Stage × World κ) : Prop :=
  ∃ stage' w', result = (.ok stage', w') ∧ Heeds stage w stage' w'

section Turns

variable {stage : Stage} {w w₁ : World κ} {o : Outcome Tally}

omit [Kernel κ] in
theorem leads_on {stage' : Stage} (hsooner : w.stopping → stage'.left ≤ stage.left - 1)
    (hon : 0 < stage'.left) (hstays : w.stopping → w₁.stopping) :
    Leads stage w (.ok stage', w₁) := by
  refine ⟨stage', w₁, rfl, hstays, hsooner, fun h => ?_⟩
  obtain ⟨o, rfl, -⟩ := h
  exact absurd hon (Nat.lt_irrefl 0)

omit [Kernel κ] in
/-- A thread that ends with a failure asks the others to stop; one that ends with its counters has
been asked. -/
theorem leads_conclude (index : Nat) (hstays : w.stopping → w₁.stopping)
    (hasked : ∀ tally, o = .ok tally → w.stopping) : Leads stage w (conclude index o w₁) := by
  have hended : ∀ {w' : World κ}, (w.stopping → w'.stopping) →
      ((∀ d, o ≠ .defect d) → w'.stopping) → Heeds stage w (.ended o) w' := by
    refine fun hkept htells => ⟨hkept, fun _ => Nat.zero_le _, fun h => .inr ?_⟩
    obtain ⟨o', ho, hclean⟩ := h
    cases ho
    exact htells hclean
  cases o with
  | ok tally => exact ⟨_, w₁, rfl, hended hstays fun _ => hstays (hasked tally rfl)⟩
  | failed why => exact ⟨_, _, rfl, hended (fun _ => rfl) fun _ => rfl⟩
  | defect d => exact ⟨_, w₁, rfl, hended hstays fun h => absurd rfl (h d)⟩

theorem leads_close (index : Nat) (r : Reactor) (hstays : w.stopping → w₁.stopping)
    (hasked : ∀ tally, o = .ok tally → w.stopping) : Leads stage w (close index r o w₁) := by
  have hkept : w₁.stopping → (r.closeAll w₁).2.stopping := (Socket.tame_closeAll _).stopping
  obtain ⟨_, w₂, hclose⟩ : ∃ a w₂, r.closeAll w₁ = (.ok a, w₂) := Socket.sure_closeAll _ w₁
  rw [hclose] at hkept
  rw [close, bind_of_ok hclose]
  exact leads_conclude index (fun h => hkept (hstays h)) hasked

/-- A thread goes on with a value, and ends without one. -/
theorem leads_carryOn {m : Loop κ α} (hm : Loop.Tame m) (index : Nat) (r : Reactor)
    {next : α → Reactor → Sys κ Stage} (hstays : w.stopping → w₁.stopping)
    (hnext : ∀ a (n : Node κ), (w.stopping → n.world.stopping) →
      Leads stage w (next a n.reactor n.world)) : Leads stage w (carryOn index r m next w₁) := by
  have hran : w.stopping → (m ⟨r, w₁⟩).2.world.stopping := fun h => hm.stopping (hstays h)
  unfold carryOn
  split <;> rename_i heq <;> rw [heq] at hran
  · exact hnext _ _ hran
  · exact leads_close index _ hran nofun
  · exact leads_close index _ hran nofun

theorem leads_created (s : Settings) (index : Nat) (listener : Descriptor) (w : World κ) :
    Leads (.created listener) w (turn s index (.created listener) w) := by
  have hstays := (Reactor.tame_create (κ := κ) listener s.method.multiplexor s).stopping (w := w)
  simp only [turn, bind_apply, Action.observe]
  rcases hcreate : Reactor.create listener s.method.multiplexor s w with ⟨o, w₁⟩
  rw [hcreate] at hstays
  cases o with
  | ok r =>
    exact leads_carryOn Reactor.quiet_start.tame index r hstays fun last n hkept =>
      leads_on (fun _ => Nat.le_refl 1) Nat.one_pos hkept
  | failed why => exact leads_conclude index hstays nofun
  | defect d => exact leads_conclude index hstays nofun

/-- A thread that is about to look for a request to stop ends if there is one, and waits if not. -/
theorem leads_looping (s : Settings) (index : Nat) (r : Reactor) (last : Duration) (w : World κ) :
    Leads (.looping r last) w (turn s index (.looping r last) w) := by
  cases hw : w.stopping with
  | true =>
    have hturn : turn s index (.looping r last) w =
        carryOn index r Reactor.finish (fun tally r => close index r (.ok tally)) w := by
      show (if w.stopping then _ else _ : Sys κ Stage) w = _
      rw [hw]
      rfl
    rw [hturn]
    exact leads_carryOn Reactor.quiet_finish.tame index r (fun h => h) fun tally n hkept =>
      leads_close index n.reactor hkept fun _ _ => hw
  | false =>
    have hturn : turn s index (.looping r last) w =
        carryOn index r Reactor.prepare (fun plan r => pure (.waiting r last plan)) w := by
      show (if w.stopping then _ else _ : Sys κ Stage) w = _
      rw [hw]
      rfl
    rw [hturn]
    refine leads_carryOn Reactor.quiet_prepare.tame index r (fun h => h) fun plan n hkept =>
      leads_on (fun h => ?_) Nat.two_pos hkept
    rw [hw] at h
    cases h

theorem leads_waiting (s : Settings) (index : Nat) (r : Reactor) (last : Duration) (plan : Plan)
    (w : World κ) : Leads (.waiting r last plan) w (turn s index (.waiting r last plan) w) := by
  have htame : Loop.Tame (do
      let _ ← Reactor.complete plan
      Reactor.report last : Loop κ Duration) :=
    .bind (.bind (Reactor.quiet_await plan).tame fun ready =>
        .bind (Reactor.tame_dispatchAll ready) fun _ => .pure _)
      fun _ => (Reactor.quiet_report last).tame
  rw [turn]
  exact leads_carryOn htame index r (fun h => h) fun last' n hkept =>
    leads_on (fun _ => Nat.le_refl 1) Nat.one_pos hkept

/-- A turn always leaves a thread somewhere. -/
theorem leads_turn (s : Settings) (index : Nat) (stage : Stage) (w : World κ) :
    Leads stage w (turn s index stage w) := by
  cases stage with
  | created listener => exact leads_created s index listener w
  | looping r last => exact leads_looping s index r last w
  | waiting r last plan => exact leads_waiting s index r last plan w
  | ended o => exact ⟨_, w, rfl, fun h => h, fun _ => Nat.le_refl 0, .inl⟩

end Turns

end Shard

/-! ## The fleet -/

open Shard (Heeds leads_turn)

namespace Fleet

/-- A turn goes to the first thread of its number, if there is one, which is the running one as long
as the turn lasts. -/
theorem turnOf_apply (s : Settings) (index : Nat) (shards : List Shard) (w : World κ) :
    ((∀ x ∈ shards, x.index ≠ index) ∧ turnOf s index shards w = (.ok shards, w)) ∨
      ∃ front x back, shards = front ++ x :: back ∧ x.index = index ∧
        ∀ stage w',
          Shard.turn s index x.stage { w with thread := .reactor index } = (.ok stage, w') →
          turnOf s index shards w =
            (.ok (front ++ { x with stage } :: back), { w' with thread := .main }) := by
  induction shards with
  | nil => exact .inl ⟨fun _ hx => absurd hx List.not_mem_nil, rfl⟩
  | cons x rest ih =>
    rw [turnOf]
    split
    · rename_i hindex
      refine .inr ⟨[], x, rest, rfl, hindex, fun stage w' hturn => ?_⟩
      simp only [bind_apply, Sys.switchTo, Action.change, hturn]
      rfl
    · rename_i hindex
      rcases ih with ⟨hnone, hrest⟩ | ⟨front, y, back, rfl, hy, hrest⟩
      · refine .inl ⟨fun z hz => ?_, ?_⟩
        · rcases List.mem_cons.mp hz with rfl | hz
          · exact hindex
          · exact hnone z hz
        · rw [bind_of_ok hrest]
          rfl
      · refine .inr ⟨x :: front, y, back, rfl, hy, fun stage w' hturn => ?_⟩
        rw [bind_of_ok (hrest stage w' hturn)]
        rfl

/-- A turn changes one thread at most, as a turn changes it. -/
theorem turnOf_cases (s : Settings) (index : Nat) (shards : List Shard) (w : World κ) :
    ((∀ x ∈ shards, x.index ≠ index) ∧ turnOf s index shards w = (.ok shards, w)) ∨
      ∃ front x back stage w', shards = front ++ x :: back ∧ x.index = index ∧
        turnOf s index shards w = (.ok (front ++ { x with stage } :: back), w') ∧
        Heeds x.stage w stage w' := by
  rcases turnOf_apply s index shards w with hnone | ⟨front, x, back, hshards, hindex, hturnOf⟩
  · exact .inl hnone
  · obtain ⟨stage, w', hturn, hheeds⟩ :=
      leads_turn s index x.stage { w with thread := .reactor index }
    exact .inr ⟨front, x, back, stage, { w' with thread := .main }, hshards, hindex,
      hturnOf stage w' hturn, hheeds.stays, hheeds.sooner, hheeds.tells⟩

/-- Threads are numbered as they were started. -/
def Numbered (f : Fleet) : Prop :=
  f.shards.map (·.index) = List.range f.shards.length

/-- What turns make of a fleet and its world. -/
structure Obeys (turns : List Turn) (f : Fleet) (w : World κ) (f' : Fleet) (w' : World κ) :
    Prop where
  numbered : f'.Numbered
  stays : w.stopping → w'.stopping
  tells : (∀ x ∈ f.shards, x.stage.Concluded → w.stopping) →
    ∀ x ∈ f'.shards, x.stage.Concluded → w'.stopping
  sooner : w.stopping → ∀ x ∈ f.shards, ∃ x' ∈ f'.shards, x'.index = x.index ∧
    x'.stage.left ≤ x.stage.left - turns.count (.shard x.index)
  waits : w.stopping → ∀ x ∈ f'.shards, x.stage.Waits → x ∈ f.shards

variable {f f' f'' : Fleet} {w w' w'' : World κ} {turns later : List Turn}

omit [Kernel κ] in
theorem Obeys.refl (h : f.Numbered) (w : World κ) : Obeys [] f w f w :=
  ⟨h, fun h => h, fun h => h, fun _ x hx => ⟨x, hx, rfl, Nat.le_refl _⟩, fun _ _ hx _ => hx⟩

omit [Kernel κ] in
theorem Obeys.trans (h : Obeys turns f w f' w') (h' : Obeys later f' w' f'' w'') :
    Obeys (turns ++ later) f w f'' w'' where
  numbered := h'.numbered
  stays := fun hw => h'.stays (h.stays hw)
  tells := fun hf => h'.tells (h.tells hf)
  sooner := fun hw x hx => by
    obtain ⟨x', hx', hindex, hleft⟩ := h.sooner hw x hx
    obtain ⟨x'', hx'', hindex', hleft'⟩ := h'.sooner (h.stays hw) x' hx'
    refine ⟨x'', hx'', hindex'.trans hindex, ?_⟩
    rw [hindex] at hleft'
    rw [List.count_append]
    omega
  waits := fun hw x hx hwaits => h.waits hw x (h'.waits (h.stays hw) x hx hwaits) hwaits

omit [Kernel κ] in
theorem obeys_same (hf : f.Numbered) (hshards : f'.shards = f.shards)
    (hstays : w.stopping → w'.stopping) : Obeys [.main] f w f' w' where
  numbered := by rwa [Numbered, hshards]
  stays := hstays
  tells := fun h x hx hc => hstays (h x (hshards ▸ hx) hc)
  sooner := fun _ x hx => ⟨x, hshards ▸ hx, rfl, Nat.le_refl _⟩
  waits := fun _ x hx _ => hshards ▸ hx

omit [Kernel κ] in
theorem obeys_spawned {listener : Descriptor} (hf : f.Numbered)
    (hshards : f'.shards = f.shards ++ [⟨f.shards.length, .created listener⟩])
    (hstays : w.stopping → w'.stopping) : Obeys [.main] f w f' w' := by
  have hmem : ∀ y ∈ f'.shards, y ∈ f.shards ∨ y.stage = .created listener := by
    intro y hy
    rw [hshards] at hy
    rcases List.mem_append.mp hy with hy | hy
    · exact .inl hy
    · exact .inr (List.mem_singleton.mp hy ▸ rfl)
  refine ⟨?_, hstays, fun h y hy hc => ?_, fun _ y hy => ?_, fun _ y hy hwaits => ?_⟩
  · rw [Numbered, hshards, List.map_append, show f.shards.map (·.index) = _ from hf,
      List.length_append]
    exact List.range_succ.symm
  · rcases hmem y hy with hy | hy
    · exact hstays (h y hy hc)
    · obtain ⟨o, ho, -⟩ := hc
      cases hy.symm.trans ho
  · exact ⟨y, hshards ▸ List.mem_append_left _ hy, rfl, Nat.le_refl _⟩
  · rcases hmem y hy with hy | hy
    · exact hy
    · obtain ⟨r, last, plan, hstage⟩ := hwaits
      cases hy.symm.trans hstage

/-- The main thread adds a thread that has not started, or none and a request to stop. -/
theorem obeys_spawnNext (hf : f.Numbered) (w : World κ) :
    ∃ f' w', f.spawnNext w = (.ok f', w') ∧ Obeys [.main] f w f' w' := by
  cases hspawn : f.spawnFailure with
  | some why =>
    exact ⟨f, w, by simp only [spawnNext, hspawn]; rfl, obeys_same hf rfl fun h => h⟩
  | none =>
  cases hwaiting : f.waitingListeners with
  | nil =>
    exact ⟨f, w, by simp only [spawnNext, hspawn, hwaiting]; rfl, obeys_same hf rfl fun h => h⟩
  | cons listener rest =>
    have hstays : w.stopping → (w.call (.spawn f.shards.length)).2.stopping := World.stopping_call _
    simp only [spawnNext, hspawn, hwaiting, bind_apply, Sys.call]
    cases (w.call (.spawn f.shards.length)).1 with
    | ok _ => exact ⟨_, _, rfl, obeys_spawned hf rfl hstays⟩
    | failed errno => exact ⟨_, _, rfl, obeys_same hf rfl fun _ => rfl⟩
    | notOpen => exact ⟨_, _, rfl, obeys_same hf rfl fun _ => rfl⟩

theorem Numbered.others {front back : List Shard} {x : Shard} (hf : f.Numbered)
    (hshards : f.shards = front ++ x :: back) : ∀ y ∈ front ++ back, y.index ≠ x.index := by
  have hnodup : (f.shards.map (·.index)).Nodup := by
    rw [show f.shards.map (·.index) = _ from hf]
    exact List.nodup_range
  rw [hshards, List.map_append, List.map_cons] at hnodup
  have hnot := (List.nodup_cons.mp (List.perm_middle.nodup_iff.mp hnodup)).1
  rw [← List.map_append] at hnot
  exact fun y hy he => hnot (he ▸ List.mem_map_of_mem hy)

theorem count_other {x : Shard} {index : Nat} (h : x.index ≠ index) :
    [Turn.shard index].count (.shard x.index) = 0 := by
  rw [List.count_singleton, if_neg]
  simpa using h.symm

omit [Kernel κ] in
/-- One thread has its turn, and the others stay where they are. -/
theorem obeys_turn {front back : List Shard} {x : Shard} {stage : Stage} (hf : f.Numbered)
    (hshards : f.shards = front ++ x :: back) (hheeds : Heeds x.stage w stage w') :
    Obeys [.shard x.index] f w { f with shards := front ++ { x with stage } :: back } w' := by
  have hothers := hf.others hshards
  have hmem : ∀ y, y ∈ f.shards ↔ y = x ∨ y ∈ front ++ back := by
    rw [hshards]
    simp [or_left_comm]
  have hmem' : ∀ y, y ∈ front ++ { x with stage } :: back ↔
      y = { x with stage } ∨ y ∈ front ++ back := by
    simp [or_left_comm]
  refine ⟨?_, hheeds.stays, fun h y hy hc => ?_, fun hw y hy => ?_, fun hw y hy hwaits => ?_⟩
  · rw [Numbered, hshards] at hf
    simpa [Numbered] using hf
  · rcases (hmem' y).mp hy with rfl | hy
    · rcases hheeds.tells hc with hc | hw'
      · exact hheeds.stays (h x ((hmem x).mpr (.inl rfl)) hc)
      · exact hw'
    · exact hheeds.stays (h y ((hmem y).mpr (.inr hy)) hc)
  · rcases (hmem y).mp hy with rfl | hy
    · refine ⟨{ y with stage }, (hmem' _).mpr (.inl rfl), rfl, ?_⟩
      rw [List.count_singleton_self]
      exact hheeds.sooner hw
    · refine ⟨y, (hmem' y).mpr (.inr hy), rfl, ?_⟩
      rw [count_other (hothers y hy)]
      exact Nat.le_refl _
  · rcases (hmem' y).mp hy with rfl | hy
    · -- The thread that had its turn is not waiting any more.
      have hleft := hheeds.sooner hw
      have hmost := x.stage.left_le
      rw [show stage.left = 2 from hwaits.left_eq] at hleft
      omega
    · exact (hmem y).mpr (.inr hy)

theorem obeys_step (hf : f.Numbered) (t : Turn) (w : World κ) :
    ∃ f' w', f.step t w = (.ok f', w') ∧ Obeys [t] f w f' w' := by
  cases t with
  | main => exact obeys_spawnNext hf w
  | shard index =>
    rcases turnOf_cases f.settings index f.shards w with
      ⟨hnone, hturn⟩ | ⟨front, x, back, stage, w', hshards, rfl, hturn, hheeds⟩
    · refine ⟨_, w, bind_of_ok hturn, hf, fun h => h, fun h => h, fun _ x hx => ?_,
        fun _ x hx _ => hx⟩
      refine ⟨x, hx, rfl, ?_⟩
      rw [count_other (hnone x hx)]
      exact Nat.le_refl _
    · exact ⟨_, w', bind_of_ok hturn, obeys_turn hf hshards hheeds⟩

/-- Whatever the schedule, threads only take turns. -/
theorem obeys_follow (turns : List Turn) (hf : f.Numbered) (w : World κ) :
    ∃ f' w', follow turns f w = (.ok f', w') ∧ Obeys turns f w f' w' := by
  induction turns generalizing f w with
  | nil => exact ⟨f, w, rfl, .refl hf w⟩
  | cons t rest ih =>
    obtain ⟨f₁, w₁, hstep, hobeys⟩ := obeys_step hf t w
    obtain ⟨f', w', hfollow, hrest⟩ := ih hobeys.numbered w₁
    exact ⟨f', w', (bind_of_ok hstep).trans hfollow, hobeys.trans hrest⟩

end Fleet

namespace Serving

/-- A fleet is assembled before its first thread is started, with the settings of its threads. -/
theorem assemble_ok {s : Settings} {w₀ w : World κ} {f : Fleet} (h : assemble s w₀ = (.ok f, w)) :
    f.shards = [] ∧ f.settings = Fleet.shardSettings s := by
  obtain ⟨_, _, -, h⟩ := bind_eq_ok.mp h
  obtain ⟨_, _, -, h⟩ := bind_eq_ok.mp h
  obtain ⟨_, _, -, h⟩ := bind_eq_ok.mp h
  obtain ⟨_, _, -, h⟩ := bind_eq_ok.mp h
  cases h
  exact ⟨rfl, rfl⟩

theorem shards_of_assemble {s : Settings} {w₀ w : World κ} {f : Fleet}
    (h : assemble s w₀ = (.ok f, w)) : f.shards = [] :=
  (assemble_ok h).1

/-- **A thread that ends stops all.** Whatever the schedule, once a thread of a fleet has ended with
its counters or with a failure there is a request to stop, and it stays. From then on no thread
begins a wait, and each that is there has ended after two more turns of its own. -/
theorem stopping_of_concluded {s : Settings} {w₀ w₁ : World κ} {f₀ : Fleet}
    (hassemble : assemble s w₀ = (.ok f₀, w₁)) (turns : List Turn) :
    ∃ f w, f₀.follow turns w₁ = (.ok f, w) ∧ ((∃ x ∈ f.shards, x.stage.Concluded) → w.stopping ∧
      ∀ later, ∃ f' w', f.follow later w = (.ok f', w') ∧ w'.stopping ∧
        (∀ x ∈ f'.shards, x.stage.Waits → x ∈ f.shards) ∧
        ∀ x ∈ f.shards, 2 ≤ later.count (.shard x.index) →
          ∃ x' ∈ f'.shards, x'.index = x.index ∧ ∃ o, x'.stage = .ended o) := by
  have hnone := shards_of_assemble hassemble
  have hnumbered : f₀.Numbered := by rw [Fleet.Numbered, hnone]; rfl
  obtain ⟨f, w, hfollow, hobeys⟩ := Fleet.obeys_follow turns hnumbered w₁
  refine ⟨f, w, hfollow, fun hconcluded => ?_⟩
  obtain ⟨x, hx, hc⟩ := hconcluded
  have hstopping : w.stopping := hobeys.tells (by simp [hnone]) x hx hc
  refine ⟨hstopping, fun later => ?_⟩
  obtain ⟨f', w', hlater, hafter⟩ := Fleet.obeys_follow later hobeys.numbered w
  refine ⟨f', w', hlater, hafter.stays hstopping, hafter.waits hstopping, fun x hx htwice => ?_⟩
  obtain ⟨x', hx', hindex, hleft⟩ := hafter.sooner hstopping x hx
  have hmost := x.stage.left_le
  exact ⟨x', hx', hindex, Stage.ended_of_left (by omega)⟩

end Serving

namespace Stricken

/-- The kernel claims to have given the first of two reactors more than it had room for, and fails
the first wait of the second. -/
def world : World Script :=
  { level := .off
    kernel :=
      { queues := [(3,
          [.connection none ⟨2, 16, ⟨.unspecified, 40001⟩⟩ true { giving := [.claimed 9] }])]
        waits := [
          (.reactor 0, [
            { ready := [(3, { readable := true })] },
            { ready := [(5, { writable := true })] },
            { ready := [(5, { readable := true })] }]),
          (.reactor 1, [{ errno := some .badDescriptor }])] } }

def settings : Settings :=
  { workers := 2, receiveChunk := 8 }

def fleet : Fleet :=
  { settings := Fleet.shardSettings settings, waitingListeners := [3, 4] }

@[irreducible] def opened : World Script :=
  (Serving.assemble settings world).2

theorem assemble_settings : Serving.assemble settings world = (.ok fleet, opened) :=
  Prod.ext (by decide +kernel) (by rw [opened])

/-- A reactor that has served nothing. -/
def idle (listener : Descriptor) : Reactor :=
  { listener, multiplexor := .poll, settings := fleet.settings, registry := { capacity := 1000 } }

def running (first second : Stage) : Fleet :=
  { fleet with waitingListeners := [], shards := [⟨0, first⟩, ⟨1, second⟩] }

/-- The first wait of the second reactor comes back before the first reactor has begun one. -/
def schedule : List Turn :=
  [.main, .main, .shard 0, .shard 1, .shard 1, .shard 1]

@[irreducible] def failed : World Script :=
  (fleet.follow schedule opened).2

def half : Fleet :=
  running (.looping (idle 3) 0) (.ended (.failed (.system "poll" .badDescriptor)))

theorem stopping_of_half :
    fleet.follow schedule opened = (.ok half, failed) ∧ failed.stopping ∧
      ∃ f w, half.follow [.shard 0, .shard 0] failed = (.ok f, w) ∧ w.stopping ∧
        ∃ x ∈ f.shards, x.index = 0 ∧ ∃ o, x.stage = .ended o := by
  have hhalf : fleet.follow schedule opened = (.ok half, failed) :=
    Prod.ext (by decide +kernel) (by rw [failed])
  obtain ⟨f, w, hfollow, hconcluded⟩ := Serving.stopping_of_concluded assemble_settings schedule
  cases hfollow.symm.trans hhalf
  obtain ⟨hstopping, hlater⟩ := hconcluded ⟨_, .tail _ (.head _), _, rfl, nofun⟩
  obtain ⟨f', w', hafter, hstill, -, hended⟩ := hlater [.shard 0, .shard 0]
  exact ⟨hhalf, hstopping, f', w', hafter, hstill, hended _ (.head _) (by decide)⟩

/-- The first reactor has ended with a defect, and the second begins a wait all the same. -/
theorem waiting_of_defect : ∃ w w',
    Serving.assemble settings world = (.ok fleet, opened) ∧
      fleet.follow ([.main, .main, .shard 1] ++ List.replicate 7 (.shard 0)) opened =
        (.ok (running (.ended (.defect (.receiveOverrun 9 8))) (.looping (idle 4) 0)), w) ∧
      w.stopping = false ∧
      (running (.ended (.defect (.receiveOverrun 9 8))) (.looping (idle 4) 0)).follow [.shard 1] w =
        (.ok (running (.ended (.defect (.receiveOverrun 9 8)))
          (.waiting (idle 4) 0 ⟨[⟨4, .read⟩], 4, fleet.settings.waitLimit⟩)), w') ∧
      w'.stopping = false :=
  ⟨_, _, assemble_settings, Prod.ext (by decide +kernel) rfl, by decide +kernel,
    Prod.ext (by decide +kernel) rfl, by decide +kernel⟩

end Stricken

end SpanEcho

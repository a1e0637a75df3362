import SpanEcho.Proofs.Reactor.Regular
import SpanEcho.Proofs.Serving
import SpanEcho.Proofs.Stopping

/-!
# What comes of a fleet

Once every thread of a fleet has ended, the answer is put together from how they ended, in the order
of their numbers and not of time: the sum of all counters, or the first failure. If a thread cannot
be started, no other is, and those that were are waited for; then that failure is the answer,
whatever they came to.
-/

namespace SpanEcho

open SpanEcho.Action

/-! ## Sums -/

namespace Tally

/-- Every connection accepted was closed or is live. -/
def Balanced (t : Tally) : Prop :=
  t.accepts = t.closes + t.live

/-- The sum of tallies, field by field. -/
def sum (tallies : List Tally) : Tally :=
  { loops := (tallies.map (·.loops)).sum
    accepts := (tallies.map (·.accepts)).sum
    receives := (tallies.map (·.receives)).sum
    sends := (tallies.map (·.sends)).sum
    closes := (tallies.map (·.closes)).sum
    bytesIn := (tallies.map (·.bytesIn)).sum
    bytesOut := (tallies.map (·.bytesOut)).sum
    errors := (tallies.map (·.errors)).sum
    acceptErrors := (tallies.map (·.acceptErrors)).sum
    live := (tallies.map (·.live)).sum }

theorem sum_cons (t : Tally) (rest : List Tally) : sum (t :: rest) = t + sum rest :=
  Tally.ext rfl rfl rfl rfl rfl rfl rfl rfl rfl rfl

theorem Balanced.add {a b : Tally} (ha : a.Balanced) (hb : b.Balanced) : (a + b).Balanced := by
  change a.accepts + b.accepts = (a.closes + b.closes) + (a.live + b.live)
  rw [ha, hb, Nat.add_add_add_comm]

theorem balanced_sum {tallies : List Tally} (h : ∀ t ∈ tallies, t.Balanced) :
    (sum tallies).Balanced := by
  induction tallies with
  | nil => rfl
  | cons t rest ih =>
    obtain ⟨ht, hrest⟩ := List.forall_mem_cons.mp h
    rw [sum_cons]
    exact ht.add (ih hrest)

end Tally

/-- Why a thread has no counters to give, if it has none. -/
def Outcome.trouble? : Outcome Tally → Option Failure
  | .ok _ => none
  | .failed why => some why
  | .defect _ => some (.settings "reactor thread panicked")

theorem Outcome.not_isOk_of_trouble? {o : Outcome Tally} {why : Failure}
    (h : o.trouble? = some why) : ¬ o.isOk := by
  cases o with
  | ok tally => cases h
  | failed e => exact nofun
  | defect d => exact nofun

namespace Fleet

variable {front back outcomes : List (Outcome Tally)} {bad : Outcome Tally} {why : Failure}

theorem join_counted (tallies : List Tally) : join (tallies.map .ok) = .ok (.sum tallies) := by
  induction tallies with
  | nil => rfl
  | cons t rest ih => rw [List.map_cons, join, ih, Tally.sum_cons]

/-- The first thread in trouble decides. -/
theorem join_troubled (hfront : ∀ o ∈ front, o.isOk) (hbad : bad.trouble? = some why) :
    join (front ++ bad :: back) = .error why := by
  induction front with
  | nil =>
    cases bad with
    | ok tally => cases hbad
    | failed e =>
      cases hbad
      rfl
    | defect d =>
      cases hbad
      rfl
  | cons o front ih =>
    obtain ⟨ho, hrest⟩ := List.forall_mem_cons.mp hfront
    cases o with
    | ok tally => rw [List.cons_append, join, ih hrest]
    | failed e => cases ho
    | defect d => cases ho

/-- Either all have counters to give, or there is a first that has none. -/
theorem counted_or_troubled (outcomes : List (Outcome Tally)) :
    (∃ tallies : List Tally, outcomes = tallies.map .ok) ∨
      ∃ front bad back why, outcomes = front ++ bad :: back ∧ (∀ o ∈ front, o.isOk) ∧
        bad.trouble? = some why := by
  induction outcomes with
  | nil => exact .inl ⟨[], rfl⟩
  | cons o rest ih =>
    cases o with
    | ok tally =>
      rcases ih with ⟨tallies, rfl⟩ | ⟨front, bad, back, why, rfl, hfront, hbad⟩
      · exact .inl ⟨tally :: tallies, rfl⟩
      · exact .inr ⟨.ok tally :: front, bad, back, why, rfl, List.forall_mem_cons.mpr ⟨rfl, hfront⟩,
          hbad⟩
    | failed why => exact .inr ⟨[], .failed why, rest, why, rfl, nofun, rfl⟩
    | defect d => exact .inr ⟨[], .defect d, rest, _, rfl, nofun, rfl⟩

/-- The answer is a total if and only if all have counters to give. -/
theorem join_isOk_iff : (∃ total, join outcomes = .ok total) ↔ ∀ o ∈ outcomes, o.isOk := by
  rcases counted_or_troubled outcomes with
    ⟨tallies, rfl⟩ | ⟨front, bad, back, why, rfl, hfront, hbad⟩
  · exact iff_of_true ⟨_, join_counted tallies⟩ (by simp [Outcome.isOk])
  · refine iff_of_false ?_ fun hok => ?_
    · rintro ⟨total, htotal⟩
      cases htotal.symm.trans (join_troubled hfront hbad)
    · exact Outcome.not_isOk_of_trouble? hbad
        (hok bad (List.mem_append_right front List.mem_cons_self))

/-! ## Conclusions -/

/-- All threads have ended. -/
def Ended (f : Fleet) : Prop :=
  ∀ x ∈ f.shards, ∃ o, x.stage = .ended o

theorem mapM_outcome_eq_some {shards : List Shard} :
    shards.mapM Shard.outcome? = some outcomes ↔ shards.map (·.stage) = outcomes.map .ended := by
  induction shards generalizing outcomes with
  | nil => cases outcomes <;> simp
  | cons x rest ih =>
    rw [List.mapM_cons, List.map_cons]
    constructor
    · intro h
      obtain ⟨o, hx, h⟩ := Option.bind_eq_some_iff.mp h
      obtain ⟨others, hrest, h⟩ := Option.bind_eq_some_iff.mp h
      cases h
      rw [List.map_cons, ih.mp hrest]
      cases hstage : x.stage with
      | ended o' =>
        rw [Shard.outcome?, hstage] at hx
        cases hx
        rfl
      | _ =>
        rw [Shard.outcome?, hstage] at hx
        cases hx
    · intro h
      cases outcomes with
      | nil => cases h
      | cons o others =>
        obtain ⟨hx, hrest⟩ := List.cons.inj h
        rw [ih.mpr hrest, Shard.outcome?, hx]
        rfl

variable {f : Fleet}

theorem Ended.stages (h : f.Ended) :
    ∃ outcomes : List (Outcome Tally), f.shards.map (·.stage) = outcomes.map .ended := by
  unfold Ended at h
  generalize f.shards = shards at h
  induction shards with
  | nil => exact ⟨[], rfl⟩
  | cons x rest ih =>
    obtain ⟨⟨o, hx⟩, hrest⟩ := List.forall_mem_cons.mp h
    obtain ⟨outcomes, houtcomes⟩ := ih hrest
    exact ⟨o :: outcomes, by rw [List.map_cons, hx, houtcomes, List.map_cons]⟩

theorem ended_of_stages (h : f.shards.map (·.stage) = outcomes.map .ended) : f.Ended := by
  intro x hx
  have hstage : x.stage ∈ outcomes.map Stage.ended := h ▸ List.mem_map_of_mem hx
  obtain ⟨o, -, ho⟩ := List.mem_map.mp hstage
  exact ⟨o, ho.symm⟩

variable {κ : Type} [Kernel κ]

/-- While a thread is running there is no answer. -/
theorem conclude_running (h : ¬ f.Ended) (w : World κ) : f.conclude w = (.ok none, w) := by
  have hnone : f.outcomes? = none := by
    cases houtcomes : f.outcomes? with
    | none => rfl
    | some outcomes =>
      unfold outcomes? at houtcomes
      split at houtcomes
      · exact absurd (ended_of_stages (mapM_outcome_eq_some.mp houtcomes)) h
      · cases houtcomes
  simp only [conclude, hnone]
  rfl

theorem conclude_refused (hended : f.Ended) (hfailure : f.spawnFailure = some why) (w : World κ) :
    (f.conclude w).1 = .failed why := by
  obtain ⟨outcomes, hstages⟩ := hended.stages
  have houtcomes : f.outcomes? = some outcomes := by
    rw [outcomes?, if_pos (.inl (by rw [hfailure]; rfl))]
    exact mapM_outcome_eq_some.mpr hstages
  obtain ⟨_, w', hclose⟩ : ∃ a w', Socket.closeAll f.waitingListeners w = (.ok a, w') :=
    Socket.sure_closeAll _ w
  simp only [conclude, houtcomes, hfailure]
  rw [bind_of_ok hclose]
  rfl

theorem conclude_joined (hfailure : f.spawnFailure = none) (hwaiting : f.waitingListeners = [])
    (hstages : f.shards.map (·.stage) = outcomes.map .ended) (w : World κ) :
    (f.conclude w).1 = match join outcomes with
      | .ok total => .ok (some total)
      | .error why => .failed why := by
  have houtcomes : f.outcomes? = some outcomes := by
    rw [outcomes?, if_pos (.inr (by rw [hwaiting]; rfl))]
    exact mapM_outcome_eq_some.mpr hstages
  simp only [conclude, houtcomes, hfailure]
  cases join outcomes <;> rfl

end Fleet

/-! ## Counters of a thread -/

namespace Stage

/-- The counters of a thread are in order, those it goes by and those it has given. -/
def Counted : Stage → Prop
  | .created _ => True
  | .looping r _ | .waiting r _ _ => r.Regular
  | .ended o => ∀ tally, o = .ok tally → tally.Balanced

/-- The reactor of the thread stands at these counters, between two passes. -/
def StandsAt (stage : Stage) (tally : Tally) : Prop :=
  ∃ r last, stage = .looping r last ∧ tally = r.stats

theorem Counted.balanced {stage : Stage} {tally : Tally} (h : stage.Counted)
    (htally : stage.StandsAt tally) : tally.Balanced := by
  obtain ⟨r, last, rfl, rfl⟩ := htally
  exact Reactor.Regular.balanced h

end Stage

namespace Shard

/-- What a turn does to the counters of its thread: they stay in order, and those that the thread
ends with are what its reactor stood at. -/
structure Counts (stage stage' : Stage) : Prop where
  counted : stage.Counted → stage'.Counted
  given : ∀ tally, stage' = .ended (.ok tally) → stage' = stage ∨ stage.StandsAt tally

theorem Counts.refl (stage : Stage) : Counts stage stage :=
  ⟨fun h => h, fun _ _ => .inl rfl⟩

variable {κ α : Type} [Kernel κ] {index : Nat} {r : Reactor} {stage stage' : Stage} {w w' : World κ}
  {o : Outcome Tally}

omit [Kernel κ] in
theorem counts_conclude (h : conclude index o w = (.ok stage', w'))
    (ho : ∀ tally, o = .ok tally → stage.StandsAt tally) : Counts stage stage' := by
  have hended : stage' = .ended o := by
    cases o <;> cases h <;> rfl
  subst hended
  refine ⟨fun hcounted tally htally => hcounted.balanced (ho tally htally), fun tally htally => ?_⟩
  cases htally
  exact .inr (ho tally rfl)

theorem counts_close (h : close index r o w = (.ok stage', w'))
    (ho : ∀ tally, o = .ok tally → stage.StandsAt tally) : Counts stage stage' := by
  obtain ⟨_, w₁, -, hconclude⟩ := bind_eq_ok.mp h
  exact counts_conclude hconclude ho

theorem counts_carryOn {m : Loop κ α} {next : α → Reactor → Sys κ Stage}
    (hnext : ∀ a n, m ⟨r, w⟩ = (.ok a, n) → next a n.reactor n.world = (.ok stage', w') →
      Counts stage stage')
    (h : carryOn index r m next w = (.ok stage', w')) : Counts stage stage' := by
  unfold carryOn at h
  split at h <;> rename_i heq
  · exact hnext _ _ heq h
  · exact counts_close h nofun
  · exact counts_close h nofun

omit [Kernel κ] in
/-- A thread that goes on has given nothing yet. -/
theorem counts_on {last : Duration} (hr : stage.Counted → r.Regular)
    (h : (pure (.looping r last) : Sys κ Stage) w = (.ok stage', w')) : Counts stage stage' := by
  cases h
  exact ⟨hr, nofun⟩

theorem counts_turn {s : Settings} (h : turn s index stage w = (.ok stage', w')) :
    Counts stage stage' := by
  cases stage with
  | created listener =>
    simp only [turn, bind_apply, Action.observe] at h
    rcases hcreate : Reactor.create listener s.method.multiplexor s w with ⟨o, w₁⟩
    rw [hcreate] at h
    cases o with
    | ok r =>
      have hregular : r.Regular := by
        rw [(Reactor.create_ok hcreate).1]
        exact Reactor.regular_fresh _ _ s
      refine counts_carryOn (fun last n hn hon => counts_on (fun _ => ?_) hon) h
      have hstarted := (Node.idling_start.idle ⟨r, w₁⟩).continued hregular
      rw [hn] at hstarted
      exact hstarted.regular
    | failed why => exact counts_conclude h fun _ hfailed => by cases hfailed
    | defect d => exact counts_conclude h fun _ hdefect => by cases hdefect
  | looping r last =>
    change (if w.stopping then _ else _ : Sys κ Stage) w = _ at h
    split at h
    · refine counts_carryOn (fun tally n hn hclose => counts_close hclose ?_) h
      rintro _ ⟨⟩
      exact ⟨r, last, rfl, (Outcome.ok.inj (congrArg Prod.fst hn)).symm⟩
    · refine counts_carryOn (fun plan n hn hon => ?_) h
      cases hon
      refine ⟨fun hregular => ?_, fun _ h => by cases h⟩
      have hprepared := (Node.idling_prepare.idle ⟨r, w⟩).continued hregular
      rw [hn] at hprepared
      exact hprepared.regular
  | waiting r last plan =>
    rw [turn] at h
    refine counts_carryOn (fun last' n hn hon => counts_on (fun hregular => ?_) hon) h
    obtain ⟨ready, n₁, hcomplete, hreport⟩ := bind_eq_ok.mp hn
    have hcompleted := Node.continued_complete (n := ⟨r, w⟩) plan hregular
    rw [hcomplete] at hcompleted
    have hreported := ((Node.idling_report last).idle n₁).continued hcompleted.regular
    rw [hreport] at hreported
    exact hreported.regular
  | ended o =>
    cases h
    exact .refl _

end Shard

/-! ## Turns of the fleet -/

namespace Fleet

/-- Threads are told apart by their numbers. -/
theorem Numbered.eq_of_index {f : Fleet} {x y : Shard} (hf : f.Numbered) (hx : x ∈ f.shards)
    (hy : y ∈ f.shards) (h : x.index = y.index) : x = y := by
  obtain ⟨front, back, hshards⟩ := List.append_of_mem hx
  have hcases : y = x ∨ y ∈ front ++ back := by
    rw [hshards] at hy
    simpa [or_left_comm] using hy
  rcases hcases with hsame | hother
  · exact hsame.symm
  · exact absurd h.symm (hf.others hshards y hother)

/-- What a turn may make of a fleet. -/
inductive Took (κ : Type) [Kernel κ] (f : Fleet) : Fleet → Prop
  /-- There was nothing to start, or no such thread. -/
  | idle : Took κ f f
  | started {listener : Descriptor} {rest : List Descriptor} (failure : f.spawnFailure = none)
      (waiting : f.waitingListeners = listener :: rest) :
      Took κ f { f with
        waitingListeners := rest, shards := f.shards ++ [⟨f.shards.length, .created listener⟩] }
  | refused {listener : Descriptor} {rest : List Descriptor} {why : Failure}
      (failure : f.spawnFailure = none) (waiting : f.waitingListeners = listener :: rest) :
      Took κ f { f with waitingListeners := rest, spawnFailure := some why }
  | turned {front back : List Shard} {x : Shard} {stage : Stage} {w w' : World κ}
      (shards : f.shards = front ++ x :: back)
      (turn : Shard.turn f.settings x.index x.stage w = (.ok stage, w')) :
      Took κ f { f with shards := front ++ { x with stage } :: back }

variable {κ : Type} [Kernel κ] {f f' : Fleet} {w w' : World κ} {turns later : List Turn}

/-- A turn of a thread is one of the thread of that number, if there is one. -/
theorem turnOf_turned {s : Settings} {index : Nat} {shards shards' : List Shard}
    (h : turnOf s index shards w = (.ok shards', w')) : shards' = shards ∨
      ∃ front x back stage, ∃ w₁ w₂ : World κ, shards = front ++ x :: back ∧
        Shard.turn s x.index x.stage w₁ = (.ok stage, w₂) ∧
        shards' = front ++ { x with stage } :: back := by
  induction shards generalizing shards' w w' with
  | nil => exact .inl (Outcome.ok.inj (congrArg Prod.fst h)).symm
  | cons x rest ih =>
    rw [turnOf] at h
    split at h
    · rename_i hindex
      obtain ⟨_, w₁, -, h⟩ := bind_eq_ok.mp h
      obtain ⟨stage, w₂, hturn, h⟩ := bind_eq_ok.mp h
      obtain ⟨_, _, -, h⟩ := bind_eq_ok.mp h
      cases h
      rw [← hindex] at hturn
      exact .inr ⟨[], x, rest, stage, w₁, w₂, rfl, hturn, rfl⟩
    · obtain ⟨others, w₁, hrest, h⟩ := bind_eq_ok.mp h
      cases h
      rcases ih hrest with rfl | ⟨front, y, back, stage, w₂, w₃, rfl, hturn, rfl⟩
      · exact .inl rfl
      · exact .inr ⟨x :: front, y, back, stage, w₂, w₃, rfl, hturn, rfl⟩

/-- The turn of the main thread at which a thread cannot be started. -/
theorem spawnNext_refused {listener : Descriptor} {rest : List Descriptor} {errno : Errno}
    (hfailure : f.spawnFailure = none) (hwaiting : f.waitingListeners = listener :: rest)
    (hspawn : (w.call (.spawn f.shards.length)).1 = .failed errno) :
    ∃ f' w', f.spawnNext w = (.ok f', w') ∧ f'.spawnFailure = some (.system "spawn" errno) ∧
      f'.shards = f.shards ∧ w'.stopAsked := by
  simp only [spawnNext, hfailure, hwaiting, bind_apply, Sys.call, hspawn]
  exact ⟨_, _, rfl, rfl, rfl, rfl⟩

theorem took_step {t : Turn} (h : f.step t w = (.ok f', w')) : Took κ f f' := by
  cases t with
  | main =>
    change f.spawnNext w = _ at h
    cases hfailure : f.spawnFailure with
    | some why =>
      simp only [spawnNext, hfailure] at h
      cases h
      exact .idle
    | none =>
    cases hwaiting : f.waitingListeners with
    | nil =>
      simp only [spawnNext, hfailure, hwaiting] at h
      cases h
      exact .idle
    | cons listener rest =>
      simp only [spawnNext, hfailure, hwaiting, bind_apply, Sys.call] at h
      cases hspawn : (w.call (.spawn f.shards.length)).1 with
      | ok _ =>
        rw [hspawn] at h
        cases h
        have hstarted := Took.started (κ := κ) hfailure hwaiting
        rwa [hfailure] at hstarted
      | failed errno =>
        rw [hspawn] at h
        cases h
        exact Took.refused (κ := κ) hfailure hwaiting
      | notOpen =>
        rw [hspawn] at h
        cases h
        exact Took.refused (κ := κ) hfailure hwaiting
  | shard index =>
    obtain ⟨shards, w₁, hturn, h⟩ := bind_eq_ok.mp h
    cases h
    rcases turnOf_turned hturn with rfl | ⟨front, x, back, stage, w₂, w₃, hshards, hstage, rfl⟩
    · exact .idle
    · exact .turned hshards hstage

/-- What every turn keeps, every schedule keeps. -/
theorem follow_keeps {I : Fleet → Prop} (hI : ∀ f f', Took κ f f' → I f → I f') (hf : I f)
    (h : follow turns f w = (.ok f', w')) : I f' := by
  induction turns generalizing f w with
  | nil =>
    cases h
    exact hf
  | cons t rest ih =>
    obtain ⟨f₁, w₁, hstep, hrest⟩ := bind_eq_ok.mp h
    exact ih (hI f f₁ (took_step hstep) hf) hrest

theorem follow_append (h : follow turns f w = (.ok f', w')) :
    follow (turns ++ later) f w = follow later f' w' := by
  induction turns generalizing f w with
  | nil =>
    cases h
    rfl
  | cons t rest ih =>
    obtain ⟨f₁, w₁, hstep, hrest⟩ := bind_eq_ok.mp h
    rw [List.cons_append, follow, bind_of_ok hstep, ih hrest]

/-- Each listener is with a thread, waits for one, or is the one that got none; and the counters of
every thread are in order. -/
structure Staffed (workers : Nat) (f : Fleet) : Prop where
  complete : f.shards.length + f.waitingListeners.length + f.spawnFailure.toList.length = workers
  counted : ∀ x ∈ f.shards, x.stage.Counted

section

variable {workers : Nat} {outcomes : List (Outcome Tally)}

/-- As many threads as there are to be means that none is still to be started and none
was refused. -/
theorem Staffed.all_started (hf : Staffed workers f) (hall : f.shards.length = workers) :
    f.spawnFailure = none ∧ f.waitingListeners = [] := by
  have hcomplete := hf.complete
  exact ⟨Option.toList_eq_nil_iff.mp (List.length_eq_zero_iff.mp (by omega)),
    List.length_eq_zero_iff.mp (by omega)⟩

theorem Staffed.some_waiting (hf : Staffed workers f) (hfailure : f.spawnFailure = none)
    (hfewer : f.shards.length < workers) :
    ∃ listener rest, f.waitingListeners = listener :: rest := by
  have hcomplete := hf.complete
  rw [hfailure, Option.toList_none, List.length_nil] at hcomplete
  exact List.exists_cons_of_length_pos (by omega)

/-- The counters that a thread has given are in order. -/
theorem Staffed.balanced (hf : Staffed workers f)
    (hstages : f.shards.map (·.stage) = outcomes.map .ended) {tally : Tally}
    (h : .ok tally ∈ outcomes) : tally.Balanced := by
  have hstage : Stage.ended (.ok tally) ∈ f.shards.map (·.stage) :=
    hstages ▸ List.mem_map_of_mem h
  obtain ⟨x, hx, hended⟩ := List.mem_map.mp hstage
  have hcounted := hf.counted x hx
  rw [hended] at hcounted
  exact hcounted tally rfl

end

omit [Kernel κ] in
/-- Asked to stop, all threads have ended after two turns each. -/
theorem Obeys.ended_of_twice (h : Obeys turns f w f' w') (hf : f.Numbered) (hw : w.stopping)
    (hindices : f'.shards.map (·.index) = f.shards.map (·.index))
    (htwice : ∀ index < f.shards.length, 2 ≤ turns.count (.shard index)) : f'.Ended := by
  intro x' hx'
  obtain ⟨x, hx, hindex⟩ : ∃ x ∈ f.shards, x.index = x'.index :=
    List.mem_map.mp (hindices ▸ List.mem_map_of_mem hx')
  obtain ⟨y, hy, hsame, hleft⟩ := h.sooner hw x hx
  obtain rfl := h.numbered.eq_of_index hy hx' (hsame.trans hindex)
  have hlt : x.index < f.shards.length := by
    rw [← List.mem_range, ← show f.shards.map (·.index) = _ from hf]
    exact List.mem_map_of_mem hx
  have hmost := x.stage.left_le
  have hturns := htwice x.index hlt
  exact Stage.ended_of_left (by omega)

theorem Took.staffed {workers : Nat} (h : Took κ f f') (hf : Staffed workers f) :
    Staffed workers f' := by
  obtain ⟨hcomplete, hcounted⟩ := hf
  cases h with
  | idle => exact ⟨hcomplete, hcounted⟩
  | @started listener rest failure waiting =>
    rw [waiting] at hcomplete
    refine ⟨?_, fun x hx => ?_⟩
    · rw [List.length_append, List.length_singleton, Nat.add_assoc (f.shards.length) 1,
        Nat.add_comm 1]
      exact hcomplete
    · rcases List.mem_append.mp hx with hx | hx
      · exact hcounted x hx
      · rw [List.mem_singleton.mp hx]
        trivial
  | @refused listener rest why failure waiting =>
    rw [waiting, failure] at hcomplete
    refine ⟨?_, hcounted⟩
    rw [← hcomplete]
    simp only [List.length_cons, Option.toList, List.length_nil]
    omega
  | @turned front back x stage w w' shards turn =>
    refine ⟨?_, fun y hy => ?_⟩
    · rw [shards] at hcomplete
      simpa using hcomplete
    · rw [shards] at hcounted
      rcases List.mem_append.mp hy with hy | hy
      · exact hcounted y (List.mem_append_left _ hy)
      rcases List.mem_cons.mp hy with rfl | hy
      · exact (Shard.counts_turn turn).counted
          (hcounted x (List.mem_append_right _ List.mem_cons_self))
      · exact hcounted y (List.mem_append_right _ (List.mem_cons_of_mem _ hy))

/-- The counters that a thread has given when a turn is over were given before, or are what its
reactor stood at. -/
theorem Took.given (h : Took κ f f') {x : Shard} (hx : x ∈ f'.shards) {tally : Tally}
    (htally : x.stage = .ended (.ok tally)) :
    x ∈ f.shards ∨ ∃ y ∈ f.shards, y.index = x.index ∧ y.stage.StandsAt tally := by
  cases h with
  | idle => exact .inl hx
  | started failure waiting =>
    rcases List.mem_append.mp hx with hx | hx
    · exact .inl hx
    · cases List.mem_singleton.mp hx
      cases htally
  | refused failure waiting => exact .inl hx
  | @turned front back y stage w w' shards turn =>
    rw [shards]
    rcases List.mem_append.mp hx with hx | hx
    · exact .inl (List.mem_append_left _ hx)
    rcases List.mem_cons.mp hx with rfl | hx
    · have hy : y ∈ front ++ y :: back := List.mem_append_right _ List.mem_cons_self
      rcases (Shard.counts_turn turn).given tally htally with hsame | hstands
      · subst hsame
        exact .inl hy
      · exact .inr ⟨y, hy, rfl, hstands⟩
    · exact .inl (List.mem_append_right _ (List.mem_cons_of_mem _ hx))

/-- A thread that gives its counters in the course of a schedule has stood at them at some
point of it. -/
theorem given_of_follow {x : Shard} {tally : Tally} (h : follow turns f w = (.ok f', w'))
    (hx : x ∈ f'.shards) (htally : x.stage = .ended (.ok tally)) :
    x ∈ f.shards ∨ ∃ before f₁ w₁, before <+: turns ∧ follow before f w = (.ok f₁, w₁) ∧
      ∃ y ∈ f₁.shards, y.index = x.index ∧ y.stage.StandsAt tally := by
  induction turns generalizing f w with
  | nil =>
    cases h
    exact .inl hx
  | cons t rest ih =>
    obtain ⟨f₁, w₁, hstep, hrest⟩ := bind_eq_ok.mp h
    rcases ih hrest with hx₁ | ⟨before, f₂, w₂, hbefore, hfollow, hstood⟩
    · rcases (took_step hstep).given hx₁ htally with hx₀ | hstood
      · exact .inl hx₀
      · exact .inr ⟨[], f, w, List.nil_prefix, rfl, hstood⟩
    · refine .inr ⟨t :: before, f₂, w₂, List.cons_prefix_cons.mpr ⟨rfl, hbefore⟩, ?_, hstood⟩
      exact (bind_of_ok hstep).trans hfollow

/-- Once a thread could not be started, no other is, and the failure stays. -/
theorem Took.refusing {why : Failure} {indices : List Nat} (h : Took κ f f')
    (hf : f.spawnFailure = some why ∧ f.shards.map (·.index) = indices) :
    f'.spawnFailure = some why ∧ f'.shards.map (·.index) = indices := by
  obtain ⟨hfailure, hindices⟩ := hf
  cases h with
  | idle => exact ⟨hfailure, hindices⟩
  | started failure waiting => cases hfailure.symm.trans failure
  | refused failure waiting => cases hfailure.symm.trans failure
  | turned shards turn =>
    rw [shards] at hindices
    exact ⟨hfailure, by simpa using hindices⟩

end Fleet

open Fleet

namespace Serving

variable {κ : Type} [Kernel κ] {s : Settings} {w₀ w₁ w : World κ} {f₀ f : Fleet} {turns : List Turn}

theorem length_of_openMore {port : Nat} {backlog : Int} {count : Nat}
    {opened listeners : List Descriptor}
    (h : openMore port backlog opened count w₀ = (.ok listeners, w₁)) :
    listeners.length = opened.length + count := by
  induction count generalizing opened w₀ with
  | zero =>
    cases h
    rfl
  | succ count ih =>
    obtain ⟨fd, w₂, -, hrest⟩ := bind_eq_ok.mp h
    rw [ih hrest, List.length_append, List.length_singleton, Nat.add_assoc, Nat.add_comm 1]

/-- Before the first thread is started, as many listeners wait as there are to be threads. -/
theorem staffed_of_assemble (hseveral : 1 < s.workers) (h : assemble s w₀ = (.ok f₀, w₁)) :
    Staffed s.workers f₀ := by
  obtain ⟨first, _, -, h⟩ := bind_eq_ok.mp h
  obtain ⟨port, _, -, h⟩ := bind_eq_ok.mp h
  obtain ⟨listeners, _, hmore, h⟩ := bind_eq_ok.mp h
  obtain ⟨_, _, -, h⟩ := bind_eq_ok.mp h
  cases h
  refine ⟨?_, fun x hx => absurd hx List.not_mem_nil⟩
  have hlength := length_of_openMore hmore
  simp only [List.length_nil, List.length_singleton, Option.toList] at hlength ⊢
  omega

theorem serve_fleet (hvalid : s.failure? = none) (hseveral : 1 < s.workers)
    (hassemble : assemble s w₀ = (.ok f₀, w₁)) (hfollow : follow turns f₀ w₁ = (.ok f, w))
    (most : Nat) : serve most turns s w₀ = f.conclude w := by
  have hchecked : Action.failIf (none : Option Failure) w₀ = (.ok (), w₀) := rfl
  rw [serve, hvalid, bind_of_ok hchecked, if_neg (Nat.ne_of_gt hseveral), bind_of_ok hassemble,
    bind_of_ok hfollow]

/-- **The answer of a fleet.** Whatever the schedule: once all threads were started and have ended,
the server answers if and only if each of them gave its counters, which are those that its reactor
had at the end, and then it answers their sum, in which every connection accepted was closed or is
live; if not, it fails as the first in the order of their numbers that did not, a defect counting as
a failure too. If a thread cannot be started, there is a request to stop, no other thread is ever
started, each that was ends within two more turns of its own, and when all have ended the server
fails for the thread it could not start. -/
theorem result_of_fleet (hvalid : s.failure? = none) (hseveral : 1 < s.workers)
    (hassemble : assemble s w₀ = (.ok f₀, w₁)) (most : Nat) (turns : List Turn) :
    ∃ f w, f₀.follow turns w₁ = (.ok f, w) ∧ serve most turns s w₀ = f.conclude w ∧
      f.shards.map (·.index) = List.range f.shards.length ∧
      (∀ x ∈ f.shards, ∀ tally, x.stage = .ended (.ok tally) →
        ∃ before f' w', before <+: turns ∧ f₀.follow before w₁ = (.ok f', w') ∧
          ∃ x' ∈ f'.shards, x'.index = x.index ∧ x'.stage.StandsAt tally) ∧
      (f.shards.length = s.workers → f.Ended → ∃ outcomes : List (Outcome Tally),
        f.shards.map (·.stage) = outcomes.map .ended ∧
        ((∃ total, (f.conclude w).1 = .ok (some total)) ↔ ∀ o ∈ outcomes, o.isOk) ∧
        (∀ tallies, outcomes = tallies.map .ok → (f.conclude w).1 = .ok (some (.sum tallies)) ∧
          (Tally.sum tallies).accepts = (Tally.sum tallies).closes + (Tally.sum tallies).live) ∧
        ∀ front bad back why, outcomes = front ++ bad :: back → (∀ o ∈ front, o.isOk) →
          bad.trouble? = some why → (f.conclude w).1 = .failed why) ∧
      ∀ errno, f.spawnFailure = none → f.shards.length < s.workers →
        (w.call (.spawn f.shards.length)).1 = .failed errno →
        ∃ f' w', f.step .main w = (.ok f', w') ∧ w'.stopAsked ∧ ∀ later, ∃ f'' w'',
          f'.follow later w' = (.ok f'', w'') ∧
          serve most (turns ++ .main :: later) s w₀ = f''.conclude w'' ∧ w''.stopping ∧
          f''.shards.map (·.index) = List.range f.shards.length ∧
          (¬ f''.Ended → (f''.conclude w'').1 = .ok none) ∧
          (f''.Ended → (f''.conclude w'').1 = .failed (.system "spawn" errno)) ∧
          ((∀ index < f.shards.length, 2 ≤ later.count (.shard index)) → f''.Ended) := by
  have hnumbered₀ : f₀.Numbered := by rw [Numbered, shards_of_assemble hassemble]; rfl
  obtain ⟨f, w, hfollow, hobeys⟩ := obeys_follow turns hnumbered₀ w₁
  have hstaffed : Staffed s.workers f :=
    follow_keeps (fun _ _ h => h.staffed) (staffed_of_assemble hseveral hassemble) hfollow
  have hgiven : ∀ x ∈ f.shards, ∀ tally, x.stage = .ended (.ok tally) →
      ∃ before f' w', before <+: turns ∧ f₀.follow before w₁ = (.ok f', w') ∧
        ∃ x' ∈ f'.shards, x'.index = x.index ∧ x'.stage.StandsAt tally := by
    intro x hx tally htally
    rcases given_of_follow hfollow hx htally with hnone | hstood
    · rw [shards_of_assemble hassemble] at hnone
      cases hnone
    · exact hstood
  refine ⟨f, w, hfollow, serve_fleet hvalid hseveral hassemble hfollow most,
    hobeys.numbered, hgiven, fun hall hended => ?_, fun errno hfailure hfewer hspawn => ?_⟩
  · obtain ⟨outcomes, hstages⟩ := hended.stages
    obtain ⟨hfailure, hwaiting⟩ := hstaffed.all_started hall
    have hconclude := conclude_joined hfailure hwaiting hstages w
    refine ⟨outcomes, hstages, ?_, fun tallies htallies => ⟨?_, ?_⟩,
      fun front bad back why houtcomes hfront hbad => ?_⟩
    · rw [← join_isOk_iff, hconclude]
      cases join outcomes <;> simp
    · rw [hconclude, htallies, join_counted]
    · refine Tally.balanced_sum fun tally htally => hstaffed.balanced hstages ?_
      rw [htallies]
      exact List.mem_map_of_mem htally
    · rw [hconclude, houtcomes, join_troubled hfront hbad]
  · obtain ⟨listener, rest, hwaiting⟩ := hstaffed.some_waiting hfailure hfewer
    obtain ⟨f', w', hstep, hrefused, hshards, hasked⟩ := spawnNext_refused hfailure hwaiting hspawn
    have hnumbered : f'.Numbered := by rw [Numbered, hshards, hobeys.numbered]
    have hstopping : w'.stopping := by rw [World.stopping, hasked]; rfl
    refine ⟨f', w', hstep, hasked, fun later => ?_⟩
    obtain ⟨f'', w'', hlater, hafter⟩ := obeys_follow later hnumbered w'
    obtain ⟨hstill, hindices⟩ : f''.spawnFailure = some (.system "spawn" errno) ∧
        f''.shards.map (·.index) = f'.shards.map (·.index) :=
      follow_keeps (fun _ _ h => h.refusing) ⟨hrefused, rfl⟩ hlater
    have hserve : follow (turns ++ .main :: later) f₀ w₁ = (.ok f'', w'') := by
      rw [follow_append hfollow, follow]
      exact (bind_of_ok hstep).trans hlater
    refine ⟨f'', w'', hlater, serve_fleet hvalid hseveral hassemble hserve most,
      hafter.stays hstopping, ?_, fun hrunning => by rw [conclude_running hrunning],
      fun hended => conclude_refused hended hstill w'', fun htwice => ?_⟩
    · rw [hindices, hshards, hobeys.numbered]
    · exact hafter.ended_of_twice hnumbered hstopping hindices (by rwa [hshards])

end Serving

namespace Refused

def settings : Settings :=
  { workers := 2 }

def fleet : Fleet :=
  { settings := Fleet.shardSettings settings, waitingListeners := [3, 4] }

@[irreducible] def opened : World Script :=
  (Serving.assemble settings world).2

/-- The first thread has been started. -/
def halved : Fleet :=
  { fleet with waitingListeners := [4], shards := [⟨0, .created 3⟩] }

@[irreducible] def begun : World Script :=
  (fleet.follow [.main] opened).2

end Refused

namespace Stricken

/-- The second reactor fails when the first has one more turn to go. -/
def order : List Turn :=
  [.main, .main] ++ List.replicate 6 (.shard 0) ++ List.replicate 3 (.shard 1) ++ [.shard 0]

@[irreducible] def finished : World Script :=
  (fleet.follow order opened).2

def troubled : Fleet :=
  running (.ended (.defect (.receiveOverrun 9 8)))
    (.ended (.failed (.system "poll" .badDescriptor)))

theorem result_of_troubled :
    (Serving.serve 0 order settings world).1 = .failed (.settings "reactor thread panicked") ∧
      ∃ f' w', Refused.halved.step .main Refused.begun = (.ok f', w') ∧ w'.stopAsked ∧
        ∃ f'' w'', f'.follow [.shard 0, .shard 0] w' = (.ok f'', w'') ∧
          f''.shards.map (·.index) = [0] ∧ f''.Ended ∧
          (f''.conclude w'').1 = .failed (.system "spawn" .again) := by
  constructor
  · have htroubled : fleet.follow order opened = (.ok troubled, finished) :=
      Prod.ext (by decide +kernel) (by rw [finished])
    have hended : troubled.Ended := by simp [Fleet.Ended, troubled, running]
    obtain ⟨f, w, hfollow, hserve, -, -, hjoined, -⟩ :=
      Serving.result_of_fleet (by decide) (by decide) assemble_settings 0 order
    cases hfollow.symm.trans htroubled
    obtain ⟨outcomes, hstages, -, -, hfirst⟩ := hjoined rfl hended
    have houtcomes :
        outcomes = [.defect (.receiveOverrun 9 8), .failed (.system "poll" .badDescriptor)] :=
      (List.map_injective_iff.mpr fun _ _ => Stage.ended.inj) hstages.symm
    rw [hserve]
    exact hfirst [] _ _ _ houtcomes nofun rfl
  · have hassemble : Serving.assemble Refused.settings Refused.world =
        (.ok Refused.fleet, Refused.opened) := Prod.ext (by decide +kernel) (by rw [Refused.opened])
    have hbegun :
        Refused.fleet.follow [.main] Refused.opened = (.ok Refused.halved, Refused.begun) :=
      Prod.ext (by decide +kernel) (by rw [Refused.begun])
    have hspawn : (Refused.begun.call (.spawn 1)).1 = .failed .again := by decide +kernel
    obtain ⟨f, w, hfollow, -, -, -, -, hrefused⟩ :=
      Serving.result_of_fleet (by decide) (by decide) hassemble 0 [.main]
    cases hfollow.symm.trans hbegun
    obtain ⟨f', w', hstep, hasked, hlater⟩ := hrefused .again rfl (by decide) hspawn
    obtain ⟨f'', w'', hafter, -, -, hindices, -, hfailed, htwice⟩ := hlater [.shard 0, .shard 0]
    have hended : f''.Ended := htwice (by decide)
    exact ⟨f', w', hstep, hasked, f'', w'', hafter, hindices, hended, hfailed hended⟩

end Stricken

end SpanEcho

import SpanEcho.Proofs.Reactor.Ending
import SpanEcho.Proofs.StartUp

/-!
# Runs from their start to their end, and how long they wait

Whether a reactor is the only one of its server or one of several on threads of their own, it is
started, makes passes as long as nobody asks it to stop and nothing goes wrong, and closes down.
With several there is more: a limit on each wait, so that no thread is without a look for a
request for long. It is set for all of them when the fleet is assembled, and no pause of accepting
makes it longer.
-/

namespace SpanEcho

open SpanEcho.Action Loop Reactor
open Node (Begun Completed Broken Passes Halts carriedOn)

variable {κ : Type} [Kernel κ]

/-! ## Closing down -/

namespace Reactor

omit [Kernel κ] in
/-- From `w` to `w'` all that the reactor holds is closed, its listener first, and no other call is
made. -/
def Closes (r : Reactor) (w w' : World κ) : Prop :=
  ∃ closed, w'.trace = w.trace ++ closed ∧ closed.map (·.call) = r.held.map Call.close

theorem closes_closeAll (r : Reactor) (w : World κ) :
    ∃ w', r.closeAll w = (.ok (), w') ∧ r.Closes w w' := by
  obtain ⟨⟨⟩, w', hclose⟩ := Socket.sure_closeAll r.held w
  obtain ⟨closed, htrace, hcalls⟩ := Socket.trace_closeAll r.held w
  rw [hclose] at htrace
  exact ⟨w', hclose, closed, htrace, hcalls⟩

end Reactor

/-! ## A reactor on its own -/

/-- A reactor is started, without a wait. -/
structure Node.Started (n : Node κ) (last : Duration) (n' : Node κ) : Prop where
  started : start n = (.ok last, n')
  calls : Added (¬ ·.Waits) n.world.past n'.world.past

theorem Node.exists_started (n : Node κ) : ∃ last n', n.Started last n' := by
  obtain ⟨last, n', hstart⟩ := sure_start n
  have hcalls := added_start n
  rw [hstart] at hcalls
  refine ⟨last, n', hstart, hcalls.mono fun c hc => ?_⟩
  rcases hc with rfl | rfl
  · exact id
  · exact id

namespace Serving

/-- How a run of a reactor goes that may make `most` passes: it is started, makes its passes, and
closes down if it ends. -/
inductive Ran (most : Nat) (r : Reactor) (w : World κ) : Outcome (Option Tally) → World κ → Prop
  | unfinished {last : Duration} {n n' : Node κ} (started : Node.Started ⟨r, w⟩ last n)
      (halts : Halts most n last (.ok none) n') : Ran most r w (.ok none) n'.world
  | finished {o : Outcome (Option Tally)} {last : Duration} {n n' : Node κ} {w' : World κ}
      (started : Node.Started ⟨r, w⟩ last n) (halts : Halts most n last o n') (ended : o ≠ .ok none)
      (closes : n'.reactor.Closes n'.world w') : Ran most r w o w'

/-- A reactor whose passes have come to their end closes down; one that has made all it
may does not. -/
theorem runToEnd_cases {most : Nat} {r : Reactor} {w : World κ} {last : Duration} {n n' : Node κ}
    {o : Outcome (Option Tally)} (h : Node.Started ⟨r, w⟩ last n)
    (hpasses : passes last most n = (o, n')) :
    o = .ok none ∧ runToEnd most r w = (.ok none, n'.world) ∨
      o ≠ .ok none ∧ ∃ w', runToEnd most r w = (o, w') ∧ n'.reactor.Closes n'.world w' := by
  have hrun : Reactor.run most ⟨r, w⟩ = (o, n') := (bind_of_ok h.started).trans hpasses
  obtain ⟨w', hclose, hcloses⟩ := n'.reactor.closes_closeAll n'.world
  have hclosed : (do
      n'.reactor.closeAll
      Action.ofOutcome o : Sys κ (Option Tally)) n'.world = (o, w') := bind_of_ok hclose
  unfold runToEnd
  rw [hrun]
  cases o with
  | ok answer =>
    cases answer with
    | none => exact .inl ⟨rfl, rfl⟩
    | some tally => exact .inr ⟨nofun, w', hclosed, hcloses⟩
  | failed why => exact .inr ⟨nofun, w', hclosed, hcloses⟩
  | defect what => exact .inr ⟨nofun, w', hclosed, hcloses⟩

theorem ran_runToEnd (most : Nat) (r : Reactor) (w : World κ) :
    Ran most r w (runToEnd most r w).1 (runToEnd most r w).2 := by
  obtain ⟨last, n, hstarted⟩ := Node.exists_started ⟨r, w⟩
  have hhalts := Node.halts_passes last most n
  rcases hpasses : passes last most n with ⟨o, n'⟩
  rw [hpasses] at hhalts
  rcases runToEnd_cases hstarted hpasses with ⟨rfl, hrun⟩ | ⟨hended, w', hrun, hcloses⟩
  · rw [hrun]
    exact .unfinished hstarted hhalts
  · rw [hrun]
    exact .finished hstarted hhalts hended hcloses

/-- A run answers its counters exactly if it comes to a request to stop without a breakdown. -/
theorem answers_iff (most : Nat) (r : Reactor) (w : World κ) :
    (∃ tally, (runToEnd most r w).1 = .ok (some tally)) ↔
      ∃ last n count n' last', Node.Started ⟨r, w⟩ last n ∧ count ≤ most ∧
        Passes n last count n' last' ∧ n'.world.stopping := by
  obtain ⟨last, n, hstarted⟩ := Node.exists_started ⟨r, w⟩
  have hanswer : (runToEnd most r w).1 = (passes last most n).1 := by
    rcases hpasses : passes last most n with ⟨o, n'⟩
    rcases runToEnd_cases hstarted hpasses with ⟨rfl, hrun⟩ | ⟨-, w', hrun, -⟩ <;> rw [hrun]
  rw [hanswer, Node.answers_iff]
  constructor
  · rintro ⟨count, hle, n', last', hpasses, hasked⟩
    exact ⟨last, n, count, n', last', hstarted, hle, hpasses, hasked⟩
  · rintro ⟨last₁, n₁, count, n', last', hstarted₁, hle, hpasses, hasked⟩
    cases hstarted.started.symm.trans hstarted₁.started
    exact ⟨count, hle, n', last', hpasses, hasked⟩

end Serving

/-! ## A reactor on a thread of its own -/

namespace Shard

/-- What a turn does with a thread: the same that a run does, a step at a time. -/
inductive Turned (s : Settings) : Stage → World κ → Stage → World κ → Prop
  /-- Its reactor is not made. -/
  | refused {listener : Descriptor} {why : Breakdown} {w w' : World κ}
      (calls : Added (¬ ·.Waits) w.past w'.past) :
      Turned s (.created listener) w (.ended why.outcome) w'
  | started {listener : Descriptor} {r : Reactor} {last : Duration} {w w₁ : World κ} {n : Node κ}
      (made : create listener s.method.multiplexor s w = (.ok r, w₁))
      (calls : Added (¬ ·.Waits) w.past w₁.past) (started : Node.Started ⟨r, w₁⟩ last n) :
      Turned s (.created listener) w (.looping n.reactor last) n.world
  | begun {r : Reactor} {last : Duration} {plan : Plan} {w : World κ} {n : Node κ}
      (begun : Begun ⟨r, w⟩ plan n) :
      Turned s (.looping r last) w (.waiting n.reactor last plan) n.world
  | stopped {r : Reactor} {last : Duration} {tally : Tally} {w w' : World κ} {n : Node κ}
      (asked : w.stopping) (finished : finish ⟨r, w⟩ = (.ok tally, n))
      (silent : n.world.past = w.past)
      (closes : n.reactor.Closes n.world w') : Turned s (.looping r last) w (.ended (.ok tally)) w'
  | completed {r : Reactor} {last last' : Duration} {plan : Plan} {w : World κ} {n : Node κ}
      (completed : Completed plan last ⟨r, w⟩ last' n) :
      Turned s (.waiting r last plan) w (.looping n.reactor last') n.world
  | broken {r : Reactor} {last : Duration} {plan : Plan} {why : Breakdown} {w w' : World κ}
      {n : Node κ} (broken : Broken plan ⟨r, w⟩ why n) (closes : n.reactor.Closes n.world w') :
      Turned s (.waiting r last plan) w (.ended why.outcome) w'
  | gone {o : Outcome Tally} {w : World κ} : Turned s (.ended o) w (.ended o) w

omit [Kernel κ] in
/-- The end of a thread makes no call. -/
theorem conclude_apply (index : Nat) (o : Outcome Tally) (w : World κ) :
    ∃ w', conclude index o w = (.ok (.ended o), w') ∧ w'.past = w.past := by
  cases o with
  | ok tally => exact ⟨_, rfl, rfl⟩
  | failed why => exact ⟨_, rfl, World.write_past _ w⟩
  | defect what => exact ⟨_, rfl, rfl⟩

theorem close_apply (index : Nat) (r : Reactor) (o : Outcome Tally) (w : World κ) :
    ∃ w', close index r o w = (.ok (.ended o), w') ∧ r.Closes w w' := by
  obtain ⟨w₁, hclose, closed, htrace, hcalls⟩ := r.closes_closeAll w
  obtain ⟨w', hconclude, hpast⟩ := conclude_apply index o w₁
  refine ⟨w', (bind_of_ok hclose).trans hconclude, closed, ?_, hcalls⟩
  rw [World.trace, hpast, ← htrace, World.trace]

section

variable {α : Type} {m : Loop κ α} {next : α → Reactor → Sys κ Stage} {r : Reactor} {w : World κ}
  {n : Node κ}

theorem carryOn_ok {a : α} (index : Nat) (h : m ⟨r, w⟩ = (.ok a, n)) :
    carryOn index r m next w = next a n.reactor n.world := by
  simp only [carryOn, h]

theorem carryOn_broken {why : Breakdown} (index : Nat) (h : m ⟨r, w⟩ = (why.outcome, n)) :
    carryOn index r m next w = close index n.reactor why.outcome n.world := by
  cases why <;> simp only [carryOn, h, Breakdown.outcome]

end

/-- A turn leaves a thread somewhere, and does what is to be done there. -/
theorem turned_turn (s : Settings) (index : Nat) (stage : Stage) (w : World κ) :
    ∃ stage' w', turn s index stage w = (.ok stage', w') ∧ Turned s stage w stage' w' := by
  cases stage with
  | created listener =>
    have hcalls := ((calling_create listener s.method.multiplexor s).added w).mono
      fun _ => Call.SetsUp.not_waits
    simp only [turn, bind_apply, Action.observe]
    rcases hcreate : create listener s.method.multiplexor s w with ⟨o, w₁⟩
    rw [hcreate] at hcalls
    rcases Breakdown.of_outcome o with ⟨r, rfl⟩ | ⟨why, rfl⟩
    · obtain ⟨last, n, hstarted⟩ := Node.exists_started ⟨r, w₁⟩
      exact ⟨_, _, carryOn_ok index hstarted.started, .started hcreate hcalls hstarted⟩
    · obtain ⟨w', hconclude, hpast⟩ := conclude_apply index why.outcome w₁
      have hrefused : Turned s (.created listener) w (.ended why.outcome) w' :=
        .refused (hpast ▸ hcalls)
      exact ⟨_, w', by cases why <;> exact hconclude, hrefused⟩
  | looping r last =>
    cases hw : w.stopping with
    | true =>
      have hturn : turn s index (.looping r last) w =
          carryOn index r finish (fun tally r => close index r (.ok tally)) w := by
        show (if w.stopping then _ else _ : Sys κ Stage) w = _
        rw [if_pos hw]
      obtain ⟨tally, n, hfinish, hsilent⟩ := finish_apply ⟨r, w⟩
      obtain ⟨w', hclose, hcloses⟩ := close_apply index n.reactor (.ok tally) n.world
      exact ⟨_, w', hturn.trans ((carryOn_ok index hfinish).trans hclose),
        .stopped hw hfinish hsilent hcloses⟩
    | false =>
      have hturn : turn s index (.looping r last) w =
          carryOn index r prepare (fun plan r => pure (.waiting r last plan)) w := by
        show (if w.stopping then _ else _ : Sys κ Stage) w = _
        rw [if_neg (Bool.eq_false_iff.mp hw)]
      obtain ⟨plan, n, hbegun⟩ := Node.begun_of_unasked (n := ⟨r, w⟩) hw
      exact ⟨_, _, hturn.trans (carryOn_ok index hbegun.planned), .begun hbegun⟩
  | waiting r last plan =>
    have hturn : turn s index (.waiting r last plan) w =
        carryOn index r (carriedOn plan last) (fun last r => pure (.looping r last)) w := rfl
    rcases Node.carriedOn_cases plan last ⟨r, w⟩ with
      ⟨last', n, hended, hcompleted⟩ | ⟨why, n, hended, hbroken⟩
    · exact ⟨_, _, hturn.trans (carryOn_ok index hended), .completed hcompleted⟩
    · obtain ⟨w', hclose, hcloses⟩ := close_apply index n.reactor why.outcome n.world
      exact ⟨_, w', hturn.trans ((carryOn_broken index hended).trans hclose),
        .broken hbroken hcloses⟩
  | ended o => exact ⟨_, w, rfl, .gone⟩

end Shard

/-! ## How long the threads of a fleet wait -/

/-- Calls that wait do not wait longer than `limit`, but for what `poll` needs at least. -/
def Call.Patient (limit : Duration) (c : Call) : Prop :=
  c.Waits → c.WaitsWithin limit

theorem Call.WaitsWithin.mono {limit limit' : Duration} {c : Call} (h : c.WaitsWithin limit)
    (hle : limit ≤ limit') : c.WaitsWithin limit' := by
  obtain ⟨longest, hlongest, hwithin | ⟨rfl, hpos, -, entries, hpoll⟩⟩ := h
  · exact ⟨longest, hlongest, .inl (hwithin.trans hle)⟩
  · refine ⟨_, hlongest, ?_⟩
    by_cases hmillis : Duration.ofMillis 1 ≤ limit'
    · exact .inl hmillis
    · exact .inr ⟨rfl, hpos.trans_le hle, Nat.lt_of_not_le hmillis, entries, hpoll⟩

omit [Kernel κ] in
theorem Reactor.Closes.added {r : Reactor} {w w' : World κ} (h : r.Closes w w') :
    Added (¬ ·.Waits) w.past w'.past := by
  obtain ⟨closed, htrace, hcalls⟩ := h
  refine .of_trace htrace fun e he => ?_
  have hcall : e.call ∈ r.held.map Call.close := hcalls ▸ List.mem_map_of_mem he
  obtain ⟨fd, -, hfd⟩ := List.mem_map.mp hcall
  exact hfd ▸ id

/-- The reactor has the settings of its fleet. -/
structure Reactor.Under (s : Settings) (r : Reactor) : Prop where
  settings : r.settings = s
  multiplexor : r.multiplexor = s.method.multiplexor

theorem Reactor.Under.steady {s : Settings} {r r' : Reactor} (h : r.Under s) (hr : r.Steady r') :
    r'.Under s :=
  ⟨hr.settings.trans h.settings, hr.multiplexor.trans h.multiplexor⟩

/-- Where it is in a pass, the thread is about to wait no longer than `limit`. -/
def Stage.Patient (s : Settings) (limit : Duration) : Stage → Prop
  | .created _ | .ended _ => True
  | .looping r _ => r.Under s
  | .waiting r _ plan => r.Under s ∧ ∃ l ≤ limit, plan.limit = some l

section

variable {s : Settings} {limit : Duration} {n n' : Node κ} {plan : Plan}

/-- No pause of accepting makes a wait longer than the settings say. -/
theorem Node.Begun.limit_le (h : Begun n plan n')
    (hlimit : n.reactor.settings.waitLimit = some limit) : ∃ l ≤ limit, plan.limit = some l := by
  cases Node.prepares_of_prepare h.planned with
  | accepting => exact ⟨limit, Nat.le_refl _, hlimit⟩
  | resumed => exact ⟨limit, Nat.le_refl _, hlimit⟩
  | paused => exact ⟨_, Reactor.patience_le_longest hlimit _, rfl⟩

theorem Node.patient_await (hunder : n.reactor.Under s) (hshort : limit.seconds < 2 ^ 63)
    (hplan : ∃ l ≤ limit, plan.limit = some l) :
    Added (·.Patient limit) n.world.past (await plan n).2.world.past := by
  obtain ⟨l, hle, hl⟩ := hplan
  have hl63 : l.seconds < 2 ^ 63 := (Nat.div_le_div_right hle).trans_lt hshort
  exact (Node.waitsWithin_await hunder.multiplexor hl hl63).mono fun c hc _ => hc.mono hle

theorem patient_of_added {past past' : List Event} (h : Added (¬ ·.Waits) past past') :
    Added (·.Patient limit) past past' :=
  h.mono fun _ hnot hwaits => absurd hwaits hnot

/-- A turn keeps a thread patient. -/
theorem Shard.Turned.patient {stage stage' : Stage} {w w' : World κ}
    (h : Turned s stage w stage' w')
    (hlimit : s.waitLimit = some limit) (hshort : limit.seconds < 2 ^ 63)
    (hpatient : stage.Patient s limit) :
    stage'.Patient s limit ∧ Added (·.Patient limit) w.past w'.past := by
  cases h with
  | refused calls => exact ⟨trivial, patient_of_added calls⟩
  | @started listener r last _ w₁ n made calls started =>
    have hsteady := quiet_start.tame.along ⟨r, w₁⟩
    rw [started.started] at hsteady
    have hunder : r.Under s := by
      rw [(create_ok made).1]
      exact ⟨rfl, rfl⟩
    exact ⟨hunder.steady hsteady, patient_of_added (calls.trans started.calls)⟩
  | @begun r last plan _ n begun =>
    have hsteady := quiet_prepare.tame.along ⟨r, w⟩
    rw [begun.planned] at hsteady
    have hreactor : r.settings.waitLimit = some limit := by
      rw [Reactor.Under.settings hpatient, hlimit]
    exact ⟨⟨Reactor.Under.steady hpatient hsteady, begun.limit_le hreactor⟩,
      patient_of_added (begun.calls.mono fun _ => not_waits_of_clock)⟩
  | stopped asked finished silent closes =>
    exact ⟨trivial, patient_of_added (silent ▸ closes.added)⟩
  | @completed r last last' plan _ n completed =>
    obtain ⟨hunder, hplan⟩ := hpatient
    have hsteady := (Node.tame_carriedOn plan last).along ⟨r, w⟩
    rw [completed.carriedOn_eq] at hsteady
    have hwait := Node.patient_await (n := ⟨r, w⟩) hunder hshort hplan
    cases completed with
    | intro waited _ _ _ calls _ =>
      rw [waited] at hwait
      exact ⟨hunder.steady hsteady, hwait.trans (patient_of_added calls)⟩
  | @broken r last plan why _ _ n broken closes =>
    obtain ⟨hunder, hplan⟩ := hpatient
    have hwait := Node.patient_await (n := ⟨r, w⟩) hunder hshort hplan
    refine ⟨trivial, Added.trans ?_ (patient_of_added closes.added)⟩
    cases broken with
    | waiting waited _ =>
      rw [waited] at hwait
      exact hwait
    | serving waited _ _ _ calls =>
      rw [waited] at hwait
      exact hwait.trans (patient_of_added calls)
  | gone => exact ⟨trivial, .refl _⟩

end

namespace Fleet

/-- All threads are patient. -/
structure Patient (limit : Duration) (f : Fleet) : Prop where
  waitLimit : f.settings.waitLimit = some limit
  short : limit.seconds < 2 ^ 63
  shards : ∀ x ∈ f.shards, x.stage.Patient f.settings limit

variable {limit : Duration} {f f' : Fleet} {w w' : World κ}

/-- The main thread adds a thread that has not begun, or none. -/
theorem shards_of_spawnNext (h : f.spawnNext w = (.ok f', w')) :
    f'.settings = f.settings ∧
      ∀ x ∈ f'.shards, x ∈ f.shards ∨ ∃ listener, x.stage = .created listener := by
  cases hfailure : f.spawnFailure with
  | some why =>
    simp only [spawnNext, hfailure] at h
    cases h
    exact ⟨rfl, fun x hx => .inl hx⟩
  | none =>
  cases hwaiting : f.waitingListeners with
  | nil =>
    simp only [spawnNext, hfailure, hwaiting] at h
    cases h
    exact ⟨rfl, fun x hx => .inl hx⟩
  | cons listener rest =>
    simp only [spawnNext, hfailure, hwaiting, bind_apply, Sys.call] at h
    cases hreply : (w.call (.spawn f.shards.length)).1 with
    | ok _ =>
      rw [hreply] at h
      cases h
      refine ⟨rfl, fun x hx => ?_⟩
      rcases List.mem_append.mp hx with hx | hx
      · exact .inl hx
      · exact .inr ⟨_, congrArg Shard.stage (List.mem_singleton.mp hx)⟩
    | _ =>
      rw [hreply] at h
      cases h
      exact ⟨rfl, fun x hx => .inl hx⟩

theorem patient_step (h : f.Patient limit) {t : Turn} (hstep : f.step t w = (.ok f', w')) :
    f'.Patient limit ∧ Added (·.Patient limit) w.past w'.past := by
  cases t with
  | main =>
    have hspawn : f.spawnNext w = (.ok f', w') := hstep
    obtain ⟨hsettings, hshards⟩ := shards_of_spawnNext hspawn
    have hcalls := (calling_spawnNext f).added w
    rw [hspawn] at hcalls
    refine ⟨⟨hsettings ▸ h.waitLimit, h.short, fun x hx => ?_⟩, patient_of_added hcalls⟩
    rw [hsettings]
    rcases hshards x hx with hx | ⟨listener, hcreated⟩
    · exact h.shards x hx
    · rw [hcreated]
      trivial
  | shard index =>
    obtain ⟨shards, w₁, hturnOf, hdone⟩ := bind_eq_ok.mp hstep
    cases hdone
    rcases turnOf_apply f.settings index f.shards w with
      ⟨-, hnone⟩ | ⟨front, x, back, hshards, rfl, hturned⟩
    · cases hturnOf.symm.trans hnone
      exact ⟨h, .refl _⟩
    · obtain ⟨stage, w₂, hturn, hdoes⟩ :=
        Shard.turned_turn f.settings x.index x.stage { w with thread := .reactor x.index }
      cases hturnOf.symm.trans (hturned stage w₂ hturn)
      have hx : x ∈ f.shards := hshards ▸ List.mem_append_right front List.mem_cons_self
      obtain ⟨hstage, hcalls⟩ := hdoes.patient h.waitLimit h.short (h.shards x hx)
      refine ⟨⟨h.waitLimit, h.short, fun y hy => ?_⟩, hcalls⟩
      rcases List.mem_append.mp hy with hy | hy
      · exact h.shards y (hshards ▸ List.mem_append_left _ hy)
      · rcases List.mem_cons.mp hy with rfl | hy
        · exact hstage
        · exact h.shards y (hshards ▸ List.mem_append_right front (List.mem_cons_of_mem x hy))

/-- Whatever the schedule, the calls of a fleet are patient. -/
theorem patient_follow (turns : List Turn) (h : f.Patient limit) (hf : f.Numbered) (w : World κ) :
    ∃ f' w', follow turns f w = (.ok f', w') ∧ Added (·.Patient limit) w.past w'.past := by
  induction turns generalizing f w with
  | nil => exact ⟨f, w, rfl, .refl _⟩
  | cons t rest ih =>
    obtain ⟨f₁, w₁, hstep, hobeys⟩ := obeys_step hf t w
    obtain ⟨hpatient, hcalls⟩ := patient_step h hstep
    obtain ⟨f', w', hfollow, hrest⟩ := ih hpatient hobeys.numbered w₁
    exact ⟨f', w', (bind_of_ok hstep).trans hfollow, hcalls.trans hrest⟩

end Fleet

namespace Serving

/-- No wait is needed to open the sockets of a fleet, or to close them. -/
theorem added_assemble {s : Settings} (hworkers : 0 < s.workers) (w : World κ) :
    Added (¬ ·.Waits) w.past (assemble s w).2.past := by
  obtain ⟨port, openings, -, events, htrace, hevents⟩ := undertakes_assemble hworkers w
  have hmade : ∀ {why : Option Failure} {made : List Event},
      Followed (s.startUp port openings) why made → ∀ e ∈ made, ¬ e.call.Waits :=
    fun hfollowed e he => (hfollowed.allowed (setsUp_startUp s port openings) e he).not_waits
  refine .of_trace htrace ?_
  generalize (assemble s w).1 = o at hevents
  cases hevents with
  | done followed _ => exact hmade followed
  | @undone why made closed followed closes =>
    intro e he
    rcases List.mem_append.mp he with he | he
    · exact hmade followed e he
    · obtain ⟨fd, -, hfd⟩ := List.mem_map.mp (closes.subset (List.mem_map_of_mem he))
      exact hfd ▸ id

theorem patient_serve {s : Settings} (hseveral : 1 < s.workers) {limit : Duration}
    (hlimit : (Fleet.shardSettings s).waitLimit = some limit) (hshort : limit.seconds < 2 ^ 63)
    (most : Nat) (schedule : List Turn) (w : World κ) :
    Added (·.Patient limit) w.past (serve most schedule s w).2.past := by
  have hassembled := added_assemble (Nat.zero_lt_of_lt hseveral) w
  cases hfailure : s.failure? with
  | some why =>
    rw [serve, hfailure]
    exact .refl _
  | none =>
    have hchecked : Action.failIf (none : Option Failure) w = (.ok (), w) := rfl
    rw [serve, hfailure, bind_of_ok hchecked, if_neg (Nat.ne_of_gt hseveral)]
    rcases hassemble : assemble s w with ⟨o, w₁⟩
    rw [hassemble] at hassembled
    rcases Breakdown.of_outcome o with ⟨f, rfl⟩ | ⟨why, rfl⟩
    · rw [bind_of_ok hassemble]
      obtain ⟨hshards, hsettings⟩ := assemble_ok hassemble
      have hpatient : f.Patient limit := ⟨hsettings ▸ hlimit, hshort, by simp [hshards]⟩
      have hnumbered : f.Numbered := by rw [Fleet.Numbered, hshards]; rfl
      obtain ⟨f', w', hfollow, hcalls⟩ := Fleet.patient_follow schedule hpatient hnumbered w₁
      rw [bind_of_ok hfollow]
      have hconcluded := (Fleet.calling_conclude f').added w'
      exact ((patient_of_added hassembled).trans hcalls).trans (patient_of_added hconcluded)
    · rw [Breakdown.bind_eq hassemble]
      exact patient_of_added hassembled

/-- **Requests to stop are heeded between passes, and no wait keeps a thread from the next look.** A
run of a reactor makes passes as long as there is no request before them, and dispatches in each all
that is ready, whether a request comes in the wait or not. It closes down with its counters after a
request; or, when a wait or a dispatch breaks down, there and then with what went wrong. It answers
its counters exactly if passes that came to their end lead to a request. A thread of a fleet does
the same a turn at a time. Every wait of a fleet has a limit; it is no longer than the one that is
set, or than 100 ms if none is set, but for the one millisecond that is the least for `poll`. -/
theorem endings_of_runs :
    (∀ (most : Nat) (r : Reactor) (w : World κ),
      Ran most r w (runToEnd most r w).1 (runToEnd most r w).2 ∧
        ((∃ tally, (runToEnd most r w).1 = .ok (some tally)) ↔
          ∃ last n count n' last', Node.Started ⟨r, w⟩ last n ∧ count ≤ most ∧
            Passes n last count n' last' ∧ n'.world.stopping)) ∧
      (∀ (s : Settings) (index : Nat) (stage : Stage) (w : World κ),
        ∃ stage' w', Shard.turn s index stage w = (.ok stage', w') ∧
          Shard.Turned s stage w stage' w') ∧
      ∀ (s : Settings) (most : Nat) (schedule : List Turn) (w : World κ), 1 < s.workers →
        (∀ limit, s.waitLimit = some limit → limit.seconds < 2 ^ 63) →
        Added (fun c => c.Waits → c.WaitsWithin (s.waitLimit.getD (.ofMillis 100))) w.past
          (serve most schedule s w).2.past := by
  refine ⟨fun most r w => ⟨ran_runToEnd most r w, answers_iff most r w⟩, Shard.turned_turn,
    fun s most schedule w hseveral hshort => patient_serve hseveral rfl ?_ most schedule w⟩
  cases hlimit : s.waitLimit with
  | some limit => exact hshort limit hlimit
  | none => decide

end Serving

namespace Crammed

/-- Another connection arrives when the first is ready to be greeted, and somebody asks for an end
in the same wait. -/
def world : World Script :=
  { level := .off
    kernel :=
      { queues := [(3, [
          .connection none ⟨2, 16, ⟨.unspecified, 40001⟩⟩ true {},
          .connection none ⟨2, 16, ⟨.unspecified, 40002⟩⟩ true {}])]
        waits := [(.main, [
          { ready := [(3, { readable := true })] },
          { ready := [(3, { readable := true }), (4, { writable := true })],
            arrivals := [.stop] }])] } }

def settings : Settings := { maxConnections := 1 }

def reactor : Reactor := .fresh 3 .poll settings

@[irreducible] def launched : World Script :=
  (Serving.launch settings world).2

/-- After the first pass. -/
@[irreducible] def halfway : Node Script :=
  (Reactor.run 1 ⟨reactor, launched⟩).2

def planned : Plan := ⟨[⟨3, .read⟩, ⟨4, .write⟩], 4, none⟩

@[irreducible] def waited : Outcome (List Readiness) × Node Script :=
  await planned (prepare halfway).2

@[irreducible] def ended : Outcome (Option Tally) × World Script :=
  Serving.runToEnd 2 reactor launched

/-- Where the second connection finds no room, the first is not greeted, though it is ready in the
very wait that sees the request. -/
theorem ungreeted :
    Serving.launch settings world = (.ok reactor, launched) ∧
      (Reactor.run 1 ⟨reactor, launched⟩).1 = .ok none ∧ (prepare halfway).1 = .ok planned ∧
      (prepare halfway).2.world.stopping = false ∧ waited.2.world.stopping = true ∧
      waited.1 = .ok [⟨3, true, false⟩, ⟨4, false, true⟩] ∧
      ended.1 = .failed (.registryFull 1) ∧ ∀ e ∈ ended.2.past, e.call.subject? ≠ some 4 := by
  refine ⟨Prod.ext (by decide +kernel) (by rw [launched]), by decide +kernel, by decide +kernel,
    by decide +kernel, by decide +kernel, by decide +kernel, by decide +kernel, by decide +kernel⟩

/-- Where there is room for both, the run answers its counters after the same two waits. -/
def roomy : Reactor := .fresh 3 .poll {}

/-- Two reactors, for whose waits no limit is set. -/
def pair : Settings := { workers := 2 }

@[irreducible] def served : Outcome (Option Tally) × World Script :=
  Serving.serve 0 [.main, .main, .shard 0, .shard 1, .shard 0, .shard 0] pair world

theorem endings_of_crammed :
    (∃ last n count n' last', Node.Started ⟨roomy, launched⟩ last n ∧ count ≤ 2 ∧
        Passes n last count n' last' ∧ n'.world.stopping) ∧
      1 < pair.workers ∧ (∀ limit, pair.waitLimit = some limit → limit.seconds < 2 ^ 63) ∧
      (∃ e ∈ served.2.past, e.call = .poll [⟨3, .read⟩] 100) ∧
      ∀ e ∈ served.2.past, e.call.Waits → e.call.WaitsWithin (.ofMillis 100) := by
  obtain ⟨hruns, -, hwaits⟩ := Serving.endings_of_runs (κ := Script)
  have hanswer : (Serving.runToEnd 2 roomy launched).1 =
      .ok (some { loops := 2, accepts := 2, sends := 1, bytesOut := 1, live := 2 }) := by
    decide +kernel
  have hshort : ∀ limit, pair.waitLimit = some limit → limit.seconds < 2 ^ 63 := nofun
  have hserved := hwaits pair 0 [.main, .main, .shard 0, .shard 1, .shard 0, .shard 0] world
    (by decide) hshort
  rw [show Serving.serve 0 _ pair world = served by rw [served]] at hserved
  obtain ⟨moved, hmoved, hpatient⟩ := hserved
  rw [show world.past = [] from rfl, List.append_nil] at hmoved
  exact ⟨(hruns 2 roomy launched).2.mp ⟨_, hanswer⟩, by decide, hshort, by decide +kernel,
    hmoved ▸ hpatient⟩

end Crammed

end SpanEcho

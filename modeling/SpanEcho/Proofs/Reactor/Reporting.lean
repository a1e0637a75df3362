import SpanEcho.Proofs.Reactor.Ending
import SpanEcho.Proofs.Reactor.Lines

/-!
# Counters at intervals

A reactor with an interval looks at the clock after every pass that comes to its end, and shows its
counters if the interval has gone by since it last did, or since its start. Such a look is a `Lap`.
A run is its laps one after the other (`Course`), and they keep the interval (`Punctual`): no line
comes early, and after no lap is one overdue.

The interval counts from a second look at the clock, after the line is written. The two looks tell
one time, as nothing waits between them and the clock moves in waits alone (`MovesInWaits`).
-/

namespace SpanEcho

open SpanEcho.Action Loop Reactor

/-! ## Clocks that move in waits -/

instance (c : Call) : Decidable c.Waits := by
  unfold Call.Waits
  split <;> infer_instance

/-- The time last told, if nothing has waited since. -/
def toldSinceWait : List Event → Option Duration
  | [] => none
  | e :: past => if e.call.Waits then none else e.reading? <|> toldSinceWait past

/-- The clock moves only while a call waits. -/
inductive MovesInWaits : List Event → Prop
  | nil : MovesInWaits []
  | cons {e : Event} {past : List Event}
      (still : ∀ now ∈ e.reading?, ∀ told ∈ toldSinceWait past, now = told)
      (rest : MovesInWaits past) : MovesInWaits (e :: past)

namespace MovesInWaits

instance decidable : (past : List Event) → Decidable (MovesInWaits past)
  | [] => .isTrue .nil
  | e :: past =>
    have := decidable past
    decidable_of_iff
      ((∀ now ∈ e.reading?, ∀ told ∈ toldSinceWait past, now = told) ∧ MovesInWaits past)
      ⟨fun ⟨still, rest⟩ => .cons still rest, fun | .cons still rest => ⟨still, rest⟩⟩

theorem of_suffix {past later : List Event} (h : MovesInWaits later) (hs : past <:+ later) :
    MovesInWaits past := by
  induction h with
  | nil =>
    rw [List.suffix_nil.mp hs]
    exact .nil
  | cons still rest ih =>
    rcases List.suffix_cons_iff.mp hs with rfl | hs
    · exact .cons still rest
    · exact ih hs

/-- Two readings in a row tell one time. -/
theorem reading_eq {past : List Event} {first second : Event} {now later : Duration}
    (h : MovesInWaits (second :: first :: past)) (hfirst : first.reading? = some now)
    (hsecond : second.reading? = some later) : later = now := by
  have htold : now ∈ toldSinceWait (first :: past) := by
    obtain ⟨thread, c, reply, arrivals⟩ := first
    cases c with
    | clock => exact hfirst
    | _ => cases hfirst
  cases h with
  | cons still _ => exact still later hsecond now htold

end MovesInWaits

/-! ## Laps -/

/-- A look at the clock after a pass, and the counters if they were shown. -/
structure Lap where
  time : Duration
  shown : Option Tally

namespace Lap

def line? (lap : Lap) : Option Log.Line :=
  lap.shown.map fun tally => ⟨some .info, s!"stats: {tally.text}"⟩

/-- When the counters were last shown, if before the lap that was at `last`. -/
def mark (last : Duration) (lap : Lap) : Duration :=
  if lap.shown.isSome then lap.time else last

/-- The counters are shown once an interval has gone by since `last`, and not before. -/
structure OnTime (interval last : Duration) (lap : Lap) : Prop where
  spaced : lap.shown.isSome → last + interval ≤ lap.time
  due : lap.time < lap.mark last + interval

theorem OnTime.early {interval last now : Duration} (h : ¬ interval ≤ now - last) :
    OnTime interval last ⟨now, none⟩ where
  spaced := nofun
  due := lt_add_of_tsub_lt_left (Nat.not_le.mp h)

theorem OnTime.shown {interval last now : Duration} (hpositive : 0 < interval)
    (h : interval ≤ now - last) (tally : Tally) : OnTime interval last ⟨now, some tally⟩ where
  spaced := fun _ =>
    have hle : last ≤ now := Nat.le_of_lt (Nat.lt_of_sub_pos (Nat.lt_of_lt_of_le hpositive h))
    (Nat.le_sub_iff_add_le' hle).mp h
  due := Nat.lt_add_of_pos_right hpositive

theorem periodic_of_line {lap : Lap} {line : Log.Line} (h : lap.line? = some line) :
    line.periodic := by
  obtain ⟨tally, -, rfl⟩ := Option.map_eq_some_iff.mp h
  refine List.isPrefixOf_iff_prefix.mpr ?_
  simp [toString]

end Lap

/-- When the counters were last shown, or else when the first interval began. -/
def lastShown (began : Duration) (laps : List Lap) : Duration :=
  laps.foldl Lap.mark began

/-- Every lap is on time. -/
def Punctual (interval began : Duration) (laps : List Lap) : Prop :=
  ∀ front lap back, laps = front ++ lap :: back → lap.OnTime interval (lastShown began front)

namespace Punctual

variable {interval began : Duration} {lap : Lap} {laps : List Lap}

theorem nil : Punctual interval began [] :=
  fun front _ _ h => absurd h.symm (List.append_ne_nil_of_right_ne_nil front (List.cons_ne_nil _ _))

theorem cons (hlap : lap.OnTime interval began) (h : Punctual interval (lap.mark began) laps) :
    Punctual interval began (lap :: laps) := by
  intro front other back heq
  rcases List.cons_eq_append_iff.mp heq with ⟨rfl, hback⟩ | ⟨front', rfl, hlaps⟩
  · obtain ⟨rfl, -⟩ := List.cons.inj hback
    exact hlap
  · exact h front' other back hlaps

end Punctual

/-! ## The lines with the counters -/

namespace World

variable {κ : Type} {w w' : World κ}

/-- The lines with the counters as they are logged at intervals, in order. -/
def periodicLines (w : World κ) : List Log.Line :=
  (w.remarks.map (·.line)).reverse.filter (·.periodic)

theorem write_level (line : Log.Line) (w : World κ) : (w.write line).level = w.level := by
  unfold write
  split <;> rfl

theorem Wrote.periodicLines (h : Wrote Log.Line.Ordinary w w') :
    w'.periodicLines = w.periodicLines := by
  obtain ⟨said, hremarks, hsaid⟩ := h.lines
  have hnone : (said.map (·.line)).reverse.filter (·.periodic) = [] := by
    refine List.filter_eq_nil_iff.mpr fun line hline => ?_
    obtain ⟨r, hr, rfl⟩ := List.mem_map.mp (List.mem_reverse.mp hline)
    rw [(hsaid r hr).not_periodic]
    exact Bool.false_ne_true
  rw [World.periodicLines, hremarks, List.map_append, List.reverse_append,
    List.filter_append, hnone, List.append_nil]
  rfl

end World

/-! ## Reports -/

theorem Starting.settings_of_reaches {κ : Type} [Kernel κ] {m : Multiplexor} {s : Settings}
    {n₀ n : Node κ} {due : List Readiness} (hstart : Starting m s n₀) (hreach : n₀.Reaches n due) :
    n.reactor.settings = s := by
  obtain ⟨listener, hfresh, -⟩ := hstart.made
  rw [(hreach.continued (hfresh ▸ regular_fresh listener m s)).steady.settings, hfresh]
  rfl

namespace Node

variable {κ : Type} [Kernel κ] {n n' n₀ : Node κ} {interval last : Duration} {lap : Lap}

/-- A report reads the clock, and writes the line of its lap and no other. The line has the counters
of that moment. -/
structure Reported (n : Node κ) (lap : Lap) (n' : Node κ) : Prop where
  reactor : n'.reactor = n.reactor
  level : n'.world.level = n.world.level
  told : ∃ events, events ≠ [] ∧ n'.world.past = events ++ n.world.past ∧
    ∀ e ∈ events, e.reading? = some lap.time
  written : n'.world.remarks.map (·.line) = lap.line?.toList ++ n.world.remarks.map (·.line)
  current : ∀ tally, lap.shown = some tally →
    tally = { n.reactor.tally with live := n.reactor.registry.toList.length }

omit [Kernel κ] in
theorem Reported.periodicLines (h : Reported n lap n') :
    n'.world.periodicLines = n.world.periodicLines ++ lap.line?.toList := by
  rw [World.periodicLines, h.written]
  cases hline : lap.line? with
  | none => exact (List.append_nil _).symm
  | some line =>
    have hperiodic : line.periodic := Lap.periodic_of_line hline
    rw [Option.toList_some, List.reverse_append, List.filter_append, List.reverse_singleton,
      List.filter_singleton, hperiodic]
    rfl

/-- The line that a report writes. -/
def statsLine (n : Node κ) : Log.Line :=
  ⟨some .info, s!"stats: {n.reactor.stats.text}"⟩

/-- The world in which a report that shows the counters reads the clock again. -/
def shownWorld (n : Node κ) : World κ :=
  (n.world.call .clock).2.write n.statsLine

/-- A report reads the clock, and compares. -/
theorem report_apply (hinterval : n.reactor.settings.statsInterval = some interval)
    (last : Duration) :
    report last n = if interval ≤ (n.world.call .clock).1 - last then
        (.ok (n.shownWorld.call .clock).1, { n with world := (n.shownWorld.call .clock).2 })
      else (.ok last, { n with world := (n.world.call .clock).2 }) := by
  have hreactor : ∀ n : Node κ, Loop.reactor n = (.ok n.reactor, n) := fun _ => rfl
  have hnow : Loop.sys Sys.now n =
    (.ok (n.world.call .clock).1, { n with world := (n.world.call .clock).2 }) := rfl
  rw [report, bind_of_ok (hreactor n)]
  simp only [hinterval]
  rw [bind_of_ok hnow]
  by_cases hdue : interval ≤ (n.world.call .clock).1 - last
  · rw [if_pos hdue, if_pos hdue, bind_of_ok (hreactor _)]
    rfl
  · rw [if_neg hdue, if_neg hdue]
    rfl

theorem shownWorld_past (n : Node κ) : (n.shownWorld.call .clock).2.past =
    n.shownWorld.event .clock :: n.world.event .clock :: n.world.past := by
  rw [World.call_past, shownWorld, World.write_past, World.call_past]

/-- As long as the interval has not gone by, a report only reads the clock. -/
theorem reported_early (n : Node κ) :
    Reported n ⟨(n.world.call .clock).1, none⟩ { n with world := (n.world.call .clock).2 } where
  reactor := rfl
  level := (n.world.call_log .clock).1
  told := ⟨[n.world.event .clock], List.cons_ne_nil _ _, n.world.call_past .clock,
    fun e he => by rw [List.mem_singleton.mp he]; rfl⟩
  written := congrArg (List.map (·.line)) (n.world.call_log .clock).2
  current := nofun

/-- When the interval has gone by, a report shows the counters, and reads the clock again. -/
theorem reported_shown (hlevel : Log.Level.info.rank ≤ n.world.level.rank)
    (hlive : n.reactor.registry.live = n.reactor.registry.toList.length)
    (hsame : (n.shownWorld.call .clock).1 = (n.world.call .clock).1) :
    Reported n ⟨(n.world.call .clock).1, some n.reactor.stats⟩
      { n with world := (n.shownWorld.call .clock).2 } where
  reactor := rfl
  level := by
    rw [(n.shownWorld.call_log .clock).1, shownWorld, World.write_level,
      (n.world.call_log .clock).1]
  told := by
    refine ⟨[n.shownWorld.event .clock, n.world.event .clock], List.cons_ne_nil _ _,
      n.shownWorld_past, List.forall_mem_cons.mpr ⟨congrArg some hsame, fun e he => ?_⟩⟩
    rw [List.mem_singleton.mp he]
    rfl
  written := by
    obtain ⟨hkept, hremarks⟩ := n.world.call_log .clock
    have hshown : n.statsLine.shownAt (n.world.call .clock).2.level := by
      rw [hkept]
      exact decide_eq_true hlevel
    rw [(n.shownWorld.call_log .clock).2, shownWorld, World.write, if_pos hshown]
    exact congrArg (List.cons n.statsLine <| List.map (·.line) ·) hremarks
  current := fun tally h => by
    rw [← Option.some.inj h, stats, hlive]

/-- A report is on time, and the interval begins anew when it shows the counters. -/
theorem reported_report (hinterval : n.reactor.settings.statsInterval = some interval)
    (hpositive : 0 < interval) (hlevel : Log.Level.info.rank ≤ n.world.level.rank)
    (hlive : n.reactor.registry.live = n.reactor.registry.toList.length)
    (hclock : MovesInWaits (report last n).2.world.past) :
    ∃ lap n', report last n = (.ok (lap.mark last), n') ∧ Reported n lap n' ∧
      lap.OnTime interval last := by
  rw [report_apply hinterval] at hclock ⊢
  by_cases hdue : interval ≤ (n.world.call .clock).1 - last
  · rw [if_pos hdue] at hclock ⊢
    rw [n.shownWorld_past] at hclock
    have hsame : (n.shownWorld.call .clock).1 = (n.world.call .clock).1 := hclock.reading_eq rfl rfl
    exact ⟨⟨(n.world.call .clock).1, some n.reactor.stats⟩, _,
      congrArg (·, _) (congrArg Outcome.ok hsame), reported_shown hlevel hlive hsame,
      .shown hpositive hdue _⟩
  · rw [if_neg hdue]
    exact ⟨_, _, rfl, reported_early n, .early hdue⟩

/-! ## Runs -/

/-- What a reactor that may make `most` passes does from a look for a request on. Each pass that
comes to its end is followed by its lap. Nothing else writes a line with the counters: not a pass,
whether it comes to its end or breaks down, nor taking leave. -/
inductive Course : (most : Nat) → Node κ → List Lap → Outcome (Option Tally) → Node κ → Prop
  /-- It has made all passes that it may, and nobody has asked for an end. -/
  | unasked {n : Node κ} (unasked : n.world.stopping = false) : Course 0 n [] (.ok none) n
  | asked {most : Nat} {n n' : Node κ} {tally : Tally} (asked : n.world.stopping)
      (finished : finish n = (.ok tally, n'))
      (ordinary : n.world.Wrote Log.Line.Ordinary n'.world) :
      Course most n [] (.ok (some tally)) n'
  | broken {most : Nat} {n n' : Node κ} {why : Breakdown} (unasked : n.world.stopping = false)
      (broken : Reactor.pass n = (why.outcome, n'))
      (ordinary : n.world.Wrote Log.Line.Ordinary n'.world) : Course (most + 1) n [] why.outcome n'
  | lap {most count : Nat} {n n₁ n₂ n' : Node κ} {lap : Lap} {laps : List Lap}
      {o : Outcome (Option Tally)} (unasked : n.world.stopping = false)
      (passed : Reactor.pass n = (.ok count, n₁))
      (ordinary : n.world.Wrote Log.Line.Ordinary n₁.world) (reported : Reported n₁ lap n₂)
      (rest : Course most n₂ laps o n') : Course (most + 1) n (lap :: laps) o n'

theorem Course.periodicLines {most : Nat} {laps : List Lap} {o : Outcome (Option Tally)}
    (h : Course most n laps o n') :
    n'.world.periodicLines = n.world.periodicLines ++ laps.filterMap (·.line?) := by
  induction h with
  | unasked => exact (List.append_nil _).symm
  | asked _ _ ordinary => exact ordinary.periodicLines.trans (List.append_nil _).symm
  | broken _ _ ordinary => exact ordinary.periodicLines.trans (List.append_nil _).symm
  | @lap _ _ n n₁ n₂ n' lap laps _ _ _ ordinary reported _ ih =>
    calc n'.world.periodicLines
        = n₂.world.periodicLines ++ laps.filterMap (·.line?) := ih
      _ = n₁.world.periodicLines ++ lap.line?.toList ++ laps.filterMap (·.line?) := by
        rw [reported.periodicLines]
      _ = n.world.periodicLines ++ (lap :: laps).filterMap (·.line?) := by
        rw [ordinary.periodicLines, List.append_assoc, List.filterMap_cons]
        cases lap.line? <;> rfl

variable {m : Multiplexor} {s : Settings}

/-- A reactor that is asked to stop makes no pass. -/
theorem course_asked (last : Duration) (most : Nat) (h : n.world.stopping) :
    Course most n [] (passes last most n).1 (passes last most n).2 := by
  have hwrote := saying_finish.wrote n
  obtain ⟨tally, n', hfinish, -⟩ := finish_apply n
  have hpasses : passes last most n = (.ok (some tally), n') := by
    rw [passes_of_asked last most h]
    exact bind_of_ok hfinish
  rw [hfinish] at hwrote
  rw [hpasses]
  exact .asked h hfinish hwrote

/-- From any look for a request on, a reactor goes through its laps and is on time. -/
theorem course_passes (hstart : Starting m s n₀) (hreach : n₀.Reaches n [])
    (hinterval : s.statsInterval = some interval) (hpositive : 0 < interval)
    (hlevel : Log.Level.info.rank ≤ n.world.level.rank) (most : Nat)
    (hclock : MovesInWaits (passes last most n).2.world.past) :
    ∃ laps, Course most n laps (passes last most n).1 (passes last most n).2 ∧
      Punctual interval last laps := by
  induction most generalizing n last with
  | zero =>
    cases h : n.world.stopping with
    | true => exact ⟨[], course_asked last 0 h, .nil⟩
    | false =>
      rw [passes_zero last h]
      exact ⟨[], .unasked h, .nil⟩
  | succ most ih =>
    cases h : n.world.stopping with
    | true => exact ⟨[], course_asked last (most + 1) h, .nil⟩
    | false =>
      rw [passes_succ last most h] at hclock ⊢
      have hwrote := saying_pass.wrote n
      have hreach₁ := hreach.pass
      rcases hpass : Reactor.pass n with ⟨o, n₁⟩
      rw [hpass] at hwrote hreach₁
      rcases Breakdown.of_outcome o with ⟨count, rfl⟩ | ⟨why, rfl⟩
      · rw [bind_of_ok hpass] at hclock ⊢
        obtain ⟨last₂, n₂, hreport⟩ := sure_report last n₁
        rw [bind_of_ok hreport] at hclock ⊢
        have hclock₂ : MovesInWaits (report last n₁).2.world.past := by
          rw [hreport]
          exact hclock.of_suffix ((tame_passes last₂ most).grows.grows n₂)
        obtain ⟨lap, n₂', hlapped, hreported, honTime⟩ := reported_report
          (by rw [hstart.settings_of_reaches hreach₁, hinterval]) hpositive (hwrote.level ▸ hlevel)
          (hstart.regular_of_reaches hreach₁).sound.live hclock₂
        obtain ⟨rfl, rfl⟩ : last₂ = lap.mark last ∧ n₂ = n₂' := by
          rw [hreport] at hlapped
          cases hlapped
          exact ⟨rfl, rfl⟩
        have hreach₂ := hreach₁.report last
        rw [hreport] at hreach₂
        obtain ⟨laps, hcourse, hpunctual⟩ :=
          ih hreach₂ (hreported.level ▸ hwrote.level ▸ hlevel) hclock
        exact ⟨lap :: laps, .lap h hpass hwrote hreported hcourse, .cons honTime hpunctual⟩
      · rw [Breakdown.bind_eq hpass]
        exact ⟨[], .broken h hpass hwrote, .nil⟩

/-- The first interval begins when the clock is read at the end of the start. -/
theorem start_reading (n : Node κ) : ∃ e began n₁, start n = (.ok began, n₁) ∧
    e.reading? = some began ∧ ∃ past, n₁.world.past = e :: past := by
  obtain ⟨began, n₁, hstart⟩ := sure_start n
  have hsteps := hstart
  rw [start] at hsteps
  obtain ⟨r, n₂, -, hsteps⟩ := bind_eq_ok.mp hsteps
  obtain ⟨address, n₃, -, hsteps⟩ := bind_eq_ok.mp hsteps
  obtain ⟨⟨⟩, n₄, -, hnow⟩ := bind_eq_ok.mp hsteps
  obtain ⟨hbegan, rfl⟩ := Prod.mk.inj hnow
  exact ⟨n₄.world.event .clock, began, _, hstart, congrArg some (Outcome.ok.inj hbegan),
    n₄.world.past, n₄.world.call_past .clock⟩

end Node

open Node

variable {κ : Type} [Kernel κ] {m : Multiplexor} {s : Settings} {n₀ n : Node κ}
  {interval : Duration}

/-- **The counters are shown at intervals.** Whatever the kernel does else, over a clock that moves
only in waits, and with the level at `info` or above: the lines with the counters come from laps,
and a lap comes after each pass that comes to its end, with one line or none however far the clock
has moved. No line comes before an interval has gone by since the last one, or since the start; and
after no lap has it gone by without a line. What a line shows are the counters as they are then,
with the number of connections that are open. -/
theorem punctual_of_run (hstart : Starting m s n₀) (hreach : n₀.Reaches n [])
    (hinterval : s.statsInterval = some interval) (hpositive : 0 < interval)
    (hlevel : Log.Level.info.rank ≤ n.world.level.rank) (most : Nat)
    (hclock : MovesInWaits (Reactor.run most n).2.world.past) :
    ∃ e began n₁ laps, Reactor.start n = (.ok began, n₁) ∧ e.reading? = some began ∧
      (∃ past, n₁.world.past = e :: past) ∧ n.world.Wrote Log.Line.Ordinary n₁.world ∧
      Course most n₁ laps (Reactor.run most n).1 (Reactor.run most n).2 ∧
      Punctual interval began laps ∧
      (Reactor.run most n).2.world.periodicLines =
        n.world.periodicLines ++ laps.filterMap (·.line?) := by
  have hwrote := saying_start.wrote n
  have hreach₁ := hreach.start
  obtain ⟨e, began, n₁, hstarted, hreading, hpast⟩ := start_reading n
  rw [hstarted] at hwrote hreach₁
  have hrun : Reactor.run most n = passes began most n₁ := bind_of_ok hstarted
  rw [hrun] at hclock ⊢
  obtain ⟨laps, hcourse, hpunctual⟩ :=
    course_passes hstart hreach₁ hinterval hpositive (hwrote.level ▸ hlevel) most hclock
  refine ⟨e, began, n₁, laps, hstarted, hreading, hpast, hwrote, hcourse, hpunctual, ?_⟩
  rw [hcourse.periodicLines, hwrote.periodicLines]

namespace Seldom

/-- Three waits take 400 ms each, with a client in the first of them, and the fourth takes 5 s. -/
def world : World Script :=
  let client := Script.Arriving.connection (some 4) ⟨2, 16, ⟨.unspecified, 50000⟩⟩ true {}
  { level := .info
    kernel :=
      { socketNumbers := [3]
        queues := [(3, [client])]
        waits := [(.main,
          [{ ready := [(3, { readable := true })], lasting := .ofMillis 400 },
            { lasting := .ofMillis 400 }, { lasting := .ofMillis 400 },
            { lasting := .ofSeconds 5 }])] } }

def settings : Settings :=
  { statsInterval := some (.ofSeconds 1) }

def launched : Node Script :=
  ⟨.fresh 3 .poll settings, (Serving.launch settings world).2⟩

@[irreducible] def ended : Outcome (Option Tally) × Node Script :=
  Reactor.run 4 launched

/-- The laps that show the counters: the last, after 5 s, shows them once. -/
def showing : List Lap :=
  [⟨.ofMillis 1200, some { loops := 3, accepts := 1, live := 1 }⟩,
    ⟨.ofMillis 6200, some { loops := 4, accepts := 1, live := 1 }⟩]

theorem punctual_of_seldom :
    0 < Duration.ofSeconds 1 ∧ Log.Level.info.rank ≤ launched.world.level.rank ∧
      MovesInWaits ended.2.world.past ∧
      readings ended.2.world.past = [6200, 6200, 1200, 1200, 800, 400, 0].map Duration.ofMillis ∧
      ∃ began n₁ laps, Reactor.start launched = (.ok began, n₁) ∧
        Course 4 n₁ laps ended.1 ended.2 ∧ Punctual (.ofSeconds 1) began laps ∧
        laps.filterMap (·.line?) = showing.filterMap (·.line?) := by
  have hmade : Serving.launch settings world = (.ok (.fresh 3 .poll settings), launched.world) :=
    Prod.ext (by decide +kernel) rfl
  have hstart : Starting WaitMethod.poll.multiplexor settings launched := .launched rfl rfl hmade
  have hended : Reactor.run 4 launched = ended := by rw [ended]
  have hpositive : 0 < Duration.ofSeconds 1 := by decide
  have hlevel : Log.Level.info.rank ≤ launched.world.level.rank := by decide +kernel
  have hclock : MovesInWaits ended.2.world.past := by decide +kernel
  have hreadings : readings ended.2.world.past =
      [6200, 6200, 1200, 1200, 800, 400, 0].map Duration.ofMillis := by decide +kernel
  have hbefore : launched.world.periodicLines = [] := by decide +kernel
  have hafter : ended.2.world.periodicLines = showing.filterMap (·.line?) := by decide +kernel
  have hmoves : MovesInWaits (Reactor.run 4 launched).2.world.past := by
    rw [hended]
    exact hclock
  obtain ⟨-, began, n₁, laps, hstarted, -, -, -, hcourse, hpunctual, hlines⟩ :=
    punctual_of_run hstart .here rfl hpositive hlevel 4 hmoves
  rw [hended] at hcourse hlines
  rw [hbefore, hafter, List.nil_append] at hlines
  exact ⟨hpositive, hlevel, hclock, hreadings, began, n₁, laps, hstarted, hcourse, hpunctual,
    hlines.symm⟩

end Seldom

end SpanEcho

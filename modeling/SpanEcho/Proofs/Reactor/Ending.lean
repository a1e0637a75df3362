import SpanEcho.Proofs.Calls
import SpanEcho.Proofs.Reactor.Pause
import SpanEcho.Proofs.Stopping

/-!
# How a reactor ends

A reactor looks for a request to stop before each pass, and nowhere else. A request that comes while
a pass waits does not cut it short: what is ready is dispatched, and the next look is the last. Only
a dispatch that goes wrong ends a pass before all is dispatched, request or no request. Then the
reactor closes its descriptors and does nothing else.

A run is taken apart into the passes that came to their end (`Passes`) and what comes after them
(`Halts`).
-/

namespace SpanEcho

open SpanEcho.Action Loop Reactor

/-! ## Endings without a value -/

/-- Why an action ends without a value. -/
inductive Breakdown where
  | failure (why : Failure)
  | defect (what : Defect)

namespace Breakdown

variable {σ α β : Type}

def outcome : Breakdown → Outcome α
  | failure why => .failed why
  | defect what => .defect what

theorem of_outcome (o : Outcome α) : (∃ a, o = .ok a) ∨ ∃ b : Breakdown, o = b.outcome := by
  cases o with
  | ok a => exact .inl ⟨a, rfl⟩
  | failed why => exact .inr ⟨.failure why, rfl⟩
  | defect what => exact .inr ⟨.defect what, rfl⟩

theorem outcome_ne_ok (b : Breakdown) (a : α) : b.outcome ≠ .ok a := by
  cases b <;> exact nofun

/-- What was to follow does not. -/
theorem bind_eq {m : Action σ α} {s s' : σ} {b : Breakdown} (h : m s = (b.outcome, s'))
    (f : α → Action σ β) : (m >>= f) s = (b.outcome, s') := by
  rw [bind_apply, h]
  cases b <;> rfl

end Breakdown

/-! ## Waits -/

namespace Multiplexor

variable {κ : Type} [Kernel κ]

/-- A wait is one call at most. -/
theorem wait_once (m : Multiplexor) (entries : List Registration) (highest : Descriptor)
    (limit : Option Duration) (w : World κ) :
    (m.wait entries highest limit w).2.past = w.past ∨
      ∃ e : Event, e.call.Waits ∧ (m.wait entries highest limit w).2.past = e :: w.past := by
  have hcall : ∀ {c : Call} {f : c.Reply → Sys κ (List Readiness)}, c.Waits →
      (∀ reply w, (f reply w).2 = w) →
      ∃ e : Event, e.call.Waits ∧ ((Sys.call c >>= f) w).2.past = e :: w.past := by
    intro c f hc hstate
    refine ⟨w.event c, hc, ?_⟩
    change (f (w.call c).1 (w.call c).2).2.past = _
    rw [hstate, World.call_past]
  cases m with
  | select =>
    cases hrefusal : entries.findSome? fun e => select.refusal? e.fd with
    | some why =>
      simp only [wait, hrefusal]
      exact .inl rfl
    | none =>
      simp only [wait, hrefusal]
      exact .inr (hcall trivial fun _ _ => (Node.ending_wakes _ _ _ _ _).1)
  | poll => exact .inr (hcall trivial fun _ _ => (Node.ending_wakes _ _ _ _ _).1)
  | external name bound => exact .inr (hcall trivial fun reply _ => by cases reply <;> rfl)

end Multiplexor

/-! ## What cannot fail -/

namespace Reactor

variable {κ : Type} [Kernel κ]

theorem sure_start : Sure (start : Loop κ Duration) := by
  intro n
  have hattempt : ∃ address n',
      Action.attempt (Loop.sys (Socket.localAddress n.reactor.listener)) n =
        (.ok address, n') := by
    have hflawless : Flawless (Socket.localAddress n.reactor.listener : Sys κ Endpoint) := by
      refine .bind (Sys.flawless_ask _ _) fun name => ?_
      cases name.endpoint? with
      | some address => exact .pure _
      | none => exact .fail _
    have hnot := hflawless n.world
    simp only [Action.attempt, Loop.sys, Action.onPart]
    cases hlocal : (Socket.localAddress n.reactor.listener n.world).1 with
    | ok address => exact ⟨_, _, rfl⟩
    | failed why => exact ⟨_, _, rfl⟩
    | defect what => exact absurd hlocal (hnot what)
  obtain ⟨address, n', hn'⟩ := hattempt
  rw [start, bind_of_ok (rfl : Loop.reactor n = (.ok n.reactor, n)), bind_of_ok hn']
  exact ⟨_, _, rfl⟩

theorem sure_report (last : Duration) : Sure (report last : Loop κ Duration) := by
  refine .bind (fun n => ⟨n.reactor, n, rfl⟩) fun r => ?_
  split
  · exact .pure _
  · refine .bind Node.sure_now fun now => ?_
    split
    · exact .bind (fun n => ⟨n.reactor, n, rfl⟩) fun _ => .bind (fun _ => ⟨(), _, rfl⟩) fun _ =>
        Node.sure_now
    · exact .pure _

omit [Kernel κ] in
theorem finish_apply (n : Node κ) :
    ∃ tally n', finish n = (.ok tally, n') ∧ n'.world.past = n.world.past :=
  ⟨_, _, rfl, World.write_past _ n.world⟩

end Reactor

/-! ## Passes -/

namespace Node

variable {κ : Type} [Kernel κ] {n n₁ n₂ n' : Node κ} {plan : Plan}
  {last last₁ last₂ last' : Duration} {count most : Nat}

/-- Nobody has asked for an end, and a pass begins: up to the wait only the clock is read. -/
structure Begun (n : Node κ) (plan : Plan) (n₁ : Node κ) : Prop where
  unasked : n.world.stopping = false
  planned : prepare n = (.ok plan, n₁)
  calls : Added (· = .clock) n.world.past n₁.world.past

/-- One call waits, or none. -/
def WaitsOnce (n n' : Node κ) : Prop :=
  n'.world.past = n.world.past ∨ ∃ e : Event, e.call.Waits ∧ n'.world.past = e :: n.world.past

/-- Ready descriptors are dispatched in their order, and nothing goes wrong. -/
inductive Served : Node κ → List Readiness → Node κ → Prop
  | done {n : Node κ} : Served n [] n
  | next {x : Readiness} {rest : List Readiness} {n n₁ n' : Node κ}
      (dispatched : dispatch x n = (.ok (), n₁)) (served : Served n₁ rest n') :
      Served n (x :: rest) n'

/-- A pass that has begun comes to its end: it waits, and all that is ready is dispatched. A request
that the wait leaves behind is still there at the next look, so that no other pass begins. -/
inductive Completed (plan : Plan) (last : Duration) (n : Node κ) (last' : Duration) : Node κ → Prop
  | intro {ready : List Readiness} {n₁ n₂ n' : Node κ} (waited : await plan n = (.ok ready, n₁))
      (once : WaitsOnce n n₁) (served : Served n₁ ready n₂)
      (reported : report last n₂ = (.ok last', n'))
      (calls : Added (¬ ·.Waits) n₁.world.past n'.world.past)
      (stays : n₁.world.stopping → n'.world.stopping) : Completed plan last n last' n'

/-- A pass that has begun breaks down: the wait does, or the dispatch of a ready descriptor when all
before it were dispatched. Those behind it are not. -/
inductive Broken (plan : Plan) (n : Node κ) (why : Breakdown) : Node κ → Prop
  | waiting {n' : Node κ} (waited : await plan n = (why.outcome, n')) (once : WaitsOnce n n') :
      Broken plan n why n'
  | serving {front back : List Readiness} {x : Readiness} {n₁ n₂ n' : Node κ}
      (waited : await plan n = (.ok (front ++ x :: back), n₁)) (once : WaitsOnce n n₁)
      (served : Served n₁ front n₂) (broken : dispatch x n₂ = (why.outcome, n'))
      (calls : Added (¬ ·.Waits) n₁.world.past n'.world.past) : Broken plan n why n'

/-- Passes one after the other, each of which came to its end. -/
inductive Passes : Node κ → Duration → Nat → Node κ → Duration → Prop
  | none {n : Node κ} {last : Duration} : Passes n last 0 n last
  | next {n n₁ n₂ n' : Node κ} {last last₁ last' : Duration} {plan : Plan} {count : Nat}
      (begun : Begun n plan n₁) (completed : Completed plan last n₁ last₁ n₂)
      (rest : Passes n₂ last₁ count n' last') : Passes n last (count + 1) n' last'

/-- How a reactor that may make `most` passes comes to its end, or to the end of what it may do. -/
inductive Halts (most : Nat) (n : Node κ) (last : Duration) : Outcome (Option Tally) → Node κ → Prop
  /-- It is asked to stop before a pass, and makes no other call. -/
  | asked {count : Nat} {n₁ n' : Node κ} {last' : Duration} {tally : Tally}
      (passes : Passes n last count n₁ last') (within : count ≤ most) (asked : n₁.world.stopping)
      (finished : finish n₁ = (.ok tally, n')) (silent : n'.world.past = n₁.world.past) :
      Halts most n last (.ok (some tally)) n'
  /-- It has made all passes that it may, and nobody has asked for an end. -/
  | unasked {n' : Node κ} {last' : Duration} (passes : Passes n last most n' last')
      (unasked : n'.world.stopping = false) : Halts most n last (.ok none) n'
  /-- A pass breaks down. -/
  | broken {count : Nat} {n₁ n₂ n' : Node κ} {last' : Duration} {plan : Plan} {why : Breakdown}
      (passes : Passes n last count n₁ last') (within : count < most) (begun : Begun n₁ plan n₂)
      (broken : Broken plan n₂ why n') : Halts most n last why.outcome n'

/-! ### Each pass -/

theorem begun_of_unasked (h : n.world.stopping = false) : ∃ plan n₁, Begun n plan n₁ := by
  obtain ⟨plan, n₁, hprepare⟩ := sure_prepare n
  have hcalls := calling_prepare.added n
  rw [hprepare] at hcalls
  exact ⟨plan, n₁, h, hprepare, hcalls⟩

theorem waitsOnce_await (plan : Plan) (n : Node κ) : WaitsOnce n (await plan n).2 := by
  rw [WaitsOnce, (await_apply plan n).2]
  exact n.reactor.multiplexor.wait_once plan.entries plan.highest plan.limit n.world

/-- What is due is dispatched, up to the first that breaks down. -/
theorem served_dispatchAll (due : List Readiness) (n : Node κ) :
    (∃ n', dispatchAll due n = (.ok (), n') ∧ Served n due n') ∨
      ∃ front x back why n₁ n', due = front ++ x :: back ∧ Served n front n₁ ∧
        dispatch x n₁ = (Breakdown.outcome why, n') ∧
        dispatchAll due n = (Breakdown.outcome why, n') := by
  induction due generalizing n with
  | nil => exact .inl ⟨n, rfl, .done⟩
  | cons x due ih =>
    rcases hx : dispatch x n with ⟨o, n₁⟩
    rcases Breakdown.of_outcome o with ⟨⟨⟩, rfl⟩ | ⟨why, rfl⟩
    · have hrest : dispatchAll (x :: due) n = dispatchAll due n₁ := bind_of_ok hx
      rw [hrest]
      rcases ih n₁ with ⟨n', hall, hserved⟩ | ⟨front, y, back, why, n₂, n', rfl, hserved, hy, hall⟩
      · exact .inl ⟨n', hall, .next hx hserved⟩
      · exact .inr ⟨x :: front, y, back, why, n₂, n', rfl, .next hx hserved, hy, hall⟩
    · exact .inr ⟨[], x, due, why, n, n₁, rfl, .done, hx, Breakdown.bind_eq hx _⟩

/-- The wait of a pass and all that follows, up to the next look for a request. -/
def carriedOn (plan : Plan) (last : Duration) : Loop κ Duration := do
  let _ ← complete plan
  report last

theorem tame_carriedOn (plan : Plan) (last : Duration) :
    Loop.Tame (carriedOn plan last : Loop κ Duration) :=
  .bind (.bind (quiet_await plan).tame fun ready => .bind (tame_dispatchAll ready) fun _ => .pure _)
    fun _ => (quiet_report last).tame

/-- A pass that has begun comes to its end or breaks down. -/
theorem carriedOn_cases (plan : Plan) (last : Duration) (n : Node κ) :
    (∃ last' n', carriedOn plan last n = (.ok last', n') ∧ Completed plan last n last' n') ∨
      ∃ why n', carriedOn plan last n = (Breakdown.outcome why, n') ∧ Broken plan n why n' := by
  have honce := waitsOnce_await plan n
  rcases hawait : await plan n with ⟨o, n₁⟩
  rw [hawait] at honce
  rcases Breakdown.of_outcome o with ⟨ready, rfl⟩ | ⟨why, rfl⟩
  · have hcomplete : complete plan n = (do dispatchAll ready; pure ready.length : Loop κ Nat) n₁ :=
      bind_of_ok hawait
    have hcalls := (calling_dispatchAll ready).added n₁
    have hstays := (tame_dispatchAll ready).stopping (n := n₁)
    rcases served_dispatchAll ready n₁ with
      ⟨n₂, hall, hserved⟩ | ⟨front, x, back, why, n₂, n', rfl, hserved, hx, hall⟩
    · rw [hall] at hcalls hstays
      obtain ⟨last', n', hreport⟩ := sure_report last n₂
      have hreported := (calling_report last).added n₂
      have hkept := (quiet_report last).tame.stopping (n := n₂)
      rw [hreport] at hreported hkept
      have hended : carriedOn plan last n = (.ok last', n') := by
        rw [carriedOn, bind_of_ok (hcomplete.trans (bind_of_ok hall))]
        exact hreport
      exact .inl ⟨last', n', hended, .intro hawait honce hserved hreport
        (hcalls.trans (hreported.mono fun _ => not_waits_of_clock)) fun h => hkept (hstays h)⟩
    · rw [hall] at hcalls
      have hended : carriedOn plan last n = (why.outcome, n') :=
        Breakdown.bind_eq (hcomplete.trans (Breakdown.bind_eq hall _)) _
      exact .inr ⟨why, n', hended, .serving hawait honce hserved hx hcalls⟩
  · have hended : carriedOn plan last n = (why.outcome, n₁) :=
      Breakdown.bind_eq (Breakdown.bind_eq hawait _) _
    exact .inr ⟨why, n₁, hended, .waiting hawait honce⟩

/-! ### All passes of a run -/

theorem passes_of_asked (last : Duration) (most : Nat) (h : n.world.stopping) :
    passes last most n = (some <$> finish : Loop κ (Option Tally)) n := by
  cases most <;>
  · show (if n.world.stopping then _ else _ : Loop κ (Option Tally)) n = _
    rw [if_pos h]

theorem passes_zero (last : Duration) (h : n.world.stopping = false) :
    passes last 0 n = (.ok none, n) := by
  show (if n.world.stopping then _ else _ : Loop κ (Option Tally)) n = _
  rw [if_neg (Bool.eq_false_iff.mp h)]
  rfl

theorem passes_succ (last : Duration) (most : Nat) (h : n.world.stopping = false) :
    passes last (most + 1) n = (do
      let _ ← Reactor.pass
      let last ← report last
      passes last most : Loop κ (Option Tally)) n := by
  show (if n.world.stopping then _ else _ : Loop κ (Option Tally)) n = _
  rw [if_neg (Bool.eq_false_iff.mp h)]

theorem Begun.passes_eq (h : Begun n plan n₁) (last : Duration) (most : Nat) :
    passes last (most + 1) n = (carriedOn plan last >>= fun last => passes last most) n₁ := by
  have hbegun : Reactor.pass n = complete plan n₁ := bind_of_ok h.planned
  rw [passes_succ last most h.unasked]
  simp only [carriedOn, bind_apply, hbegun]
  rcases complete plan n₁ with ⟨o, n₂⟩
  cases o <;> rfl

theorem Halts.next {o : Outcome (Option Tally)} (begun : Begun n plan n₁)
    (completed : Completed plan last n₁ last₁ n₂) (h : Halts most n₂ last₁ o n') :
    Halts (most + 1) n last o n' := by
  cases h with
  | asked passes within asked finished silent =>
    exact .asked (.next begun completed passes) (Nat.succ_le_succ within) asked finished silent
  | unasked passes unasked => exact .unasked (.next begun completed passes) unasked
  | broken passes within begun' broken =>
    exact .broken (.next begun completed passes) (Nat.succ_lt_succ within) begun' broken

/-- Passes are made until there is a request or one of them breaks down. -/
theorem halts_passes (last : Duration) (most : Nat) (n : Node κ) :
    Halts most n last (passes last most n).1 (passes last most n).2 := by
  have hasked : ∀ (last : Duration) (most : Nat) (n : Node κ), n.world.stopping →
      Halts most n last (passes last most n).1 (passes last most n).2 := by
    intro last most n h
    obtain ⟨tally, n', hfinish, hsilent⟩ := finish_apply n
    have hpasses : passes last most n = (.ok (some tally), n') := by
      rw [passes_of_asked last most h]
      exact bind_of_ok hfinish
    rw [hpasses]
    exact .asked .none (Nat.zero_le most) h hfinish hsilent
  induction most generalizing last n with
  | zero =>
    cases h : n.world.stopping with
    | true => exact hasked last 0 n h
    | false =>
      rw [passes_zero last h]
      exact .unasked .none h
  | succ most ih =>
    cases h : n.world.stopping with
    | true => exact hasked last (most + 1) n h
    | false =>
      obtain ⟨plan, n₁, hbegun⟩ := begun_of_unasked h
      rw [hbegun.passes_eq]
      rcases carriedOn_cases plan last n₁ with
        ⟨last₁, n₂, hended, hcompleted⟩ | ⟨why, n₂, hended, hbroken⟩
      · rw [bind_of_ok hended]
        exact (ih last₁ n₂).next hbegun hcompleted
      · rw [Breakdown.bind_eq hended]
        exact .broken .none (Nat.zero_lt_succ most) hbegun hbroken

theorem Completed.carriedOn_eq (h : Completed plan last n last' n') :
    carriedOn plan last n = (.ok last', n') := by
  have hall : ∀ {due : List Readiness} {n n' : Node κ}, Served n due n' →
      dispatchAll due n = (.ok (), n') := by
    intro due n n' h
    induction h with
    | done => rfl
    | next dispatched _ ih => exact (bind_of_ok dispatched).trans ih
  cases h with
  | @intro ready n₁ n₂ _ waited _ served reported _ _ =>
    have hserving : (do dispatchAll ready; pure ready.length : Loop κ Nat) n₁ =
        (.ok ready.length, n₂) := bind_of_ok (hall served)
    exact (bind_of_ok ((bind_of_ok waited).trans hserving)).trans reported

/-- Passes that were made are behind a reactor. -/
theorem Passes.passes_eq (h : Passes n last count n' last') (more : Nat) :
    passes last (count + more) n = passes last' more n' := by
  induction h with
  | none => rw [Nat.zero_add]
  | @next _ _ _ _ _ _ _ _ count begun completed _ ih =>
    rw [Nat.add_right_comm, begun.passes_eq, bind_of_ok completed.carriedOn_eq, ih]

/-- A reactor answers its counters exactly if it comes to a request to stop without a breakdown. -/
theorem answers_iff (last : Duration) (most : Nat) (n : Node κ) :
    (∃ tally, (passes last most n).1 = .ok (some tally)) ↔
      ∃ count ≤ most, ∃ n' last', Passes n last count n' last' ∧ n'.world.stopping := by
  constructor
  · rintro ⟨tally, hanswer⟩
    have hhalts := halts_passes last most n
    rw [hanswer] at hhalts
    generalize hend : (.ok (some tally) : Outcome (Option Tally)) = o at hhalts
    cases hhalts with
    | asked passes within asked _ _ => exact ⟨_, within, _, _, passes, asked⟩
    | unasked => cases hend
    | @broken _ _ _ _ _ _ why => exact absurd hend.symm (why.outcome_ne_ok _)
  · rintro ⟨count, hle, n', last', hpasses, hasked⟩
    obtain ⟨more, rfl⟩ := Nat.exists_eq_add_of_le hle
    obtain ⟨tally, n'', hfinish, -⟩ := finish_apply n'
    rw [hpasses.passes_eq more, passes_of_asked last' more hasked]
    exact ⟨tally, congrArg Prod.fst (bind_of_ok hfinish : (some <$> finish : Loop κ _) n' = _)⟩

end Node

end SpanEcho

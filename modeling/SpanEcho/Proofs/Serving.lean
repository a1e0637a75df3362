import SpanEcho.Proofs.Fleet
import SpanEcho.Proofs.Reactor.Reaches
import SpanEcho.Script.Kernel

/-!
# Servers hold what they opened

While a server runs, the descriptors that are open are its listeners and the sockets of its live
connections, and no call names another. Once it ends, whatever it ends with, each descriptor that
it was ever handed has been closed, and closed once.
-/

namespace SpanEcho

open SpanEcho.Action Scene

variable {κ : Type} [Kernel κ] {held : List Descriptor}

namespace Serving

/-- The listeners opened so far are held, or all are closed. -/
theorem holds_openMore (port : Nat) (backlog : Int) (opened : List Descriptor) (count : Nat) :
    Triple (Holds opened) (openMore port backlog opened count : Sys κ (List Descriptor))
      (Outcome.Ends (fun fds => Holds fds) (Holds [])) := by
  induction count generalizing opened with
  | zero => exact Triple.pure fun _ _ h => h
  | succ count ih =>
    refine Triple.bind (Socket.triple_closingOnFailure (Socket.holds_listenOn port backlog true)
      (Socket.holds_closeAll opened)) fun fd => (ih (opened ++ [fd])).strengthen ?_
    intro past _ h
    obtain ⟨traffic, hl⟩ := h
    exact ⟨traffic, hl.perm (List.perm_append_singleton fd opened).symm⟩

theorem triple_assemble (s : Settings) :
    Triple (Holds []) (assemble s : Sys κ Fleet)
      (Outcome.Ends (fun f past => f.Sound past) (Holds [])) := by
  refine Triple.bind (Socket.holds_listenOn s.port s.backlog true) fun first => ?_
  refine Triple.bind (holds_portOf first) fun port => ?_
  refine Triple.bind (holds_openMore port s.backlog [first] (s.workers - 1)) fun listeners => ?_
  refine (Sys.silent_log _ _).bind (Triple.pure ?_)
  intro past _ h
  obtain ⟨traffic, hl⟩ := h
  exact ⟨traffic, traffic, hl, by simp, fun _ _ => rfl⟩

open Fleet (Settles)

/-- A reactor that has run to its end closes down. -/
theorem triple_runToEnd (most : Nat) (r : Reactor) {P : Scene → Prop}
    {Q : Outcome (Option Tally) → Scene → Prop} {good : Outcome (Option Tally) → List Event → Prop}
    {law : List Event → Prop} [Hereditary law]
    (hrun : Triple P (Reactor.run most : Loop κ (Option Tally)) Q law)
    (hclose : ∀ r o, Triple (fun past => Q o ⟨r, past⟩) (do
      r.closeAll
      Action.ofOutcome o : Sys κ (Option Tally)) good law)
    (hnone : ∀ v, Q (.ok none) v → good (.ok none) v.past) :
    Triple (fun past => P ⟨r, past⟩) (runToEnd most r : Sys κ (Option Tally)) good law := by
  constructor
  · intro w
    have hgrows := hrun.grows ⟨r, w⟩
    unfold runToEnd
    split <;> rename_i heq <;> rw [heq] at hgrows
    · exact hgrows
    · exact hgrows.trans ((hclose _ _).grows _)
  · intro w hw
    have hensures := hrun.ensures ⟨r, w⟩ hw
    unfold runToEnd
    split <;> rename_i heq <;> rw [heq] at hensures <;> intro hlaw
    · exact hnone _ (hensures hlaw)
    · exact (hclose _ _).ensures _
        (hensures (Hereditary.of_suffix hlaw ((hclose _ _).grows _))) hlaw

theorem settles_runToEnd (most : Nat) (r : Reactor) :
    Triple (fun past => Scene.Sound [] (fun _ => {}) ⟨r, past⟩)
      (runToEnd most r : Sys κ (Option Tally)) Settles := by
  refine triple_runToEnd most r (Reactor.sound_run most) (fun r o => ?_) fun v h => ?_
  · exact Triple.done_bind (Shard.triple_closeAll r)
      (Triple.ofOutcome fun _ _ h => ⟨[], ⟨_, h⟩, fun _ => rfl⟩)
  · obtain ⟨traffic, hl, -⟩ := h
    exact ⟨_, ⟨traffic, hl⟩, fun ho => absurd rfl ho⟩

theorem triple_serveAlone (most : Nat) (s : Settings) :
    Triple (Holds []) (serveAlone most s : Sys κ (Option Tally)) Settles := by
  refine Triple.bind (holds_launch s) (fun r => (settles_runToEnd most r).strengthen ?_) ?_ ?_
  · intro past _ hs
    obtain ⟨listener, rfl, -, h⟩ := hs
    exact Reactor.sound_fresh h
  · exact fun _ _ h => ⟨[], h, fun _ => rfl⟩
  · exact fun _ _ h => ⟨[], h, fun _ => rfl⟩

/-- However serving ends, nothing is left open. -/
theorem triple_serve (most : Nat) (schedule : List Turn) (s : Settings) :
    Triple (Holds []) (serve most schedule s : Sys κ (Option Tally)) Settles := by
  have hnone : ∀ (o : Outcome (Option Tally)) (past : List Event), Holds [] past → Settles o past :=
    fun _ _ h => ⟨[], h, fun _ => rfl⟩
  refine Triple.bind (Q := Outcome.Ends (fun _ => Holds []) (Holds []))
    (Triple.failIf (fun _ _ h => h) fun _ _ _ h => h) (fun _ => ?_) (fun _ _ h => hnone _ _ h)
    fun _ _ h => hnone _ _ h
  split
  · exact triple_serveAlone most s
  · refine Triple.bind (triple_assemble s) (fun fleet => ?_) (fun _ _ h => hnone _ _ h)
      fun _ _ h => hnone _ _ h
    exact Triple.answer_bind (Fleet.triple_follow schedule fleet) Fleet.triple_conclude

/-- **What is opened is closed once.** In a served run no call names a descriptor that is not open;
and when serving has ended, with an answer, a failure or a defect, every descriptor was closed once
for each time it was handed out. Between the steps of a single reactor the open descriptors are its
listener and the sockets of its live connections; between the turns of a fleet, those of all its
reactors and the listeners that wait. No answer within the bound (`.ok none`) is not an end of
serving, and nothing is said of it here: when a reactor does answer is said by `endings_of_runs`. -/
theorem descriptors_of_serve {most : Nat} {schedule : List Turn} {s : Settings} {w₀ w : World κ}
    {o : Outcome (Option Tally)} (hstart : w₀.past = [])
    (hserve : serve most schedule s w₀ = (o, w)) (hlaw : Lawful w.past) :
    Orderly w.past ∧
    (o ≠ .ok none → openAfter w.past = [] ∧
      ∀ before e after fd, w.trace = before ++ e :: after → e.opened? = some fd →
        (lifetime fd after).countP (fun x => x.closed? = some fd) = 1) ∧
    (∀ r w₁ n, launch s w₀ = (.ok r, w₁) → Node.Reaches ⟨r, w₁⟩ n [] → Lawful n.world.past →
      (openAfter n.world.past).Perm
        (n.reactor.listener :: n.reactor.registry.toList.map (·.2.socket))) ∧
    (∀ fleet w₁ turns fleet' w₂, assemble s w₀ = (.ok fleet, w₁) →
      Fleet.follow turns fleet w₁ = (.ok fleet', w₂) → Lawful w₂.past →
      (openAfter w₂.past).Perm fleet'.held ∧ fleet'.held.Nodup) := by
  have hempty : Holds [] w₀.past := by
    rw [hstart]
    exact ⟨fun _ => {}, .empty _⟩
  obtain ⟨held, ⟨traffic, hl⟩, hsettled⟩ : Settles o w.past := by
    have hsettles := (triple_serve most schedule s).ensures w₀ hempty
    rw [hserve] at hsettles
    exact hsettles hlaw
  refine ⟨hl.orderly, fun ho => ?_, fun r w₁ n hlaunch hreach hn => ?_,
    fun fleet w₁ turns fleet' w₂ hassemble hfollow hw₂ => ?_⟩
  · have hclosed : openAfter w.past = [] := by
      have hopens := hl.opens
      rw [hsettled ho] at hopens
      exact List.perm_nil.mp hopens
    refine ⟨hclosed, fun before e after fd htrace he => ?_⟩
    rw [World.past_of_trace htrace] at hlaw hl hclosed
    rcases closed_or_open he hlaw hl.orderly with hcount | ⟨-, -, hopen⟩
    · exact hcount
    · rw [hclosed] at hopen
      cases hopen
  · have hstarting : Starting s.method.multiplexor s ⟨r, w₁⟩ := .launched hstart rfl hlaunch
    obtain ⟨traffic, hl, -⟩ := hstarting.sound_of_reaches hreach hn
    have hopens := hl.opens
    rw [List.append_nil] at hopens
    exact hopens
  · have hassembled := (triple_assemble s).ensures w₀ hempty
    have hfollowed := (Fleet.triple_follow turns fleet).ensures w₁
    have hgrows := (Fleet.triple_follow turns fleet).grows w₁
    rw [hassemble] at hassembled
    rw [hfollow] at hfollowed hgrows
    obtain ⟨_, ⟨⟩, hsound⟩ := hfollowed (hassembled (hw₂.of_suffix hgrows)) hw₂
    obtain ⟨traffic, hl⟩ := hsound.holds
    exact ⟨hl.opens, hl.nodup hw₂⟩

end Serving

namespace Refused

/-- Two reactors are asked for, but a thread can be had for one only, after it has accepted a
connection. -/
def world : World Script :=
  { level := .off
    kernel :=
      { queues := [(3, [.connection none ⟨2, 16, ⟨.unspecified, 40001⟩⟩ true {}])]
        waits := [(.reactor 0, [{ ready := [(3, { readable := true })] }])]
        mishaps := [{ operation := "pthread_create", errno := .again, skip := 1 }] } }

def schedule : List Turn :=
  [.main, .shard 0, .shard 0, .shard 0, .main, .shard 0]

@[irreducible] def served : Outcome (Option Tally) × World Script :=
  Serving.serve 0 schedule { workers := 2 } world

/-- The acceptance of the connection. -/
def accepted : Event :=
  served.2.trace.get ⟨21, by decide +kernel⟩

def after : List Event :=
  served.2.trace.drop 22

theorem descriptors_of_served :
    world.past = [] ∧ Lawful served.2.past ∧ served.1 = .failed (.system "spawn" .again) ∧
      Orderly served.2.past ∧ openAfter served.2.past = [] ∧ accepted.opened? = some 5 ∧
      (lifetime 5 after).countP (fun x => x.closed? = some 5) = 1 := by
  have hserve : Serving.serve 0 schedule { workers := 2 } world = (served.1, served.2) := by
    rw [served]
  have hlaw : Lawful served.2.past := by decide +kernel
  have hfailed : served.1 = .failed (.system "spawn" .again) := by decide +kernel
  have hopened : accepted.opened? = some 5 := by decide +kernel
  have htrace : served.2.trace = served.2.trace.take 21 ++ accepted :: after := by
    rw [accepted, after, List.get_eq_getElem, ← List.drop_eq_getElem_cons, List.take_append_drop]
  obtain ⟨horderly, hended, -, -⟩ := Serving.descriptors_of_serve rfl hserve hlaw
  have hne : served.1 ≠ .ok none := by simp [hfailed]
  obtain ⟨hclosed, honce⟩ := hended hne
  have hcount := honce _ accepted after 5 htrace hopened
  exact ⟨rfl, hlaw, hfailed, horderly, hclosed, hopened, hcount⟩

end Refused

end SpanEcho

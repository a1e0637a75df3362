import SpanEcho.Proofs.Reactor.Launch

/-!
# What a reactor can come to

`Reaches` has every state between two steps of a reactor: it starts, waits, serves what is ready
one descriptor after the other, reports and finishes, in any order in which a run could do so. Runs
pass through nothing else, and every state is sound.
-/

namespace SpanEcho

open SpanEcho.Action Scene Reactor Loop

variable {κ : Type} [Kernel κ]

/-- A reactor that was just made, on a listening socket of its own or to serve alone. -/
inductive Starting (m : Multiplexor) (s : Settings) : Node κ → Prop
  | created {w₀ w₁ w₂ : World κ} {port : Nat} {backlog : Int} {reusePort : Bool}
      {listener : Descriptor} {r : Reactor} (past : w₀.past = [])
      (opened : Socket.listenOn port backlog reusePort w₀ = (.ok listener, w₁))
      (made : create listener m s w₁ = (.ok r, w₂)) : Starting m s ⟨r, w₂⟩
  | launched {w₀ w₁ : World κ} {r : Reactor} (past : w₀.past = [])
      (method : m = s.method.multiplexor) (made : Serving.launch s w₀ = (.ok r, w₁)) :
      Starting m s ⟨r, w₁⟩

/-- What a node comes to between two steps, and which of the descriptors that the last wait listed
are still to be served. After a pass that ended early, none are. -/
inductive Node.Reaches (n₀ : Node κ) : Node κ → List Readiness → Prop
  | here : n₀.Reaches n₀ []
  | start {n : Node κ} (h : n₀.Reaches n []) : n₀.Reaches (Reactor.start n).2 []
  | wait {n : Node κ} (h : n₀.Reaches n []) :
      n₀.Reaches ((prepare >>= await) n).2 (Readiness.afterWait ((prepare >>= await) n).1)
  | dispatch {n : Node κ} {ready : Readiness} {due : List Readiness}
      (h : n₀.Reaches n (ready :: due)) :
      n₀.Reaches (Reactor.dispatch ready n).2
        (if (Reactor.dispatch ready n).1.isOk then due else [])
  | report {n : Node κ} (h : n₀.Reaches n []) (last : Duration) :
      n₀.Reaches (Reactor.report last n).2 []
  | finish {n : Node κ} (h : n₀.Reaches n []) : n₀.Reaches (Reactor.finish n).2 []

variable {m : Multiplexor} {s : Settings} {n₀ n : Node κ} {due : List Readiness}

/-! ## Soundness -/

/-- A new reactor has acceptable settings, and is sound. -/
theorem Starting.sound (h : Starting m s n₀) (hlaw : Lawful n₀.world.past) :
    (∃ listener, n₀.reactor = fresh listener m s) ∧ s.failure? = none ∧
      Scene.Sound [] (fun _ => {}) (Viewed.view n₀) := by
  have hempty : ∀ {w₀ : World κ}, w₀.past = [] → Holds [] w₀.past := fun hp => by
    rw [hp]
    exact ⟨fun _ => {}, .empty _⟩
  suffices h : ∃ listener, n₀.reactor = fresh listener m s ∧ s.failure? = none ∧
      Holds [listener] n₀.world.past by
    obtain ⟨listener, hr, hs, hholds⟩ := h
    refine ⟨⟨listener, hr⟩, hs, ?_⟩
    show Scene.Sound [] _ ⟨n₀.reactor, n₀.world.past⟩
    rw [hr]
    exact sound_fresh hholds
  cases h with
  | @created w₀ w₁ w₂ port backlog reusePort listener r past opened made =>
    have hlisten := (Socket.holds_listenOn port backlog reusePort).ensures w₀ (hempty past)
    rw [opened] at hlisten
    have hcreate : ∀ traffic, Triple (Ledger [listener] traffic)
        (create listener m s : Sys κ Reactor) _ := fun _ => triple_create listener m s
    have hgrows := (hcreate fun _ => {}).grows w₁
    rw [made] at hgrows
    obtain ⟨traffic, hl⟩ := hlisten (hlaw.of_suffix hgrows)
    have hmade := (hcreate traffic).ensures w₁ hl
    rw [made] at hmade
    obtain ⟨⟨hr, hledger⟩, hs⟩ := hmade hlaw
    exact ⟨listener, hr, hs, traffic, hledger⟩
  | @launched w₀ w₁ r past method made =>
    have hlaunch := (Serving.holds_launch s).ensures w₀ (hempty past)
    rw [made, ← method] at hlaunch
    exact hlaunch hlaw

/-- What every step keeps, in sight of the descriptors that are still to be served. -/
structure Node.Invariant (κ : Type) [Kernel κ] (I : List Readiness → Scene → Prop)
    (law : List Event → Prop := Lawful) : Prop where
  start : Keeps (I []) (Reactor.start : Loop κ Duration) law
  wait : Triple (I []) (prepare >>= await : Loop κ (List Readiness))
    (fun o => I (Readiness.afterWait o)) law
  dispatch : ∀ ready due, Triple (I (ready :: due)) (Reactor.dispatch ready : Loop κ Unit)
    (fun o => I (if o.isOk then due else [])) law
  report : ∀ last, Keeps (I []) (Reactor.report last : Loop κ Duration) law
  finish : Keeps (I []) (Reactor.finish : Loop κ Tally) law

namespace Node

variable {I : List Readiness → Scene → Prop} {law : List Event → Prop} [Hereditary law]

/-- An invariant that holds at the start holds throughout. -/
theorem Invariant.holds (hI : Invariant κ I law) (h : n₀.Reaches n due)
    (h₀ : law n₀.world.past → I [] (Viewed.view n₀)) (hlaw : law n.world.past) :
    I due (Viewed.view n) := by
  have hnext : ∀ {α : Type} {m : Loop κ α} {n : Node κ} {due} {Q : Outcome α → Scene → Prop},
      Triple (I due) m Q law → (law n.world.past → I due (Viewed.view n)) →
      law (m n).2.world.past → Q (m n).1 (Viewed.view (m n).2) := fun hm hn hlaw =>
    hm.ensures _ (hn (Hereditary.of_suffix hlaw (hm.grows _))) hlaw
  induction h with
  | here => exact h₀ hlaw
  | start _ ih => exact hnext hI.start ih hlaw
  | wait _ ih => exact hnext hI.wait ih hlaw
  | dispatch _ ih => exact hnext (hI.dispatch _ _) ih hlaw
  | report _ last ih => exact hnext (hI.report last) ih hlaw
  | finish _ ih => exact hnext hI.finish ih hlaw

theorem quiet_wait : Quiet (prepare >>= await : Loop κ (List Readiness)) :=
  .bind quiet_prepare fun plan => quiet_await plan

/-- Nothing is taken from the past. -/
theorem Reaches.grows (h : n₀.Reaches n due) : n₀.world.past <:+ n.world.past := by
  induction h with
  | here => exact List.suffix_rfl
  | start _ ih => exact ih.trans (quiet_start.tame.grows.grows _)
  | wait _ ih => exact ih.trans (quiet_wait.tame.grows.grows _)
  | dispatch _ ih => exact ih.trans ((tame_dispatch _).grows.grows _)
  | report _ last ih => exact ih.trans ((quiet_report last).tame.grows.grows _)
  | finish _ ih => exact ih.trans (quiet_finish.tame.grows.grows _)

theorem invariant_steady (r : Reactor) : Invariant κ fun _ v => r.Steady v.reactor where
  start := quiet_start.tame.steady r
  wait := quiet_wait.tame.steady r
  dispatch := fun ready _ => (tame_dispatch ready).steady r
  report := fun last => (quiet_report last).tame.steady r
  finish := quiet_finish.tame.steady r

theorem invariant_sound {others : List Descriptor} {theirs : Descriptor → Traffic} :
    Invariant κ fun _ => Scene.Sound others theirs where
  start := sound_start
  wait := Triple.bind sound_prepare sound_await
  dispatch := fun ready _ => sound_dispatch ready
  report := sound_report
  finish := sound_finish

end Node

/-- A started reactor is sound in every state it comes to. -/
theorem Starting.sound_of_reaches (hstart : Starting m s n₀) (hreach : n₀.Reaches n due)
    (hlaw : Lawful n.world.past) : Scene.Sound [] (fun _ => {}) (Viewed.view n) :=
  Node.invariant_sound.holds hreach (fun hlaw => (hstart.sound hlaw).2.2) hlaw

/-! ## Runs -/

namespace Node

theorem Reaches.dispatchAll (h : n₀.Reaches n due) :
    n₀.Reaches (Reactor.dispatchAll due n).2 [] := by
  induction due generalizing n with
  | nil => exact h
  | cons ready due ih =>
    have hnext := h.dispatch
    rw [Reactor.dispatchAll, bind_apply]
    split <;> rename_i heq <;> rw [heq] at hnext
    · exact ih hnext
    · exact hnext
    · exact hnext

theorem Reaches.pass (h : n₀.Reaches n []) : n₀.Reaches (Reactor.pass n).2 [] := by
  have hwait := h.wait
  have hassoc : Reactor.pass n = ((prepare >>= await) >>= fun ready => do
      Reactor.dispatchAll ready
      pure ready.length) n := by
    simp only [Reactor.pass, complete, bind_apply]
    rcases prepare n with ⟨o, n'⟩
    cases o <;> rfl
  rw [hassoc, bind_apply]
  split <;> rename_i heq <;> rw [heq] at hwait
  · rename_i ready n'
    have hall : n₀.Reaches (Reactor.dispatchAll ready n').2 [] := hwait.dispatchAll
    rw [bind_apply]
    split <;> rename_i heq <;> rwa [heq] at hall
  · exact hwait
  · exact hwait

theorem Reaches.passes (h : n₀.Reaches n []) (last : Duration) (most : Nat) :
    n₀.Reaches (Reactor.passes last most n).2 [] := by
  induction most generalizing n last with
  | zero =>
    show n₀.Reaches
      ((if n.world.stopping then some <$> Reactor.finish else pure none : Loop κ _) n).2 []
    split
    · exact h.finish
    · exact h
  | succ most ih =>
    show n₀.Reaches ((if n.world.stopping then some <$> Reactor.finish else do
      let _ ← Reactor.pass
      let last ← Reactor.report last
      Reactor.passes last most : Loop κ _) n).2 []
    split
    · exact h.finish
    · have hpass := h.pass
      rw [bind_apply]
      split <;> rename_i heq <;> rw [heq] at hpass
      · have hreport := hpass.report last
        rw [bind_apply]
        split <;> rename_i heq <;> rw [heq] at hreport
        · exact ih hreport _
        · exact hreport
        · exact hreport
      · exact hpass
      · exact hpass

/-- A run passes through nothing else. -/
theorem Reaches.run (h : n₀.Reaches n []) (most : Nat) : n₀.Reaches (Reactor.run most n).2 [] := by
  have hstart := h.start
  rw [Reactor.run, bind_apply]
  split <;> rename_i heq <;> rw [heq] at hstart
  · exact hstart.passes _ most
  · exact hstart
  · exact hstart

end Node

namespace Reactor

theorem sound_run {others : List Descriptor} {theirs : Descriptor → Traffic} (most : Nat) :
    Keeps (Scene.Sound others theirs) (run most : Loop κ (Option Tally)) where
  grows := fun _ => (Node.Reaches.here.run most).grows
  ensures := fun _ h hlaw =>
    Node.invariant_sound.holds (Node.Reaches.here.run most) (fun _ => h) hlaw

end Reactor

end SpanEcho

import SpanEcho.Proofs.Trace
import SpanEcho.Reactor.Basic

/-!
# What actions leave behind

A triple says two things of an action. The past it leaves is the one it found with events before
it; and from a state with `P` it ends with `Q`, unless the kernel was not lawful on the way. Since
the past only grows, the kernel was lawful in every state on the way to a lawful one, and triples
are put together as the actions are. What is asked of the kernel is `Lawful`, where nothing else is
said; it can be anything that goes for the beginning of a past with the whole of it.

Assertions see little of a state: of a world only its past, of a node also its reactor. What the
kernel is, what was logged and who asked the server to stop, they cannot speak of.
-/

namespace SpanEcho

/-- What goes for a past goes for its beginnings. -/
class Hereditary (law : List Event → Prop) : Prop where
  of_suffix : ∀ {past later}, law later → past <:+ later → law past

instance : Hereditary Lawful :=
  ⟨Lawful.of_suffix⟩

/-- States of which assertions see a view, with a past in it. -/
class Viewed (σ : Type) (ν : outParam Type) where
  view : σ → ν
  past : ν → List Event

/-- What assertions see of a node. -/
structure Scene where
  reactor : Reactor
  past : List Event

instance {κ : Type} : Viewed (World κ) (List Event) where
  view := World.past
  past := id

instance {κ : Type} : Viewed (Node κ) Scene where
  view n := ⟨n.reactor, n.world.past⟩
  past := Scene.past

/-- One thing after a value, another after a failure or a defect. -/
def Outcome.Ends {α ν : Type} (good : α → ν → Prop) (bad : ν → Prop) : Outcome α → ν → Prop
  | .ok a => good a
  | _ => bad

namespace Outcome.Ends

variable {α ν ν' : Type} {good : α → ν → Prop} {good' : α → ν' → Prop} {bad : ν → Prop}
  {bad' : ν' → Prop} {o : Outcome α} {v : ν} {v' : ν'}

theorem imp (h : Ends good bad o v) (hgood : ∀ a, good a v → good' a v') (hbad : bad v → bad' v') :
    Ends good' bad' o v' := by
  cases o with
  | ok a => exact hgood a h
  | failed e => exact hbad h
  | defect d => exact hbad h

/-- What follows from either ending does not depend on how an action ends. -/
theorem either {p : Prop} (h : Ends good bad o v) (hgood : ∀ a, good a v → p) (hbad : bad v → p) :
    p := by
  cases o with
  | ok a => exact hgood a h
  | failed e => exact hbad h
  | defect d => exact hbad h

end Outcome.Ends

namespace Action

variable {σ ν α β : Type} [Viewed σ ν]

/-- The past as a state has it. -/
abbrev pastOf (s : σ) : List Event :=
  Viewed.past σ (Viewed.view s)

structure Triple (P : ν → Prop) (m : Action σ α) (Q : Outcome α → ν → Prop)
    (law : List Event → Prop := Lawful) : Prop where
  grows : ∀ s, pastOf s <:+ pastOf (m s).2
  ensures : ∀ s, P (Viewed.view s) → law (pastOf (m s).2) → Q (m s).1 (Viewed.view (m s).2)

/-- The same of a value and of a failure; of a defect, nothing is true. -/
def Safely {α ν : Type} (Q : Outcome α → ν → Prop) : Outcome α → ν → Prop
  | .defect _ => fun _ => False
  | o => Q o

/-- The action ends with what it found, however it ends. -/
abbrev Keeps (I : ν → Prop) (m : Action σ α) (law : List Event → Prop := Lawful) : Prop :=
  Triple I m (fun _ => I) law

/-- The action never ends with a defect. -/
def Flawless {σ α : Type} (m : Action σ α) : Prop :=
  ∀ s d, (m s).1 ≠ .defect d

/-- The action always ends with a value. -/
def Sure {σ α : Type} (m : Action σ α) : Prop :=
  ∀ s, ∃ a s', m s = (.ok a, s')

/-- The action ends with a value and changes nothing that can be seen. -/
def Silent (m : Action σ Unit) : Prop :=
  ∀ s, (m s).1 = .ok () ∧ Viewed.view (m s).2 = Viewed.view s

omit [Viewed σ ν] in
theorem bind_eq_ok {m : Action σ α} {f : α → Action σ β} {s s' : σ} {b : β} :
    (m >>= f) s = (.ok b, s') ↔ ∃ a s₁, m s = (.ok a, s₁) ∧ f a s₁ = (.ok b, s') := by
  rw [bind_apply]
  constructor
  · intro h
    split at h
    · exact ⟨_, _, ‹_›, h⟩
    · cases h
    · cases h
  · intro h
    obtain ⟨a, s₁, hm, hf⟩ := h
    rw [hm]
    exact hf

omit [Viewed σ ν] in
theorem attempt_state (m : Action σ α) (s : σ) : (Action.attempt m s).2 = (m s).2 := by
  unfold Action.attempt
  split <;> rename_i heq <;> rw [heq]

/-- What comes after an action only adds to the past. -/
theorem grows_bind {m : Action σ α} {f : α → Action σ β}
    (hf : ∀ a s, pastOf s <:+ pastOf (f a s).2) (s : σ) :
    pastOf (m s).2 <:+ pastOf ((m >>= f) s).2 := by
  rw [bind_apply]
  rcases m s with ⟨o, s'⟩
  cases o with
  | ok a => exact hf a s'
  | failed e => exact List.suffix_rfl
  | defect d => exact List.suffix_rfl

namespace Triple

variable {P P' : ν → Prop} {Q Q' : Outcome α → ν → Prop} {R : Outcome β → ν → Prop}
  {m : Action σ α} {law : List Event → Prop}

theorem weaken [Hereditary law] (h : Triple P m Q law)
    (hP : ∀ v, law (Viewed.past σ v) → P' v → P v)
    (hQ : ∀ o v, law (Viewed.past σ v) → Q o v → Q' o v) : Triple P' m Q' law where
  grows := h.grows
  ensures := fun s hs hlaw =>
    hQ _ _ hlaw (h.ensures s (hP _ (Hereditary.of_suffix hlaw (h.grows s)) hs) hlaw)

theorem strengthen [Hereditary law] (h : Triple P m Q law)
    (hP : ∀ v, law (Viewed.past σ v) → P' v → P v) : Triple P' m Q law :=
  h.weaken hP fun _ _ _ h => h

/-- What does not depend on the state outlasts every action. -/
theorem frame {φ : Prop} (h : Triple P m Q law) :
    Triple (fun v => P v ∧ φ) m (fun o v => Q o v ∧ φ) law where
  grows := h.grows
  ensures := fun s hs hlaw => ⟨h.ensures s hs.1 hlaw, hs.2⟩

theorem frame_answer [Hereditary law] {φ : Prop} {A : α → ν → Prop}
    (h : Triple P m (fun o v => ∃ a, o = .ok a ∧ A a v) law) :
    Triple (fun v => P v ∧ φ) m (fun o v => ∃ a, o = .ok a ∧ A a v ∧ φ) law := by
  refine h.frame.weaken (fun _ _ h => h) ?_
  rintro _ v - ⟨⟨a, rfl, ha⟩, hφ⟩
  exact ⟨a, rfl, ha, hφ⟩

theorem ofOutcome {o : Outcome α} (h : ∀ v, law (Viewed.past σ v) → P v → Q o v) :
    Triple P (Action.ofOutcome o : Action σ α) Q law where
  grows := fun _ => List.suffix_rfl
  ensures := fun _ hs hlaw => h _ hlaw hs

theorem pure {a : α} (h : ∀ v, law (Viewed.past σ v) → P v → Q (.ok a) v) :
    Triple P (Pure.pure a : Action σ α) Q law :=
  ofOutcome h

theorem fail {e : Failure} (h : ∀ v, law (Viewed.past σ v) → P v → Q (.failed e) v) :
    Triple P (Action.fail e : Action σ α) Q law :=
  ofOutcome h

theorem stop {d : Defect} (h : ∀ v, law (Viewed.past σ v) → P v → Q (.defect d) v) :
    Triple P (Action.stop d : Action σ α) Q law :=
  ofOutcome h

theorem bind [Hereditary law] {f : α → Action σ β} (hm : Triple P m Q law)
    (hf : ∀ a, Triple (Q (.ok a)) (f a) R law)
    (he : ∀ e v, Q (.failed e) v → R (.failed e) v := by exact fun _ _ h => h)
    (hd : ∀ d v, Q (.defect d) v → R (.defect d) v := by exact fun _ _ h => h) :
    Triple P (m >>= f) R law := by
  constructor
  · intro s
    exact (hm.grows s).trans (grows_bind (fun a => (hf a).grows) s)
  · intro s hs
    rw [bind_apply]
    have hq := hm.ensures s hs
    split <;> rename_i heq <;> rw [heq] at hq
    · exact fun hlaw => (hf _).ensures _ (hq (Hereditary.of_suffix hlaw ((hf _).grows _))) hlaw
    · exact fun hlaw => he _ _ (hq hlaw)
    · exact fun hlaw => hd _ _ (hq hlaw)

/-- After an action that can only answer, the rest goes on with the answer. -/
theorem answer_bind [Hereditary law] {A : α → ν → Prop} {f : α → Action σ β}
    (hm : Triple P m (fun o v => ∃ a, o = .ok a ∧ A a v) law) (hf : ∀ a, Triple (A a) (f a) R law) :
    Triple P (m >>= f) R law := by
  refine hm.bind (fun a => (hf a).strengthen ?_) ?_ ?_
  · rintro v - ⟨_, ⟨⟩, h⟩
    exact h
  · rintro e v ⟨_, ⟨⟩, -⟩
  · rintro d v ⟨_, ⟨⟩, -⟩

/-- After an action that can only succeed, the rest goes on. -/
theorem done_bind [Hereditary law] {A : ν → Prop} {m : Action σ Unit} {f : Unit → Action σ β}
    (hm : Triple P m (fun o v => o = .ok () ∧ A v) law) (hf : Triple A (f ()) R law) :
    Triple P (m >>= f) R law :=
  answer_bind (A := fun _ => A) (hm.weaken (fun _ _ h => h) fun _ _ _ h => ⟨(), h⟩) fun _ => hf

/-- Whatever way an observed action ends, the rest goes on with it. -/
theorem observe_bind [Hereditary law] {f : Outcome α → Action σ β} (hm : Triple P m Q law)
    (hf : ∀ o, Triple (Q o) (f o) R law) : Triple P (Action.observe m >>= f) R law where
  grows := fun s => (hm.grows s).trans ((hf (m s).1).grows (m s).2)
  ensures := fun s hs hlaw =>
    (hf (m s).1).ensures (m s).2
      (hm.ensures s hs (Hereditary.of_suffix hlaw ((hf (m s).1).grows (m s).2))) hlaw

/-- After an attempt the rest goes on with a value or a failure. -/
theorem attempt_bind [Hereditary law] {f : Except Failure α → Action σ β} (hm : Triple P m Q law)
    (hok : ∀ a, Triple (Q (.ok a)) (f (.ok a)) R law)
    (he : ∀ e, Triple (Q (.failed e)) (f (.error e)) R law)
    (hd : ∀ d v, Q (.defect d) v → R (.defect d) v := by exact fun _ _ h => h.elim) :
    Triple P (Action.attempt m >>= f) R law := by
  constructor
  · intro s
    have hg := hm.grows s
    rw [bind_apply, Action.attempt]
    cases heq : m s with
    | mk o s' =>
      rw [heq] at hg
      cases o with
      | ok a => exact hg.trans ((hok a).grows s')
      | failed e => exact hg.trans ((he e).grows s')
      | defect d => exact hg
  · intro s hP
    have hq := hm.ensures s hP
    rw [bind_apply, Action.attempt]
    cases heq : m s with
    | mk o s' =>
      rw [heq] at hq
      cases o with
      | ok a =>
        exact fun hlaw =>
          (hok a).ensures s' (hq (Hereditary.of_suffix hlaw ((hok a).grows s'))) hlaw
      | failed e =>
        exact fun hlaw => (he e).ensures s' (hq (Hereditary.of_suffix hlaw ((he e).grows s'))) hlaw
      | defect d => exact fun hlaw => hd d _ (hq hlaw)

/-- Under an action without defects nothing needs to be said of them. -/
theorem flawless (hm : Triple P m Q law) (hs : Flawless m) :
    Triple P m (Safely Q) law where
  grows := hm.grows
  ensures := fun s hP hlaw => by
    have hq := hm.ensures s hP hlaw
    have hd := hs s
    cases ho : (m s).1 with
    | ok a => rwa [ho] at hq
    | failed e => rwa [ho] at hq
    | defect d => exact absurd ho (hd d)

/-- One action under all values of a variable that its text does not mention. -/
theorem ofExists {ι : Type} [Nonempty ι] {P : ι → ν → Prop} (h : ∀ i, Triple (P i) m Q law) :
    Triple (fun v => ∃ i, P i v) m Q law where
  grows := (h Classical.ofNonempty).grows
  ensures := fun s ⟨i, hs⟩ hlaw => (h i).ensures s hs hlaw

/-- What holds besides may be used before the action runs. -/
theorem assume {φ : Prop} (hg : Keeps (fun _ => True) m) (h : φ → Triple P m Q law) :
    Triple (fun v => φ ∧ P v) m Q law where
  grows := hg.grows
  ensures := fun s ⟨hφ, hs⟩ hlaw => (h hφ).ensures s hs hlaw

theorem when {c : Bool} {m : Action σ Unit} {Q : Outcome Unit → ν → Prop}
    (h : Triple P m Q law) (hskip : ∀ v, law (Viewed.past σ v) → P v → Q (.ok ()) v) :
    Triple P (Action.when c m) Q law := by
  cases c with
  | true => exact h
  | false => exact pure hskip

theorem failIf {e : Option Failure} {Q : Outcome Unit → ν → Prop}
    (hnone : ∀ v, law (Viewed.past σ v) → P v → Q (.ok ()) v)
    (hsome : ∀ e v, law (Viewed.past σ v) → P v → Q (.failed e) v) :
    Triple P (Action.failIf e : Action σ Unit) Q law := by
  cases e with
  | none => exact pure hnone
  | some e => exact fail (hsome e)

theorem reserve {size : Nat} {Q : Outcome Unit → ν → Prop}
    (hok : ∀ v, law (Viewed.past σ v) → P v → Q (.ok ()) v)
    (hbad : ∀ d v, law (Viewed.past σ v) → P v → Q (.defect d) v) :
    Triple P (Memory.reserve size : Action σ Unit) Q law := by
  unfold Memory.reserve
  split
  · exact pure hok
  · exact stop (hbad _)

end Triple

namespace Keeps

variable {I : ν → Prop} {m : Action σ α} {law : List Event → Prop}

theorem bind [Hereditary law] {f : α → Action σ β} (hm : Keeps I m law)
    (hf : ∀ a, Keeps I (f a) law) : Keeps I (m >>= f) law :=
  Triple.bind hm hf

theorem observe (hm : Keeps I m law) : Keeps I (Action.observe m) law where
  grows := hm.grows
  ensures := hm.ensures

theorem attempt (hm : Keeps I m law) : Keeps I (Action.attempt m) law := by
  constructor
  · intro s
    rw [pastOf, attempt_state]
    exact hm.grows s
  · intro s hs hlaw
    rw [pastOf, attempt_state] at hlaw
    rw [attempt_state]
    exact hm.ensures s hs hlaw

end Keeps

namespace Flawless

variable {σ α β : Type}

theorem pure (a : α) : Flawless (Pure.pure a : Action σ α) :=
  fun _ _ => nofun

theorem fail (e : Failure) : Flawless (Action.fail e : Action σ α) :=
  fun _ _ => nofun

theorem bind {m : Action σ α} {f : α → Action σ β} (hm : Flawless m) (hf : ∀ a, Flawless (f a)) :
    Flawless (m >>= f) := by
  intro s d
  rw [bind_apply]
  split
  · exact hf _ _ d
  · exact nofun
  · rename_i heq
    exact absurd (congrArg Prod.fst heq) (hm s _)

theorem observe_bind {m : Action σ α} {f : Outcome α → Action σ β} (hm : Flawless m)
    (hok : ∀ a, Flawless (f (.ok a))) (he : ∀ e, Flawless (f (.failed e))) :
    Flawless (Action.observe m >>= f) := by
  intro s d
  show (f (m s).1 (m s).2).1 ≠ .defect d
  cases ho : (m s).1 with
  | ok a => exact hok a _ d
  | failed e => exact he e _ d
  | defect d' => exact absurd ho (hm s d')

end Flawless

namespace Sure

variable {σ α β : Type}

theorem pure (a : α) : Sure (Pure.pure a : Action σ α) :=
  fun s => ⟨a, s, rfl⟩

theorem bind {m : Action σ α} {f : α → Action σ β} (hm : Sure m) (hf : ∀ a, Sure (f a)) :
    Sure (m >>= f) := by
  intro s
  obtain ⟨a, s', hs⟩ := hm s
  rw [bind_of_ok hs]
  exact hf a s'

end Sure

namespace Silent

variable {P : ν → Prop} {Q : Outcome Unit → ν → Prop} {R : Outcome β → ν → Prop}
  {m : Action σ Unit} {law : List Event → Prop}

theorem triple (hm : Silent m) (h : ∀ v, law (Viewed.past σ v) → P v → Q (.ok ()) v) :
    Triple P m Q law := by
  constructor
  · intro s
    have hview : pastOf (m s).2 = pastOf s := congrArg (Viewed.past σ) (hm s).2
    exact hview ▸ List.suffix_rfl
  · intro s hs hlaw
    rw [pastOf, (hm s).2] at hlaw
    rw [(hm s).1, (hm s).2]
    exact h _ hlaw hs

theorem bind [Hereditary law] {f : Unit → Action σ β} (hm : Silent m)
    (hf : Triple P (f ()) R law) : Triple P (m >>= f) R law :=
  Triple.done_bind (hm.triple fun _ _ h => ⟨rfl, h⟩) hf

theorem pure : Silent (Pure.pure () : Action σ Unit) :=
  fun _ => ⟨rfl, rfl⟩

end Silent

end Action

open SpanEcho.Action

/-! ## Worlds -/

namespace World

variable {κ : Type}

theorem past_of_trace {w : World κ} {events : List Event} (h : w.trace = events) :
    w.past = events.reverse := by
  rw [← h, trace, List.reverse_reverse]

@[simp] theorem notice_past (w : World κ) (a : Arrival) : (w.notice a).past = w.past := by
  unfold notice
  split
  · rfl
  · split <;> rfl

@[simp] theorem foldl_notice_past (arrivals : List Arrival) (w : World κ) :
    (arrivals.foldl notice w).past = w.past := by
  induction arrivals generalizing w with
  | nil => rfl
  | cons a rest ih => simp [ih]

@[simp] theorem write_past (line : Log.Line) (w : World κ) : (w.write line).past = w.past := by
  unfold write
  split <;> rfl

/-- The event of a call. -/
def event [Kernel κ] (c : Call) (w : World κ) : Event :=
  let r := Kernel.respond w.thread c w.kernel
  ⟨w.thread, c, r.reply, r.arrivals⟩

theorem call_past [Kernel κ] (c : Call) (w : World κ) :
    (w.call c).2.past = w.event c :: w.past := by
  simp [call, event]

theorem trace_call [Kernel κ] (c : Call) (w : World κ) :
    (w.call c).2.trace = w.trace ++ [w.event c] := by
  rw [trace, call_past, List.reverse_cons, trace]

end World

namespace Sys

variable {κ α β : Type}

/-- How an action ends that demands the value of a reply. -/
def ending (operation : String) (answer : Answer α) : Outcome α :=
  match answer.result operation with
  | .ok value => .ok value
  | .error e => .failed e

theorem ending_ok {operation : String} {answer : Answer α} {value : α} :
    ending operation answer = .ok value ↔ answer = .ok value := by
  cases answer with
  | ok v => simp [ending, Answer.result]
  | notOpen => simp [ending, Answer.result]
  | failed errno =>
    simp only [ending, Answer.result]
    by_cases h : errno = .again ∨ errno = .interrupted <;> simp [h]

theorem ending_ne_defect (operation : String) (answer : Answer α) (d : Defect) :
    ending operation answer ≠ .defect d := by
  unfold ending
  split <;> exact nofun

variable {A : List Event → Prop} {B : Outcome α → List Event → Prop}
  {R : Outcome β → List Event → Prop} {law : List Event → Prop}

theorem silent_log (level : Log.Level) (text : String) :
    Silent (Sys.log level text : Sys κ Unit) :=
  fun w => ⟨rfl, World.write_past _ w⟩

theorem silent_askStop : Silent (Sys.askStop : Sys κ Unit) :=
  fun _ => ⟨rfl, rfl⟩

theorem silent_switchTo (t : Thread) : Silent (Sys.switchTo t : Sys κ Unit) :=
  fun _ => ⟨rfl, rfl⟩

theorem triple_stopping_bind [Hereditary law] {f : Bool → Sys κ β} (h : ∀ b, Triple A (f b) R law) :
    Triple A (Sys.stopping >>= f) R law :=
  Triple.bind (Q := Outcome.Ends (fun _ => A) fun _ => False)
    ⟨fun _ => List.suffix_rfl, fun _ hs _ => hs⟩ h (fun _ _ h => h.elim) (fun _ _ h => h.elim)

variable [Kernel κ]

/-- A call is described by its event. -/
theorem triple_call {c : Call} {B : Outcome c.Reply → List Event → Prop}
    (h : ∀ thread (reply : c.Reply) arrivals past, A past →
      law (⟨thread, c, reply, arrivals⟩ :: past) →
      B (.ok reply) (⟨thread, c, reply, arrivals⟩ :: past)) :
    Triple A (Sys.call c : Sys κ c.Reply) B law := by
  constructor
  · intro w
    show w.past <:+ (w.call c).2.past
    rw [World.call_past]
    exact List.suffix_cons _ _
  · intro w hw hlaw
    replace hlaw : law (w.call c).2.past := hlaw
    show B (.ok (w.call c).1) (w.call c).2.past
    rw [World.call_past] at hlaw ⊢
    exact h _ _ _ _ hw hlaw

theorem ask_apply (c : Call) (read : c.Reply → Answer α) (w : World κ) :
    Sys.ask c read w = (ending c.operation (read (w.call c).1), (w.call c).2) := by
  show demand c.operation (read (w.call c).1) (w.call c).2 = _
  unfold demand ending
  cases (read (w.call c).1).result c.operation <;> rfl

theorem ask_ok {c : Call} {read : c.Reply → Answer α} {w : World κ} {value : α}
    (h : read (w.call c).1 = .ok value) : Sys.ask c read w = (.ok value, (w.call c).2) := by
  rw [ask_apply, ending_ok.mpr h]

theorem ask_failed {c : Call} {read : c.Reply → Answer α} {w : World κ} {why : Failure}
    (h : (read (w.call c).1).result c.operation = .error why) :
    Sys.ask c read w = (.failed why, (w.call c).2) := by
  rw [ask_apply, ending, h]

theorem flawless_ask (c : Call) (read : c.Reply → Answer α) :
    Flawless (Sys.ask c read : Sys κ α) := by
  intro w d
  rw [ask_apply]
  exact ending_ne_defect _ _ d

theorem triple_ask {c : Call} {read : c.Reply → Answer α}
    (h : ∀ thread (reply : c.Reply) arrivals past, A past →
      law (⟨thread, c, reply, arrivals⟩ :: past) →
      B (ending c.operation (read reply)) (⟨thread, c, reply, arrivals⟩ :: past)) :
    Triple A (Sys.ask c read : Sys κ α) B law := by
  constructor
  · intro w
    show w.past <:+ (Sys.ask c read w).2.past
    rw [ask_apply, World.call_past]
    exact List.suffix_cons _ _
  · intro w hw hlaw
    rw [ask_apply] at hlaw ⊢
    replace hlaw : law (w.call c).2.past := hlaw
    show B _ (w.call c).2.past
    rw [World.call_past] at hlaw ⊢
    exact h _ _ _ _ hw hlaw

end Sys

/-! ## Nodes -/

namespace Loop

variable {κ α β : Type} {P : Scene → Prop} {Q : Outcome α → Scene → Prop}
  {R : Outcome β → Scene → Prop} {law : List Event → Prop}

theorem triple_sys {m : Sys κ α}
    (h : ∀ r, Triple (fun past => P ⟨r, past⟩) m (fun o past => Q o ⟨r, past⟩) law) :
    Triple P (Loop.sys m) Q law where
  grows := fun n => (h n.reactor).grows n.world
  ensures := fun n hn hlaw => (h n.reactor).ensures n.world hn hlaw

/-- An action that begins with a look at the reactor. -/
theorem triple_reactor_bind {f : Reactor → Loop κ β}
    (h : ∀ r, Triple (fun v => P v ∧ v.reactor = r) (f r) R law) :
    Triple P (Loop.reactor >>= f) R law where
  grows := fun n => (h n.reactor).grows n
  ensures := fun n hn hlaw => (h n.reactor).ensures n ⟨hn, rfl⟩ hlaw

theorem triple_adjust {f : Reactor → Reactor} {Q : Outcome Unit → Scene → Prop}
    (h : ∀ v, law v.past → P v → Q (.ok ()) ⟨f v.reactor, v.past⟩) :
    Triple P (Loop.adjust f : Loop κ Unit) Q law where
  grows := fun _ => List.suffix_rfl
  ensures := fun n hn hlaw => h ⟨n.reactor, n.world.past⟩ hlaw hn

theorem triple_registry {m : Action (Registry Descriptor) α}
    (h : ∀ v, law v.past → P v →
      Q (m v.reactor.registry).1
        ⟨{ v.reactor with registry := (m v.reactor.registry).2 }, v.past⟩) :
    Triple P (Loop.registry m : Loop κ α) Q law where
  grows := fun _ => List.suffix_rfl
  ensures := fun n hn hlaw => h ⟨n.reactor, n.world.past⟩ hlaw hn

theorem silent_log (level : Log.Level) (text : String) :
    Silent (Loop.log level text : Loop κ Unit) :=
  fun n => ⟨rfl, congrArg (Scene.mk n.reactor) (World.write_past _ n.world)⟩

end Loop

end SpanEcho

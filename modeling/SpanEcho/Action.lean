import SpanEcho.Failure

/-!
# Actions

An action works on a state and ends with a value, a failure or a defect. Whatever way it ends, the
state it leaves is kept: a failure undoes nothing.
-/

namespace SpanEcho

/-- How an action ended. -/
inductive Outcome (α : Type) where
  | ok (value : α)
  | failed (why : Failure)
  | defect (what : Defect)
deriving DecidableEq, Repr

namespace Outcome

variable {α β : Type}

def map (f : α → β) : Outcome α → Outcome β
  | ok a => ok (f a)
  | failed e => failed e
  | defect d => defect d

def isOk : Outcome α → Bool
  | ok _ => true
  | _ => false

end Outcome

/-- A step on a state `σ` with a result in `α`. -/
def Action (σ α : Type) : Type :=
  σ → Outcome α × σ

namespace Action

variable {σ τ α β : Type}

protected def pure (a : α) : Action σ α := fun s => (.ok a, s)

/-- The second action runs only after a value. -/
protected def bind (m : Action σ α) (f : α → Action σ β) : Action σ β := fun s =>
  match m s with
  | (.ok a, s) => f a s
  | (.failed e, s) => (.failed e, s)
  | (.defect d, s) => (.defect d, s)

instance : Monad (Action σ) where
  pure := Action.pure
  bind := Action.bind

def fail (e : Failure) : Action σ α := fun s => (.failed e, s)

def stop (d : Defect) : Action σ α := fun s => (.defect d, s)

/-- Fails with the failure that is there, if there is one. -/
def failIf : Option Failure → Action σ Unit
  | some e => fail e
  | none => Action.pure ()

/-- Runs `m` under a condition. -/
def when (c : Bool) (m : Action σ Unit) : Action σ Unit :=
  if c then m else Action.pure ()

def ofOutcome (o : Outcome α) : Action σ α := fun s => (o, s)

/-- Turns a failure into a value. A defect is not caught. -/
def attempt (m : Action σ α) : Action σ (Except Failure α) := fun s =>
  match m s with
  | (.ok a, s) => (.ok (.ok a), s)
  | (.failed e, s) => (.ok (.error e), s)
  | (.defect d, s) => (.defect d, s)

/-- Turns whatever way the action ends into a value. -/
def observe (m : Action σ α) : Action σ (Outcome α) := fun s =>
  let (o, s) := m s
  (.ok o, s)

def read : Action σ σ := fun s => (.ok s, s)

def change (f : σ → σ) : Action σ Unit := fun s => (.ok (), f s)

/-- Runs `m` on the part of the state that `part` shows and `put` puts back. -/
def onPart (part : σ → τ) (put : σ → τ → σ) (m : Action τ α) : Action σ α := fun s =>
  let (o, t) := m (part s)
  (o, put s t)

@[simp] theorem pure_apply (a : α) (s : σ) : (pure a : Action σ α) s = (.ok a, s) := rfl

theorem bind_apply (m : Action σ α) (f : α → Action σ β) (s : σ) :
    (m >>= f) s = match m s with
      | (.ok a, s) => f a s
      | (.failed e, s) => (.failed e, s)
      | (.defect d, s) => (.defect d, s) := rfl

protected theorem pure_bind (a : α) (f : α → Action σ β) : pure a >>= f = f a := rfl

protected theorem bind_assoc {γ : Type} (m : Action σ α) (f : α → Action σ β) (g : β → Action σ γ) :
    m >>= f >>= g = m >>= fun a => f a >>= g := by
  funext s
  simp only [bind_apply]
  rcases m s with ⟨_ | _ | _, s'⟩ <;> rfl

theorem bind_of_ok {m : Action σ α} {f : α → Action σ β} {s s' : σ} {a : α}
    (h : m s = (.ok a, s')) : (m >>= f) s = f a s' := by
  rw [bind_apply, h]

end Action

/-! ## Memory

Buffers are asked for in whole blocks. Here memory never runs out, but a block has a size that is a
signed word of 64 bits, and to ask for a larger one is a defect. -/

namespace Memory

/-- The most bytes that a block can have. -/
def largestBlock : Nat := 0x7fffffffffffffff

/-- Why there is no block of a size. -/
def refusal? (size : Nat) : Option Defect :=
  if size ≤ largestBlock then none else some (.blockTooLarge size)

/-- Asks for a block of `size` bytes. -/
def reserve {σ : Type} (size : Nat) : Action σ Unit :=
  match refusal? size with
  | none => pure ()
  | some d => Action.stop d

end Memory

end SpanEcho

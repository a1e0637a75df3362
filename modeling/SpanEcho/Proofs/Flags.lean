import SpanEcho.Proofs.Triple

/-!
# The flags of descriptors

The kernel keeps two sets of flags with a descriptor. They are what it was created with, until they
are set; what they are at a point of a trace is what was last set, if the kernel does as it is told.
What a descriptor is created with is for the kernel to choose (`born`), and what it says of the
flags later must be true (`Candid`).

A past is `Careful` if descriptors are only used with the flags they should have, if flags are
looked at and set before a descriptor is used, and if one whose flags could not be set is
closed at once.
-/

namespace SpanEcho

/-- The flags of a descriptor: its own, and those of what it stands for. -/
structure Flags where
  descriptor : Nat := 0
  status : Nat := 0
deriving DecidableEq, Repr, Inhabited

namespace Flags

/-- Every flag of `mask` is among `flags`. -/
def Includes (flags mask : Nat) : Prop :=
  flags &&& mask = mask

instance (flags mask : Nat) : Decidable (Includes flags mask) := by
  unfold Includes
  infer_instance

/-- Every flag of `old` is still set. -/
structure Extends (new old : Flags) : Prop where
  descriptor : Includes new.descriptor old.descriptor
  status : Includes new.status old.status

variable {flags mask : Nat} {old new : Flags}

theorem includes_iff : Includes flags mask ↔ ∀ i, mask.testBit i → flags.testBit i := by
  constructor
  · intro h i hi
    rw [← h, Nat.testBit_and, Bool.and_eq_true] at hi
    exact hi.1
  · intro h
    refine Nat.eq_of_testBit_eq fun i => ?_
    rw [Nat.testBit_and]
    cases hi : mask.testBit i with
    | false => exact Bool.and_false _
    | true => rw [h i hi]; rfl

theorem includes_or (flags mask : Nat) : Includes (flags ||| mask) mask :=
  includes_iff.mpr fun i hi => by rw [Nat.testBit_or, hi, Bool.or_true]

theorem Includes.or (h : Includes flags mask) (more : Nat) : Includes (flags ||| more) mask :=
  includes_iff.mpr fun i hi => by rw [Nat.testBit_or, includes_iff.mp h i hi, Bool.true_or]

/-- A single flag that is not missing is set. -/
theorem includes_of_and_ne_zero {bit : Nat} (h : flags &&& 1 <<< bit ≠ 0) :
    Includes flags (1 <<< bit) := by
  rw [Nat.one_shiftLeft] at h ⊢
  refine includes_iff.mpr fun i hi => ?_
  rw [Nat.testBit_two_pow, decide_eq_true_eq] at hi
  subst hi
  cases hset : flags.testBit bit with
  | true => rfl
  | false =>
    refine absurd (Nat.eq_of_testBit_eq fun i => ?_) h
    rw [Nat.testBit_and, Nat.testBit_two_pow, Nat.zero_testBit]
    by_cases hi : bit = i
    · rw [← hi, hset, Bool.false_and]
    · rw [decide_eq_false hi, Bool.and_false]

theorem Extends.refl (flags : Flags) : flags.Extends flags :=
  ⟨Nat.and_self _, Nat.and_self _⟩

end Flags

namespace Answer

variable {α : Type}

theorem failed_ne_ok (errno : Errno) (value : α) : failed errno ≠ ok value := by
  intro h
  cases h

theorem notOpen_ne_ok (value : α) : notOpen ≠ ok value := by
  intro h
  cases h

instance : (answer : Answer α) → Decidable (∀ value, answer ≠ .ok value)
  | ok value => isFalse fun h => h value rfl
  | failed errno => isTrue (failed_ne_ok errno)
  | notOpen => isTrue notOpen_ne_ok

end Answer

/-- The descriptor whose flags a call is about. -/
def Call.flagged? : Call → Option Descriptor
  | .descriptorFlags fd | .setDescriptorFlags fd _ | .statusFlags fd | .setStatusFlags fd _ =>
    some fd
  | _ => none

/-- The descriptors that a call accepts on, receives from, sends to or waits for. -/
def Call.uses : Call → List Descriptor
  | .accept fd | .receive fd _ | .send fd _ _ => [fd]
  | .poll entries _ | .watch entries _ _ => entries.map (·.fd)
  | .select _ reads writes _ => reads ++ writes
  | _ => []

namespace Event

/-- The flags of `fd` after an event that does not create it. -/
def flagging (fd : Descriptor) (flags : Flags) : Event → Flags
  | ⟨_, .setDescriptorFlags target new, .ok _, _⟩ =>
    if target = fd then { flags with descriptor := new } else flags
  | ⟨_, .setStatusFlags target new, .ok _, _⟩ =>
    if target = fd then { flags with status := new } else flags
  | _ => flags

/-- What the kernel says of the flags of `fd` is what they are. -/
def Candid (fd : Descriptor) (flags : Flags) : Event → Prop
  | ⟨_, .descriptorFlags source, .ok told, _⟩ => source = fd → told = flags.descriptor
  | ⟨_, .statusFlags source, .ok told, _⟩ => source = fd → told = flags.status
  | _ => True

instance (fd : Descriptor) (flags : Flags) (e : Event) : Decidable (e.Candid fd flags) := by
  unfold Candid
  split <;> infer_instance

/-- A call about the flags of `fd` failed. -/
def Spoils (fd : Descriptor) : Event → Prop
  | ⟨_, .descriptorFlags source, reply, _⟩ => source = fd ∧ ∀ flags, reply ≠ .ok flags
  | ⟨_, .setDescriptorFlags target _, reply, _⟩ => target = fd ∧ reply ≠ .ok ()
  | ⟨_, .statusFlags source, reply, _⟩ => source = fd ∧ ∀ flags, reply ≠ .ok flags
  | ⟨_, .setStatusFlags target _, reply, _⟩ => target = fd ∧ reply ≠ .ok ()
  | _ => False

instance (fd : Descriptor) (e : Event) : Decidable (e.Spoils fd) := by
  unfold Spoils
  split <;> infer_instance

end Event

section

variable (born : List Event → Flags)

/-- The flags of a descriptor, if those it was created with are as `born` has them. -/
def flagsOn (fd : Descriptor) : List Event → Flags
  | [] => {}
  | e :: past => if e.opened? = some fd then born (e :: past) else e.flagging fd (flagsOn fd past)

/-- The flags that a descriptor was created with. -/
def bornWith (fd : Descriptor) : List Event → Flags
  | [] => {}
  | e :: past => if e.opened? = some fd then born (e :: past) else bornWith fd past

/-- The kernel never said anything else of the flags of an open descriptor than what they were. -/
def Candid : List Event → Prop
  | [] => True
  | e :: past => (∀ fd ∈ openAfter past, e.Candid fd (flagsOn born fd past)) ∧ Candid past

instance decidableCandid : (past : List Event) → Decidable (Candid born past)
  | [] => isTrue trivial
  | _ :: past => @instDecidableAnd _ _ inferInstance (decidableCandid past)

/-- The kernel handed out no descriptor that was open, and told the flags of descriptors as they
were. -/
structure Trusted (past : List Event) : Prop where
  fresh : Fresh past
  candid : Candid born past

/-- Since it was created a descriptor was not used. -/
def Unused (fd : Descriptor) : List Event → Prop
  | [] => True
  | e :: past => e.opened? = some fd ∨ fd ∉ e.call.uses ∧ Unused fd past

/-- The descriptor is open, closes on execution and does not block, and has the flags it was created
with besides. -/
structure Guarded (fd : Descriptor) (past : List Event) : Prop where
  opened : fd ∈ openAfter past
  closes : Flags.Includes (flagsOn born fd past).descriptor Descriptor.closeOnExec
  unblocked : Flags.Includes (flagsOn born fd past).status Descriptor.nonBlocking
  kept : (flagsOn born fd past).Extends (bornWith born fd past)

/-- The last call was about the flags of `fd`, and failed. -/
def Spoilt (fd : Descriptor) : List Event → Prop
  | [] => False
  | e :: _ => e.Spoils fd

/-- Descriptors are used when they are guarded, flags are looked at and set before that, and a
descriptor is closed at once if that fails. -/
def Careful : List Event → Prop
  | [] => True
  | e :: past =>
    (∀ fd ∈ e.call.uses, Guarded born fd past) ∧
    (∀ fd, e.call.flagged? = some fd → Unused fd past) ∧
      (∀ fd, Spoilt fd past → e.call = .close fd) ∧ Careful past

end

variable {born : List Event → Flags} {past earlier later : List Event} {e : Event} {fd : Descriptor}

theorem Candid.of_suffix (h : Candid born later) (hs : past <:+ later) : Candid born past := by
  obtain ⟨es, rfl⟩ := hs
  induction es with
  | nil => exact h
  | cons e es ih => exact ih h.2

theorem Trusted.of_suffix (h : Trusted born later) (hs : past <:+ later) : Trusted born past :=
  ⟨h.fresh.of_suffix hs, h.candid.of_suffix hs⟩

instance : Hereditary (Trusted born) :=
  ⟨Trusted.of_suffix⟩

theorem Careful.of_suffix (h : Careful born later) (hs : past <:+ later) : Careful born past := by
  obtain ⟨es, rfl⟩ := hs
  induction es with
  | nil => exact h
  | cons e es ih => exact ih h.2.2.2

/-! ## Events about other descriptors -/

/-- The event does not create, close or flag `fd`. -/
structure Event.Passes (fd : Descriptor) (e : Event) : Prop where
  opened : e.opened? ≠ some fd
  closed : e.closed? ≠ some fd
  flagged : e.call.flagged? ≠ some fd

namespace Event.Passes

theorem mem_openAfter (h : e.Passes fd) : fd ∈ openAfter (e :: past) ↔ fd ∈ openAfter past := by
  rw [mem_openAfter_cons]
  exact ⟨fun ho => (ho.resolve_left h.opened).1, fun ho => .inr ⟨ho, h.closed⟩⟩

theorem flagsOn_eq (h : e.Passes fd) : flagsOn born fd (e :: past) = flagsOn born fd past := by
  rw [flagsOn, if_neg h.opened]
  obtain ⟨thread, call, reply, arrivals⟩ := e
  have hflagged := h.flagged
  cases call with
  | setDescriptorFlags target new =>
    have hne : target ≠ fd := fun heq => hflagged (congrArg some heq)
    cases reply with
    | ok _ => exact if_neg hne
    | _ => rfl
  | setStatusFlags target new =>
    have hne : target ≠ fd := fun heq => hflagged (congrArg some heq)
    cases reply with
    | ok _ => exact if_neg hne
    | _ => rfl
  | _ => rfl

theorem bornWith_eq (h : e.Passes fd) : bornWith born fd (e :: past) = bornWith born fd past :=
  if_neg h.opened

theorem guarded (h : e.Passes fd) (hg : Guarded born fd past) : Guarded born fd (e :: past) where
  opened := h.mem_openAfter.mpr hg.opened
  closes := by rw [h.flagsOn_eq]; exact hg.closes
  unblocked := by rw [h.flagsOn_eq]; exact hg.unblocked
  kept := by rw [h.flagsOn_eq, h.bornWith_eq]; exact hg.kept

end Event.Passes

theorem Event.Spoils.flagged (h : e.Spoils fd) : e.call.flagged? = some fd := by
  unfold Event.Spoils at h
  split at h
  · exact congrArg some h.1
  · exact congrArg some h.1
  · exact congrArg some h.1
  · exact congrArg some h.1
  · exact h.elim

/-- A call about flags creates and closes nothing. -/
theorem Event.idle_of_flagged (h : e.call.flagged? = some fd) :
    e.opened? = none ∧ e.closed? = none := by
  obtain ⟨thread, call, reply, arrivals⟩ := e
  cases call <;> first | exact ⟨rfl, rfl⟩ | cases h

theorem Call.uses_of_flagged {c : Call} (h : c.flagged? = some fd) : c.uses = [] := by
  cases c <;> first | rfl | cases h

end SpanEcho

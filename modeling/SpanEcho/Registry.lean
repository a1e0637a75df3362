import SpanEcho.Session

/-!
# The registry of connections

Connections are filed under their descriptor. Descriptor numbers come back as soon as they are
closed, so each number also carries a generation, which a removal moves on; a ticket finds its
connection only while the generation is the one it was issued under. Generations are words of 32
bits and come round.
-/

namespace SpanEcho

/-- A live connection: its socket, its session, and what it is watched for. -/
structure Entry (σ : Type) where
  socket : σ
  session : Session
  interest : Interest
deriving DecidableEq, Repr

/-- A reference to the connection filed under `fd` in one generation. -/
structure Ticket where
  fd : Descriptor
  generation : UInt32
deriving DecidableEq, Repr

/-- All that is kept for a descriptor number. -/
structure Slot (σ : Type) where
  fd : Descriptor
  generation : UInt32 := 0
  entry : Option (Entry σ) := none
deriving DecidableEq, Repr

/-- The slots are in ascending order of descriptor. A number without a slot has never been used. -/
structure Registry (σ : Type) where
  capacity : Nat
  slots : List (Slot σ) := []
  /-- The number of live connections. -/
  live : Nat := 0
  /-- The highest descriptor ever filed, or -1. -/
  highest : Descriptor := -1
deriving DecidableEq, Repr

namespace Slot

variable {σ : Type}

/-- Puts a slot in its place, over the one of the same number if there is one. -/
def file (slot : Slot σ) : List (Slot σ) → List (Slot σ)
  | [] => [slot]
  | s :: rest =>
    if slot.fd < s.fd then slot :: s :: rest
    else if slot.fd = s.fd then slot :: rest
    else s :: file slot rest

end Slot

namespace Registry

variable {σ : Type}

def slotAt (r : Registry σ) (fd : Descriptor) : Slot σ :=
  (r.slots.find? fun s => s.fd = fd).getD { fd }

def put (slot : Slot σ) (r : Registry σ) : Registry σ :=
  { r with slots := slot.file r.slots }

/-- Files a connection under `fd`. A refused connection leaves the registry as it is. -/
def insert (fd : Descriptor) (entry : Entry σ) : Action (Registry σ) Ticket := fun r =>
  let slot := r.slotAt fd
  if fd < 0 then (.failed (.invalidDescriptor fd), r)
  else if r.capacity ≤ r.live then (.failed (.registryFull r.capacity), r)
  else if slot.entry.isSome then (.failed (.invalidDescriptor fd), r)
  else
    (.ok ⟨fd, slot.generation⟩,
      { r.put { slot with entry := some entry } with
        live := r.live + 1, highest := max r.highest fd })

/-- The connection a ticket stands for, if it is still the one the ticket was issued for. -/
def get? (r : Registry σ) (t : Ticket) : Option (Entry σ) :=
  let slot := r.slotAt t.fd
  if slot.generation = t.generation then slot.entry else none

/-- A ticket for the live connection under `fd`. -/
def find? (r : Registry σ) (fd : Descriptor) : Option Ticket :=
  let slot := r.slotAt fd
  slot.entry.map fun _ => ⟨fd, slot.generation⟩

def modify (t : Ticket) (f : Entry σ → Entry σ) (r : Registry σ) : Registry σ :=
  match r.get? t with
  | none => r
  | some entry => r.put ⟨t.fd, t.generation, some (f entry)⟩

/-- Takes the connection of a ticket out and moves its generation on. -/
def remove? (t : Ticket) (r : Registry σ) : Option (Entry σ) × Registry σ :=
  match r.get? t with
  | none => (none, r)
  | some entry =>
    (some entry, { r.put ⟨t.fd, t.generation + 1, none⟩ with live := r.live - 1 })

/-- The live connections in ascending order of descriptor. -/
def toList (r : Registry σ) : List (Ticket × Entry σ) :=
  r.slots.filterMap fun slot => slot.entry.map fun entry => (⟨slot.fd, slot.generation⟩, entry)

def isEmpty (r : Registry σ) : Bool :=
  r.live == 0

end Registry

end SpanEcho

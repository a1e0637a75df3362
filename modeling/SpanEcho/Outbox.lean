import SpanEcho.Action
import SpanEcho.Span.Machine

/-!
# Bytes staged for sending

An outbox holds at most `capacity` bytes. Sending moves a mark over them; the room they took comes
back only when all of them are sent. What is not yet sent is `pending`.
-/

namespace SpanEcho

structure Outbox where
  capacity : Nat
  bytes : Bytes := []
  /-- How many of the bytes are sent. -/
  sent : Nat := 0
deriving DecidableEq, Repr, Inhabited

namespace Outbox

/-- An outbox with the greeting staged. It has room for the greeting whatever the capacity asked
for. -/
def greeted (capacity : Nat) : Outbox :=
  { capacity := max capacity 1, bytes := [Span.greeting] }

def pending (o : Outbox) : Bytes :=
  o.bytes.drop o.sent

def hasPending (o : Outbox) : Bool :=
  o.sent < o.bytes.length

/-- How many bytes can still be staged. -/
def room (o : Outbox) : Nat :=
  o.capacity - o.bytes.length

/-- The mark lies within the bytes, and the bytes within the capacity. -/
def InBounds (o : Outbox) : Prop :=
  o.sent ≤ o.bytes.length ∧ o.bytes.length ≤ o.capacity

instance (o : Outbox) : Decidable o.InBounds :=
  inferInstanceAs (Decidable (_ ∧ _))

/-- Stages one byte. A full outbox refuses it and stays as it is. -/
def push (b : UInt8) : Action Outbox Unit := fun o =>
  if o.bytes.length < o.capacity then (.ok (), { o with bytes := o.bytes ++ [b] })
  else (.failed (.outboxFull o.capacity), o)

/-- Stages the bytes in order, up to the first that is refused. -/
def pushAll : Bytes → Action Outbox Unit
  | [] => pure ()
  | b :: rest => do
    push b
    pushAll rest

/-- Marks `n` more bytes as sent; answers whether that was the last of them, and then empties the
outbox. -/
def advance (n : Nat) (o : Outbox) : Bool × Outbox :=
  let sent := min (o.sent + n) o.bytes.length
  if sent = o.bytes.length then (true, { o with bytes := [], sent := 0 })
  else (false, { o with sent := sent })

end Outbox

end SpanEcho

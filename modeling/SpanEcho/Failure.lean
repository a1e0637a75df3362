import SpanEcho.Kernel.Numbers

/-!
# Failures and defects

A `Failure` is something the server expects to meet and handles. A `Defect` is a broken assumption:
the thread that meets one stops at once.
-/

namespace SpanEcho

/-- Why an operation did not do its work. -/
inductive Failure where
  /-- Nothing can be done now; the next readiness tries again. -/
  | wouldBlock
  /-- The kernel refused the call `operation`. -/
  | system (operation : String) (errno : Errno)
  | outboxFull (capacity : Nat)
  | registryFull (capacity : Nat)
  /-- The multiplexor cannot watch a descriptor at or above its limit. -/
  | descriptorBeyondLimit (fd : Descriptor) (limit : Nat)
  | invalidDescriptor (fd : Descriptor)
  | settings (fault : String)
deriving DecidableEq, Repr, Inhabited

namespace Failure

def message : Failure → String
  | wouldBlock => "operation would block"
  | system operation errno => operation ++ ": errno " ++ toString errno
  | outboxFull capacity => s!"send buffer full (capacity {capacity})"
  | registryFull capacity => s!"connection table full (capacity {capacity})"
  | descriptorBeyondLimit fd limit => s!"socket fd ({fd}) >= readiness set limit ({limit})"
  | invalidDescriptor fd => s!"invalid socket fd {fd}"
  | settings fault => "invalid configuration: " ++ fault

/-- The message, with the description of an error number in place of the number. -/
def describe : Failure → String
  | system operation errno => operation ++ ": " ++ errno.description
  | other => other.message

def isWouldBlock : Failure → Bool
  | wouldBlock => true
  | _ => false

/-- Failures that no later pass can mend. -/
def isFatal : Failure → Bool
  | registryFull _ | descriptorBeyondLimit _ _ | settings _ => true
  | _ => false

def isExhaustion : Failure → Bool
  | system _ errno => errno.isExhaustion
  | _ => false

end Failure

/-- Which assumption of the program was broken. -/
inductive Defect where
  /-- The kernel claims to have delivered more bytes than the receive buffer holds. -/
  | receiveOverrun (claimed room : Nat)
  /-- The kernel claims to have taken more bytes than it was offered. -/
  | sendOverrun (claimed offered : Nat)
  /-- No block of memory can have so many bytes. -/
  | blockTooLarge (size : Nat)
  /-- The bytes staged, those of them sent and the capacity are out of order. -/
  | outboxOutOfBounds
  /-- A byte counter of a session went backwards. -/
  | counterBackwards
  /-- A live entry is removed while none is counted. -/
  | liveCountBelowZero
deriving DecidableEq, Repr, Inhabited

end SpanEcho

import SpanEcho.Kernel.Numbers

/-!
# Interest

Which readiness a descriptor is watched for. Every handler of a session answers with an interest;
the empty one means that the connection is over.
-/

namespace SpanEcho

structure Interest where
  readable : Bool := false
  writable : Bool := false
deriving DecidableEq, Repr, Inhabited

namespace Interest

def nothing : Interest := {}

def read : Interest := { readable := true }

def write : Interest := { writable := true }

def both : Interest := { readable := true, writable := true }

def isEmpty (i : Interest) : Bool :=
  !i.readable && !i.writable

def text : Interest → String
  | ⟨false, false⟩ => "-"
  | ⟨true, false⟩ => "R"
  | ⟨false, true⟩ => "W"
  | ⟨true, true⟩ => "RW"

end Interest

/-- A descriptor together with what it is watched for. -/
structure Registration where
  fd : Descriptor
  interest : Interest
deriving DecidableEq, Repr

/-- A descriptor reported ready, with the directions it is ready in. -/
structure Readiness where
  fd : Descriptor
  readable : Bool
  writable : Bool
deriving DecidableEq, Repr

/-- Ready in one direction at least. -/
def Readiness.any (r : Readiness) : Bool :=
  r.readable || r.writable

end SpanEcho

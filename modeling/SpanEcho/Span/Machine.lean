/-!
# The span machine

A client is greeted with `*`. After that its bytes pass through a machine of two phases: a `^`
opens a span, a `$` closes it, and every byte within a span comes back incremented by one. Before
the greeting is out the machine takes no notice of anything.
-/

namespace SpanEcho

abbrev Bytes := List UInt8

namespace Span

/-- The first byte every client receives, `*`. -/
def greeting : UInt8 := 42

/-- The byte that opens a span, `^`. -/
def opening : UInt8 := 94

/-- The byte that closes a span, `$`. -/
def closing : UInt8 := 36

/-- The echo of a byte; 255 goes to 0. -/
def shift (b : UInt8) : UInt8 := b + 1

inductive Phase where
  /-- The greeting is not yet sent. -/
  | greeting
  /-- Outside every span. -/
  | outside
  /-- Within a span. -/
  | inside
deriving DecidableEq, Repr, Inhabited

namespace Phase

/-- Takes one byte: the next phase, and the byte to send back if there is one. -/
def feed (p : Phase) (b : UInt8) : Phase × Option UInt8 :=
  match p with
  | greeting => (greeting, none)
  | outside => if b = opening then (inside, none) else (outside, none)
  | inside => if b = closing then (outside, none) else (inside, some (shift b))

/-- The greeting, or a later batch, has left completely. -/
def acknowledge : Phase → Phase
  | greeting => outside
  | p => p

/-- Takes the bytes one after the other: the last phase and all bytes to send back. -/
def feedAll (p : Phase) : Bytes → Phase × Bytes
  | [] => (p, [])
  | b :: rest =>
    let (p, out) := p.feed b
    let (p, outs) := p.feedAll rest
    (p, out.toList ++ outs)

end Phase

end Span

end SpanEcho

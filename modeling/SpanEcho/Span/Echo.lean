import SpanEcho.Span.Machine

/-!
# The echo of a byte string

What a client gets back for `bs`, said without a machine: cut `bs` at every `$`, drop each piece up
to and including its first `^`, and increment what is left.
-/

namespace SpanEcho.Span

/-- The pieces of `bs` between its closing marks; there is one more of them than marks. -/
def pieces : Bytes → List Bytes
  | [] => [[]]
  | b :: rest =>
    if b = closing then [] :: pieces rest
    else match pieces rest with
      | [] => [[b]]
      | piece :: more => (b :: piece) :: more

/-- What follows the first opening mark of a piece; nothing if it has none. -/
def afterOpening (piece : Bytes) : Bytes :=
  (piece.dropWhile (· ≠ opening)).drop 1

def echo (bs : Bytes) : Bytes :=
  (pieces bs).flatMap fun piece => (afterOpening piece).map shift

end SpanEcho.Span

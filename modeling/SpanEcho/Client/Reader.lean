import SpanEcho.Client.Explanation
import SpanEcho.Log
import SpanEcho.Span.Machine
import SpanEcho.Text.Quoted
import SpanEcho.Text.Utf8

/-!
# The reader of the client

The reader takes what the server sends, chunk by chunk, and stops with the chunk in which the first
end marker of the whole stream is complete, wherever the stream is cut. The end of the stream and a
failure stop it as well.
-/

namespace SpanEcho.Client

/-- What a read brings. -/
inductive Reading where
  /-- Some bytes, at least one. -/
  | chunk (bytes : Bytes)
  | ended
  | failed (errno : Errno)
deriving DecidableEq, Repr

/-- A read that brings no bytes at all has come to the end. -/
def Reading.ofBytes : Bytes → Reading
  | [] => ended
  | bytes => chunk bytes

/-- The end marker, `1111`: what the server makes of the last message. -/
def marker : Bytes := [49, 49, 49, 49]

def hasMarker : Bytes → Bool
  | [] => false
  | b :: rest => marker.isPrefixOf (b :: rest) || hasMarker rest

/-- The reads that are made of those there could be, when `seen` has been read before. Where the
list ends, so does the stream. -/
def readsMade (seen : Bytes) : List Reading → List Reading
  | [] => [.ended]
  | .chunk bytes :: rest =>
    let seen := seen ++ bytes
    .chunk bytes :: if hasMarker seen then [] else readsMade seen rest
  | .ended :: _ => [.ended]
  | .failed errno :: _ => [.failed errno]

/-- What the reader of the connection `name` says about a read. -/
def Reading.line (name : String) : Reading → Log.Line
  | chunk bytes => ⟨some .info, name ++ " received " ++ Text.quoted (Text.decodeLossy bytes)⟩
  | ended => ⟨some .info, name ++ " server closed the connection"⟩
  | failed errno => ⟨some .error, name ++ " read failed: " ++ errnoText errno⟩

end SpanEcho.Client

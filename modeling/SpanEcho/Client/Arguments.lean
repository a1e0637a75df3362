import SpanEcho.Text.Numeral

/-!
# The arguments of the client

A command line is read from left to right. `-n` and `--num_concurrent` take the argument that
follows, whatever it looks like, as the number of connections; every other argument is positional.
The two positional ones are the host and the port. Of several numbers the last counts, but each of
them has to be one.

Arguments are text. A command line with an argument that is not text is a defect, which stops the
program before it reads any of them.
-/

namespace SpanEcho.Client

/-- What a client is asked to do. -/
structure Request where
  host : String
  port : Nat
  concurrent : Nat := 1
deriving DecidableEq, Repr

/-- The number of connections in an argument. -/
def concurrency? (arg : String) : Option Nat :=
  (Text.unsigned? 64 arg).filter (0 < ·)

def isFlag (arg : String) : Bool :=
  arg == "-n" || arg == "--num_concurrent"

/-- Goes through the arguments; `concurrent` and `positional` are what those before have given. -/
def gather? (concurrent : Nat) (positional : List String) :
    List String → Option (Nat × List String)
  | [] => some (concurrent, positional)
  | [arg] => if isFlag arg then none else some (concurrent, positional ++ [arg])
  | arg :: next :: rest =>
    if isFlag arg then
      match concurrency? next with
      | some n => gather? n positional rest
      | none => none
    else gather? concurrent (positional ++ [arg]) (next :: rest)

def Request.parse? (args : List String) : Option Request :=
  match gather? 1 [] args with
  | some (concurrent, [host, port]) =>
    (Text.unsigned? 16 port).map fun port => { host, port, concurrent }
  | _ => none

end SpanEcho.Client

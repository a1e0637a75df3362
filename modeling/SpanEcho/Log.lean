import SpanEcho.Text.Blank

/-!
# Log levels and lines

A line has a level, or none if it is shown at every setting. The level set for a process lets a
line through when it is at least as grave.
-/

namespace SpanEcho.Log

inductive Level where
  | off | error | warn | info | debug | trace
deriving DecidableEq, Repr, Inhabited

namespace Level

/-- The graver the lower; `off` is below all. -/
def rank : Level → Nat
  | off => 0
  | error => 1
  | warn => 2
  | info => 3
  | debug => 4
  | trace => 5

/-- The level of a rank; every rank beyond the last means `trace`. -/
def ofRank : Nat → Level
  | 0 => off
  | 1 => error
  | 2 => warn
  | 3 => info
  | 4 => debug
  | _ => trace

def tag : Level → String
  | off => ""
  | error => "[ERROR]"
  | warn => "[WARN] "
  | info => "[INFO] "
  | debug => "[DEBUG]"
  | trace => "[TRACE]"

/-- Reads a level by name or by rank, in any letter case and with white space around it. -/
def parse? (s : String) : Option Level :=
  match Text.lower (Text.trim s) with
  | "off" | "0" => some off
  | "error" | "1" => some error
  | "warn" | "2" => some warn
  | "info" | "3" => some info
  | "debug" | "4" => some debug
  | "trace" | "5" => some trace
  | _ => none

/-- Whether lines of level `l` are shown while `current` is set. No line has the level `off`. -/
def shownAt (current l : Level) : Bool :=
  l != off && l.rank ≤ current.rank

end Level

/-- A line as it was written. -/
structure Line where
  level : Option Level
  text : String
deriving DecidableEq, Repr

/-- The line with its tag in front. -/
def Line.render (l : Line) : String :=
  match l.level with
  | none => l.text
  | some level => level.tag ++ " " ++ l.text

/-- The rows that the line takes on a screen. -/
def Line.rows (l : Line) : List String :=
  l.render.splitOn "\n"

/-- Whether a line is written while `current` is set. -/
def Line.shownAt (current : Level) (l : Line) : Bool :=
  match l.level with
  | none => true
  | some level => current.shownAt level

end SpanEcho.Log

import SpanEcho.Text.Blank
import SpanEcho.Text.Numeral

/-!
# Environment variables

A variable is read by trimming white space around its text and parsing the rest. One that is not
set, is no text, or does not parse counts as absent, and the reader's default stands in for it.
-/

namespace SpanEcho

/-- The value of a variable: text, or bytes that are not text. -/
inductive Variable where
  | text (value : String)
  | raw (bytes : List UInt8)
deriving DecidableEq, Repr

/-- The variables that are set, by name. Of two with one name the first counts. -/
abbrev Environment := List (String × Variable)

namespace Environment

def text? (env : Environment) (key : String) : Option String :=
  match env.lookup key with
  | some (.text value) => some value
  | _ => none

variable {α : Type}

/-- The value that `parse?` finds in the trimmed text of a variable. -/
def get? (parse? : String → Option α) (env : Environment) (key : String) : Option α :=
  (env.text? key).bind fun value => parse? (Text.trim value)

def get (parse? : String → Option α) (default : α) (env : Environment) (key : String) : α :=
  (env.get? parse? key).getD default

/-- Whether a switch is on: `1`, `true`, `yes` and `on` turn it on in any letter case, every other
text turns it off. Only ASCII letters have a lower case that occurs in these words. -/
def flag (default : Bool) (env : Environment) (key : String) : Bool :=
  match env.text? key with
  | none => default
  | some value => ["1", "true", "yes", "on"].contains (Text.lower (Text.trim value))

end Environment

/-- The words `true` and `false`, spelt so. -/
def Text.boolean? : String → Option Bool
  | "true" => some true
  | "false" => some false
  | _ => none

/-- The only character of a text. -/
def Text.character? (s : String) : Option Char :=
  match s.toList with
  | [c] => some c
  | _ => none

end SpanEcho

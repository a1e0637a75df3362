import SpanEcho.Text.Numeral

/-!
# The text of a length of time

A length of time is a number of nanoseconds. It is written in the largest of the units `s`, `ms`,
`µs`, `ns` in which it is at least one, as a decimal fraction without trailing zeros: `1.5s`,
`250ms`, `0ns`.
-/

namespace SpanEcho

/-- A length of time in nanoseconds. -/
abbrev Duration := Nat

namespace Duration

def ofMillis (n : Nat) : Duration := n * 1000000

def ofSeconds (n : Nat) : Duration := n * 1000000000

/-- Whole seconds. -/
def seconds (d : Duration) : Nat := d / 1000000000

/-- Nanoseconds beyond the whole seconds. -/
def subNanos (d : Duration) : Nat := d % 1000000000

def millis (d : Duration) : Nat := d / 1000000

/-- The decimal fraction `n / 10 ^ places`, the zeros at its end left out. -/
def fraction (places n : Nat) : String :=
  let unit := Nat.pow 10 places
  let whole := n / unit
  let tail := (Text.padded places (n % unit)).toList.reverse.dropWhile (· == '0')
  match tail with
  | [] => toString whole
  | _ => toString whole ++ "." ++ String.ofList tail.reverse

def text (d : Duration) : String :=
  if 0 < d.seconds then fraction 9 d ++ "s"
  else if 1000000 ≤ d then fraction 6 d ++ "ms"
  else if 1000 ≤ d then fraction 3 d ++ "µs"
  else fraction 0 d ++ "ns"

/-- An optional length of time, as the settings are listed. -/
def optionText : Option Duration → String
  | none => "None"
  | some d => "Some(" ++ d.text ++ ")"

end Duration

end SpanEcho

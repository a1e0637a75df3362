/-!
# Decimal numerals

A numeral is an optional sign and at least one ASCII digit, with any number of leading zeros. A
minus sign belongs to the signed widths only. A numeral outside the range of its width is refused,
never cut down.
-/

namespace SpanEcho.Text

def digitValue? (c : Char) : Option Nat :=
  if '0' ≤ c ∧ c ≤ '9' then some (c.toNat - '0'.toNat) else none

/-- The number that the digits `cs` denote after the digits of `acc`; `none` at any other
character. -/
def digitsFrom? (acc : Nat) : List Char → Option Nat
  | [] => some acc
  | c :: rest => (digitValue? c).bind fun d => digitsFrom? (10 * acc + d) rest

/-- At least one digit, and nothing else. -/
def natural? : List Char → Option Nat
  | [] => none
  | c :: rest => digitsFrom? 0 (c :: rest)

/-- A numeral below `2 ^ bits`, with an optional plus sign. -/
def unsigned? (bits : Nat) (s : String) : Option Nat :=
  let digits := match s.toList with
    | '+' :: rest => rest
    | cs => cs
  (natural? digits).filter (· < Nat.pow 2 bits)

/-- A numeral of the two's complement range of `bits` bits, with an optional sign. -/
def signed? (bits : Nat) (s : String) : Option Int :=
  let value : Option Int := match s.toList with
    | '+' :: rest => (natural? rest).map Int.ofNat
    | '-' :: rest => (natural? rest).map fun n => -Int.ofNat n
    | cs => (natural? cs).map Int.ofNat
  let bound : Int := Nat.pow 2 (bits - 1)
  value.filter fun n => -bound ≤ n && n < bound

/-- Writes `n` in decimal, filled up with zeros on the left to at least `width` digits. -/
def padded (width n : Nat) : String :=
  let digits := toString n
  String.ofList (List.replicate (width - digits.length) '0') ++ digits

end SpanEcho.Text

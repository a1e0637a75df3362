import SpanEcho.Text.Numeral
import SpanEcho.Text.Quoted

/-!
# Network addresses

Addresses of version 4 and 6 of the internet protocol, in their textual forms. A version 6 address
is written with its longest run of two or more zero groups, the first of several, as `::`.
-/

namespace SpanEcho

structure IPv4 where
  a : UInt8
  b : UInt8
  c : UInt8
  d : UInt8
deriving DecidableEq, Repr, Inhabited

namespace IPv4

def unspecified : IPv4 := ⟨0, 0, 0, 0⟩

def loopback : IPv4 := ⟨127, 0, 0, 1⟩

def text (ip : IPv4) : String :=
  s!"{ip.a}.{ip.b}.{ip.c}.{ip.d}"

/-- A number below 256 in at most three digits, without leading zeros, from the front of `cs`. -/
def octet? (cs : List Char) : Option (UInt8 × List Char) :=
  let digits := cs.takeWhile Char.isDigit
  let rest := cs.drop digits.length
  if 3 < digits.length ∨ (1 < digits.length ∧ digits.head? = some '0') then none
  else match Text.natural? digits with
    | some n => if n < 256 then some (UInt8.ofNat n, rest) else none
    | none => none

/-- A dotted address from the front of `cs`. -/
def take? (cs : List Char) : Option (IPv4 × List Char) := do
  let (a, cs) ← octet? cs
  let '.' :: cs := cs | none
  let (b, cs) ← octet? cs
  let '.' :: cs := cs | none
  let (c, cs) ← octet? cs
  let '.' :: cs := cs | none
  let (d, cs) ← octet? cs
  return (⟨a, b, c, d⟩, cs)

def parse? (s : String) : Option IPv4 :=
  match take? s.toList with
  | some (ip, []) => some ip
  | _ => none

end IPv4

/-- A version 4 address and a port. -/
structure Endpoint where
  ip : IPv4
  port : Nat
deriving DecidableEq, Repr, Inhabited

def Endpoint.text (e : Endpoint) : String :=
  e.ip.text ++ ":" ++ toString e.port

/-- Eight groups of sixteen bits. -/
structure IPv6 where
  groups : List UInt16
deriving DecidableEq, Repr

namespace IPv6

def hexValue? (c : Char) : Option Nat :=
  let n := c.toNat
  if 0x30 ≤ n ∧ n ≤ 0x39 then some (n - 0x30)
  else if 0x41 ≤ n ∧ n ≤ 0x46 then some (n - 0x41 + 10)
  else if 0x61 ≤ n ∧ n ≤ 0x66 then some (n - 0x61 + 10)
  else none

/-- One to four hexadecimal digits from the front of `cs`. -/
def group? (cs : List Char) : Option (UInt16 × List Char) :=
  let digits := cs.takeWhile fun c => (hexValue? c).isSome
  let rest := cs.drop digits.length
  if digits.length = 0 ∨ 4 < digits.length then none
  else
    let value := digits.foldl (fun n c => 16 * n + (hexValue? c).getD 0) 0
    some (UInt16.ofNat value, rest)

/-- Groups between colons from the front of `cs`, at most `limit` of them; the last two may be
written as a version 4 address. Answers the groups, whether they end in such an address, and the
rest. -/
def groupsFrom (first : Bool) (limit : Nat) (cs : List Char) : List UInt16 × Bool × List Char :=
  match limit with
  | 0 => ([], false, cs)
  | limit + 1 =>
    let after : Option (List Char) :=
      if first then some cs
      else match cs with
        | ':' :: rest => some rest
        | _ => none
    match after with
    | none => ([], false, cs)
    | some inner =>
      let dotted := if limit = 0 then none else IPv4.take? inner
      match dotted with
      | some (ip, rest) =>
        let pair (x y : UInt8) : UInt16 := UInt16.ofNat (x.toNat * 256 + y.toNat)
        ([pair ip.a ip.b, pair ip.c ip.d], true, rest)
      | none =>
        match group? inner with
        | none => ([], false, cs)
        | some (g, rest) =>
          let (gs, embedded, rest) := groupsFrom false limit rest
          (g :: gs, embedded, rest)

def parse? (s : String) : Option IPv6 :=
  match groupsFrom true 8 s.toList with
  | (head, embedded, rest) =>
    if head.length = 8 then if rest.isEmpty then some ⟨head⟩ else none
    else if embedded then none
    else match rest with
      | ':' :: ':' :: rest =>
        match groupsFrom true (7 - head.length) rest with
        | (tail, _, []) =>
          some ⟨head ++ List.replicate (8 - head.length - tail.length) 0 ++ tail⟩
        | _ => none
      | _ => none

def groupText (g : UInt16) : String :=
  String.ofList (Text.hexDigits g.toNat)

/-- The start and the length of the longest run of zeros, the first of several. -/
def longestZeros (groups : List UInt16) : Nat × Nat :=
  let runs := (List.range groups.length).map fun i =>
    (i, ((groups.drop i).takeWhile (· == 0)).length)
  runs.foldl (fun best run => if best.2 < run.2 then run else best) (0, 0)

def text (ip : IPv6) : String :=
  let join (gs : List UInt16) := ":".intercalate (gs.map groupText)
  match ip.groups with
  | [0, 0, 0, 0, 0, 0xffff, x, y] =>
    let byte (g : UInt16) (shift : Nat) : UInt8 := UInt8.ofNat (g.toNat / shift % 256)
    "::ffff:" ++ (IPv4.mk (byte x 256) (byte x 1) (byte y 256) (byte y 1)).text
  | groups =>
    let (start, length) := longestZeros groups
    if 1 < length then join (groups.take start) ++ "::" ++ join (groups.drop (start + length))
    else join groups

end IPv6

end SpanEcho

/-!
# Bytes as text

UTF-8 decoding that never fails: where the bytes are not well formed, the longest start of a
well-formed sequence found there, or else one byte, becomes one replacement character.
-/

namespace SpanEcho.Text

def replacement : Char := Char.ofNat 0xfffd

/-- What a first byte calls for: how many bytes follow, the bits it contributes, and the range of
the second byte. The ranges leave out overlong forms, surrogates and values past the last code
point. -/
structure Lead where
  following : Nat
  bits : Nat
  low : Nat
  high : Nat

def Lead.of? (b : UInt8) : Option Lead :=
  let n := b.toNat
  if 0xc2 ≤ n ∧ n ≤ 0xdf then some ⟨1, n - 0xc0, 0x80, 0xbf⟩
  else if n = 0xe0 then some ⟨2, n - 0xe0, 0xa0, 0xbf⟩
  else if n = 0xed then some ⟨2, n - 0xe0, 0x80, 0x9f⟩
  else if 0xe1 ≤ n ∧ n ≤ 0xef then some ⟨2, n - 0xe0, 0x80, 0xbf⟩
  else if n = 0xf0 then some ⟨3, n - 0xf0, 0x90, 0xbf⟩
  else if n = 0xf4 then some ⟨3, n - 0xf0, 0x80, 0x8f⟩
  else if 0xf1 ≤ n ∧ n ≤ 0xf3 then some ⟨3, n - 0xf0, 0x80, 0xbf⟩
  else none

/-- Decodes `bytes`; `pending` is a sequence begun and not yet complete. -/
def decodeFrom (pending : Option Lead) : List UInt8 → List Char
  | [] => match pending with
    | none => []
    | some _ => [replacement]
  | b :: rest =>
    let n := b.toNat
    let fresh (emit : List Char) : List Char :=
      if n < 0x80 then emit ++ Char.ofNat n :: decodeFrom none rest
      else match Lead.of? b with
        | some lead => emit ++ decodeFrom (some lead) rest
        | none => emit ++ replacement :: decodeFrom none rest
    match pending with
    | none => fresh []
    | some lead =>
      if lead.low ≤ n ∧ n ≤ lead.high then
        let bits := lead.bits * 64 + (n - 0x80)
        match lead.following with
        | 0 | 1 => Char.ofNat bits :: decodeFrom none rest
        | k + 2 => decodeFrom (some ⟨k + 1, bits, 0x80, 0xbf⟩) rest
      else fresh [replacement]

/-- The bytes read as UTF-8. -/
def decodeLossy (bytes : List UInt8) : String :=
  String.ofList (decodeFrom none bytes)

end SpanEcho.Text

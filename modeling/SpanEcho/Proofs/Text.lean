import Mathlib
import SpanEcho.Text.Blank
import SpanEcho.Text.Numeral

/-!
# Numerals, words and white space

What is accepted as a numeral, said as a grammar: digits, at least one, after a sign at most. What
is accepted as a word in any letter case; and what trimming leaves of a text, said by the white
space around it.
-/

namespace SpanEcho.Text

/-! ## Digits -/

theorem digitValue?_of_isDigit {c : Char} (h : c.isDigit) :
    digitValue? c = some (c.toNat - '0'.toNat) := by
  simp only [Char.isDigit, ge_iff_le, Bool.and_eq_true, decide_eq_true_eq] at h
  exact if_pos h

theorem digitValue?_of_not_isDigit {c : Char} (h : ¬ c.isDigit) : digitValue? c = none := by
  simp only [Char.isDigit, ge_iff_le, Bool.and_eq_true, decide_eq_true_eq] at h
  exact if_neg h

theorem digitsFrom?_eq_some_iff {acc n : Nat} {cs : List Char} :
    digitsFrom? acc cs = some n ↔ (∀ c ∈ cs, c.isDigit) ∧ Nat.ofDigitChars 10 cs acc = n := by
  induction cs generalizing acc with
  | nil => simp [digitsFrom?]
  | cons c rest ih =>
    by_cases hc : c.isDigit = true
    · simp [digitsFrom?, digitValue?_of_isDigit hc, ih, hc, Nat.ofDigitChars_cons]
    · simp [digitsFrom?, digitValue?_of_not_isDigit hc, hc]

/-- Digits, at least one, that denote `n`. -/
structure Digits (cs : List Char) (n : Nat) : Prop where
  ne_nil : cs ≠ []
  isDigit : ∀ c ∈ cs, c.isDigit
  value : Nat.ofDigitChars 10 cs 0 = n

theorem natural?_eq_some_iff {cs : List Char} {n : Nat} : natural? cs = some n ↔ Digits cs n := by
  cases cs with
  | nil => exact ⟨nofun, fun h => absurd rfl h.ne_nil⟩
  | cons c rest =>
    rw [natural?, digitsFrom?_eq_some_iff]
    exact ⟨fun h => ⟨List.cons_ne_nil c rest, h.1, h.2⟩, fun h => ⟨h.isDigit, h.value⟩⟩

theorem Digits.toDigits (n : Nat) : Digits (Nat.toDigits 10 n) n where
  ne_nil := Nat.toDigits_ne_nil
  isDigit _ h := Nat.isDigit_of_mem_toDigits (by decide) (by decide) h
  value := Nat.ofDigitChars_ten_toDigits

/-! ## Signs -/

/-- A numeral for `i`: digits with no sign, with a plus sign, or with a minus sign where one is
`allowed`. -/
inductive Numeral (allowed : Bool) : List Char → Int → Prop
  | bare {cs : List Char} {n : Nat} (digits : Digits cs n) : Numeral allowed cs n
  | plus {cs : List Char} {n : Nat} (digits : Digits cs n) : Numeral allowed ('+' :: cs) n
  | minus {cs : List Char} {n : Nat} (digits : Digits cs n) (h : allowed = true) :
      Numeral allowed ('-' :: cs) (-n)

/-- A numeral for a natural number below `2 ^ bits`. -/
def Unsigned (bits : Nat) (cs : List Char) (n : Nat) : Prop :=
  Numeral false cs n ∧ n < 2 ^ bits

/-- A numeral for an integer that has a two's complement of `bits` bits. -/
def Signed (bits : Nat) (cs : List Char) (i : Int) : Prop :=
  Numeral true cs i ∧ -2 ^ (bits - 1) ≤ i ∧ i < 2 ^ (bits - 1)

theorem not_digits_cons {c : Char} {rest : List Char} {n : Nat} (h : c.isDigit = false) :
    ¬ Digits (c :: rest) n := fun hd =>
  Bool.eq_false_iff.mp h (hd.isDigit c List.mem_cons_self)

theorem numeral_plus_iff {allowed : Bool} {cs : List Char} {i : Int} :
    Numeral allowed ('+' :: cs) i ↔ ∃ n : Nat, Digits cs n ∧ i = n := by
  constructor
  · intro h
    cases h with
    | bare digits => exact absurd digits (not_digits_cons (by decide))
    | plus digits => exact ⟨_, digits, rfl⟩
  · rintro ⟨n, digits, rfl⟩
    exact .plus digits

theorem numeral_minus_iff {allowed : Bool} {cs : List Char} {i : Int} :
    Numeral allowed ('-' :: cs) i ↔ allowed = true ∧ ∃ n : Nat, Digits cs n ∧ i = -n := by
  constructor
  · intro h
    cases h with
    | bare digits => exact absurd digits (not_digits_cons (by decide))
    | minus digits hallowed => exact ⟨hallowed, _, digits, rfl⟩
  · rintro ⟨hallowed, n, digits, rfl⟩
    exact .minus digits hallowed

theorem numeral_bare_iff {allowed : Bool} {cs : List Char} {i : Int}
    (hplus : ∀ rest, cs ≠ '+' :: rest) (hminus : ∀ rest, cs ≠ '-' :: rest) :
    Numeral allowed cs i ↔ ∃ n : Nat, Digits cs n ∧ i = n := by
  constructor
  · intro h
    cases h with
    | bare digits => exact ⟨_, digits, rfl⟩
    | plus _ => exact absurd rfl (hplus _)
    | minus _ _ => exact absurd rfl (hminus _)
  · rintro ⟨n, digits, rfl⟩
    exact .bare digits

theorem digits_iff_natCast {cs : List Char} {n : Nat} :
    Digits cs n ↔ ∃ m : Nat, Digits cs m ∧ (n : Int) = m :=
  ⟨fun h => ⟨n, h, rfl⟩, fun ⟨_, h, hcast⟩ => Int.ofNat_inj.mp hcast ▸ h⟩

theorem unsigned?_eq_some_iff {bits n : Nat} {s : String} :
    unsigned? bits s = some n ↔ Unsigned bits s.toList n := by
  rw [Unsigned, unsigned?, Option.filter_eq_some_iff, decide_eq_true_eq, natural?_eq_some_iff,
    Nat.pow_eq]
  refine and_congr_left fun _ => ?_
  generalize s.toList = cs
  split
  · rw [numeral_plus_iff, ← digits_iff_natCast]
  · rename_i hplus
    by_cases hminus : ∃ rest, cs = '-' :: rest
    · obtain ⟨rest, rfl⟩ := hminus
      rw [numeral_minus_iff]
      exact iff_of_false (not_digits_cons (by decide)) fun h => Bool.false_ne_true h.1
    · rw [numeral_bare_iff hplus (not_exists.mp hminus), ← digits_iff_natCast]

theorem map_natural?_eq_some_iff {cs : List Char} {f : Nat → Int} {i : Int} :
    (natural? cs).map f = some i ↔ ∃ n : Nat, Digits cs n ∧ i = f n := by
  rw [Option.map_eq_some_iff]
  exact exists_congr fun n => and_congr natural?_eq_some_iff eq_comm

theorem signed?_eq_some_iff {bits : Nat} {i : Int} {s : String} :
    signed? bits s = some i ↔ Signed bits s.toList i := by
  have hpow : ((Nat.pow 2 (bits - 1) : Nat) : Int) = 2 ^ (bits - 1) := by
    rw [Nat.pow_eq, Int.natCast_pow]
    rfl
  rw [Signed, signed?, Option.filter_eq_some_iff, Bool.and_eq_true, decide_eq_true_eq,
    decide_eq_true_eq, hpow]
  refine and_congr_left fun _ => ?_
  generalize s.toList = cs
  split
  · rw [numeral_plus_iff]
    exact map_natural?_eq_some_iff
  · rw [numeral_minus_iff]
    exact map_natural?_eq_some_iff.trans (and_iff_right rfl).symm
  · rename_i hplus hminus
    rw [numeral_bare_iff hplus hminus]
    exact map_natural?_eq_some_iff

theorem numeral_repr (allowed : Bool) (n : Nat) : Numeral allowed n.repr.toList n := by
  rw [Nat.toList_repr]
  exact .bare (.toDigits n)

theorem numeral_toString (i : Int) : Numeral true (toString i).toList i := by
  cases i with
  | ofNat n => exact numeral_repr true n
  | negSucc n =>
    have hminus : (toString (Int.negSucc n)).toList = '-' :: Nat.toDigits 10 (n + 1) := by
      show ("-" ++ (n + 1).repr).toList = _
      rw [String.toList_append, Nat.toList_repr]
      rfl
    rw [hminus]
    exact .minus (.toDigits (n + 1)) rfl

/-! ## Words -/

/-- A word, each letter of it small or capital. -/
def Cased (word : String) (cs : List Char) : Prop :=
  List.Forall₂ (fun c letter => c = letter ∨ c = letter.toUpper) cs word.toList

theorem toLower_eq_iff {c letter : Char} (h : letter.toLower = letter) :
    c.toLower = letter ↔ c = letter ∨ c = letter.toUpper := by
  constructor
  · rintro rfl
    by_cases hc : c.isUpper = true
    · rw [Char.toUpper_toLower_eq_toUpper]
      exact .inr (Char.toUpper_eq_of_not_isLower (Char.not_isLower_of_isUpper hc)).symm
    · exact .inl (Char.toLower_eq_of_not_isUpper hc).symm
  · rintro (rfl | rfl)
    · exact h
    · rw [Char.toLower_toUpper_eq_toLower, h]

theorem lowerChars_eq_iff {word : String} (h : ∀ letter ∈ word.toList, letter.toLower = letter)
    {cs : List Char} : lowerChars cs = word.toList ↔ Cased word cs := by
  unfold Cased lowerChars
  generalize word.toList = letters at h
  induction letters generalizing cs with
  | nil => simp
  | cons letter letters ih =>
    obtain ⟨hletter, hletters⟩ := List.forall_mem_cons.mp h
    cases cs with
    | nil => simp
    | cons c cs =>
      rw [List.map_cons, List.cons_eq_cons, List.forall₂_cons, ih hletters, toLower_eq_iff hletter]

/-! ## White space -/

/-- `cs` is `inner` with white space around it. -/
def Pads (inner cs : List Char) : Prop :=
  ∃ left right, (∀ c ∈ left, isBlank c) ∧ (∀ c ∈ right, isBlank c) ∧ cs = left ++ inner ++ right

theorem Pads.refl (cs : List Char) : Pads cs cs :=
  ⟨[], [], nofun, nofun, (List.append_nil cs).symm⟩

theorem Pads.trans {inner middle cs : List Char} (h : Pads inner middle) (h' : Pads middle cs) :
    Pads inner cs := by
  obtain ⟨left, right, hleft, hright, rfl⟩ := h
  obtain ⟨left', right', hleft', hright', rfl⟩ := h'
  refine ⟨left' ++ left, right ++ right', fun c hc => ?_, fun c hc => ?_, by simp⟩
  · exact (List.mem_append.mp hc).elim (hleft' c) (hleft c)
  · exact (List.mem_append.mp hc).elim (hright c) (hright' c)

theorem pads_trimChars (cs : List Char) : Pads (trimChars cs) cs := by
  have hdrop (l : List Char) :
      ∃ blanks, (∀ c ∈ blanks, isBlank c) ∧ l = blanks ++ l.dropWhile isBlank :=
    ⟨l.takeWhile isBlank, fun _ => List.mem_takeWhile_imp, List.takeWhile_append_dropWhile.symm⟩
  obtain ⟨left, hleft, hcs⟩ := hdrop cs
  obtain ⟨right, hright, hrest⟩ := hdrop (cs.dropWhile isBlank).reverse
  refine ⟨left, right.reverse, hleft, fun c hc => hright c (List.mem_reverse.mp hc), ?_⟩
  rw [trimChars, List.append_assoc, ← List.reverse_append, ← hrest, List.reverse_reverse, ← hcs]

theorem dropWhile_blanks {left rest : List Char} (hleft : ∀ c ∈ left, isBlank c)
    (hrest : ∀ c ∈ rest.head?, ¬ isBlank c) : (left ++ rest).dropWhile isBlank = rest := by
  rw [List.dropWhile_append_of_pos hleft]
  cases rest with
  | nil => rfl
  | cons c rest => exact List.dropWhile_cons_of_neg (hrest c rfl)

theorem trimChars_of_pads {inner cs : List Char} (h : Pads inner cs)
    (hinner : ∀ c ∈ inner, ¬ isBlank c) : trimChars cs = inner := by
  obtain ⟨left, right, hleft, hright, rfl⟩ := h
  have hrev : ∀ c ∈ right.reverse, isBlank c := fun c hc => hright c (List.mem_reverse.mp hc)
  cases inner with
  | nil =>
    have hblank : ∀ c ∈ left ++ right, isBlank c := fun c hc =>
      (List.mem_append.mp hc).elim (hleft c) (hright c)
    rw [List.append_nil, trimChars, List.dropWhile_eq_nil_iff.mpr hblank]
    rfl
  | cons c inner =>
    rw [trimChars, List.append_assoc, dropWhile_blanks hleft, List.reverse_append,
      dropWhile_blanks hrev, List.reverse_reverse]
    · exact fun d hd => hinner d (List.mem_reverse.mp (List.mem_of_mem_head? hd))
    · rintro d ⟨⟩
      exact hinner c List.mem_cons_self

theorem not_isBlank_of_isDigit {c : Char} (h : c.isDigit) : ¬ isBlank c := by
  rw [Char.isDigit_iff_toNat] at h
  change 48 ≤ c.toNat ∧ c.toNat ≤ 57 at h
  simp only [isBlank, Bool.or_eq_true, Bool.and_eq_true, decide_eq_true_eq, beq_iff_eq]
  omega

theorem Numeral.not_isBlank {allowed : Bool} {cs : List Char} {i : Int} (h : Numeral allowed cs i) :
    ∀ c ∈ cs, ¬ isBlank c := by
  cases h with
  | bare digits => exact fun c hc => not_isBlank_of_isDigit (digits.isDigit c hc)
  | plus digits | minus digits _ =>
    exact List.forall_mem_cons.mpr
      ⟨by decide, fun c hc => not_isBlank_of_isDigit (digits.isDigit c hc)⟩

theorem toLower_of_isBlank {c : Char} (h : isBlank c) : c.toLower = c := by
  refine Char.toLower_eq_of_not_isUpper fun hupper => ?_
  simp only [Char.isUpper, decide_eq_true_eq, ge_iff_le] at hupper
  obtain ⟨hlow, hhigh⟩ : 65 ≤ c.toNat ∧ c.toNat ≤ 90 := hupper
  simp only [isBlank, Bool.or_eq_true, Bool.and_eq_true, decide_eq_true_eq, beq_iff_eq] at h
  omega

end SpanEcho.Text

import SpanEcho.Span.Echo

/-!
# The span machine computes the echo

The machine takes one byte at a time; `echo` cuts the whole string into pieces. Fed from outside
every span, the machine sends back exactly the echo, and it ends within a span exactly when the
last piece has an opening mark. From within a span it does what it would do after one opening mark
from outside.
-/

namespace SpanEcho.Span

/-- What follows the last closing mark; the whole string if it has none. -/
def lastPiece (bs : Bytes) : Bytes :=
  (pieces bs).getLastD []

/-- The phase that the bytes lead to from outside every span. -/
def phaseAfter (bs : Bytes) : Phase :=
  if opening ∈ lastPiece bs then .inside else .outside

/-! ## Pieces -/

theorem pieces_closing (rest : Bytes) : pieces (closing :: rest) = [] :: pieces rest := by
  simp [pieces]

theorem pieces_ne_nil (bs : Bytes) : pieces bs ≠ [] := by
  cases bs with
  | nil => simp [pieces]
  | cons b rest =>
    simp only [pieces]
    split
    · simp
    · split <;> simp

/-- A byte other than the closing mark joins the first piece of what follows. -/
theorem pieces_cons {b : UInt8} (hb : b ≠ closing) (rest : Bytes) :
    ∃ piece more, pieces rest = piece :: more ∧ pieces (b :: rest) = (b :: piece) :: more := by
  obtain ⟨piece, more, hp⟩ := List.exists_cons_of_ne_nil (pieces_ne_nil rest)
  exact ⟨piece, more, hp, by simp [pieces, hb, hp]⟩

theorem afterOpening_skip {b : UInt8} (hb : b ≠ opening) (piece : Bytes) :
    afterOpening (b :: piece) = afterOpening piece := by
  simp [afterOpening, hb]

theorem afterOpening_opening (piece : Bytes) : afterOpening (opening :: piece) = piece := by
  simp [afterOpening]

/-! ## The echo, byte by byte -/

theorem echo_closing (rest : Bytes) : echo (closing :: rest) = echo rest := by
  simp [echo, pieces_closing, afterOpening]

theorem echo_skip {b : UInt8} (ho : b ≠ opening) (rest : Bytes) : echo (b :: rest) = echo rest := by
  by_cases hc : b = closing
  · rw [hc, echo_closing]
  · obtain ⟨piece, more, hp, hq⟩ := pieces_cons hc rest
    simp [echo, hp, hq, afterOpening_skip ho]

theorem opening_ne_closing : opening ≠ closing := by decide

theorem echo_opening_closing (rest : Bytes) : echo (opening :: closing :: rest) = echo rest := by
  simp [echo, pieces, opening_ne_closing, afterOpening_opening]

/-- Within a span a byte other than the closing mark comes back incremented. -/
theorem echo_opening_cons {b : UInt8} (hb : b ≠ closing) (rest : Bytes) :
    echo (opening :: b :: rest) = shift b :: echo (opening :: rest) := by
  obtain ⟨piece, more, hp, hq⟩ := pieces_cons hb rest
  simp [echo, pieces, opening_ne_closing, hb, hp, afterOpening_opening]

/-! ## The last piece -/

theorem lastPiece_of_pieces {bs rest : Bytes} (piece : Bytes)
    (h : pieces bs = piece :: pieces rest) : lastPiece bs = lastPiece rest := by
  obtain ⟨next, more, hr⟩ := List.exists_cons_of_ne_nil (pieces_ne_nil rest)
  simp [lastPiece, h, hr]

theorem lastPiece_closing (rest : Bytes) : lastPiece (closing :: rest) = lastPiece rest :=
  lastPiece_of_pieces [] (pieces_closing rest)

theorem lastPiece_opening_closing (rest : Bytes) :
    lastPiece (opening :: closing :: rest) = lastPiece rest :=
  lastPiece_of_pieces [opening] (by simp [pieces, opening_ne_closing])

/-- A byte that is no mark does not decide whether the last piece has an opening mark. -/
theorem mem_lastPiece_skip {b : UInt8} (ho : b ≠ opening) (rest : Bytes) :
    opening ∈ lastPiece (b :: rest) ↔ opening ∈ lastPiece rest := by
  by_cases hc : b = closing
  · rw [hc, lastPiece_closing]
  · obtain ⟨piece, more, hp, hq⟩ := pieces_cons hc rest
    cases more with
    | nil => simp [lastPiece, hp, hq, Ne.symm ho]
    | cons next more => simp [lastPiece, hp, hq]

theorem mem_lastPiece_opening_cons {b : UInt8} (hb : b ≠ closing) (rest : Bytes) :
    opening ∈ lastPiece (opening :: b :: rest) ↔ opening ∈ lastPiece (opening :: rest) := by
  obtain ⟨piece, more, hp, hq⟩ := pieces_cons hb rest
  cases more with
  | nil => simp [lastPiece, pieces, opening_ne_closing, hb, hp]
  | cons next more => simp [lastPiece, pieces, opening_ne_closing, hb, hp]

theorem phaseAfter_opening_cons {b : UInt8} (hb : b ≠ closing) (rest : Bytes) :
    phaseAfter (opening :: b :: rest) = phaseAfter (opening :: rest) := by
  simp only [phaseAfter, mem_lastPiece_opening_cons hb]

/-! ## The machine -/

/-- Both phases at once: each may hand over to the other at the next mark. -/
theorem feedAll_eq (bs : Bytes) :
    Phase.outside.feedAll bs = (phaseAfter bs, echo bs) ∧
      Phase.inside.feedAll bs = (phaseAfter (opening :: bs), echo (opening :: bs)) := by
  induction bs with
  | nil => decide
  | cons b rest ih =>
    obtain ⟨hout, hin⟩ := ih
    constructor
    · by_cases ho : b = opening
      · simp [Phase.feedAll, Phase.feed, ho, hin]
      · simp [Phase.feedAll, Phase.feed, ho, hout, phaseAfter, mem_lastPiece_skip ho, echo_skip ho]
    · by_cases hc : b = closing
      · simp [Phase.feedAll, Phase.feed, hc, hout, phaseAfter, lastPiece_opening_closing,
          echo_opening_closing]
      · simp [Phase.feedAll, Phase.feed, hc, hin, phaseAfter_opening_cons hc, echo_opening_cons hc]

/-- **From outside, the machine sends back the echo.** -/
theorem feedAll_outside (bs : Bytes) : Phase.outside.feedAll bs = (phaseAfter bs, echo bs) :=
  (feedAll_eq bs).1

theorem feedAll_append (p : Phase) (as bs : Bytes) :
    p.feedAll (as ++ bs) =
      (((p.feedAll as).1.feedAll bs).1, (p.feedAll as).2 ++ ((p.feedAll as).1.feedAll bs).2) := by
  induction as generalizing p with
  | nil => simp [Phase.feedAll]
  | cons a as ih => simp [Phase.feedAll, ih]

theorem phaseAfter_append (as bs : Bytes) :
    phaseAfter (as ++ bs) = ((phaseAfter as).feedAll bs).1 := by
  have h := feedAll_append .outside as bs
  simp only [feedAll_outside] at h
  exact congrArg Prod.fst h

theorem echo_append (as bs : Bytes) :
    echo (as ++ bs) = echo as ++ ((phaseAfter as).feedAll bs).2 := by
  have h := feedAll_append .outside as bs
  simp only [feedAll_outside] at h
  exact congrArg Prod.snd h

theorem phaseAfter_nil : phaseAfter [] = .outside := rfl

theorem phaseAfter_ne_greeting (bs : Bytes) : phaseAfter bs ≠ .greeting := by
  unfold phaseAfter
  split <;> decide

/-- The greeting is long out when bytes have passed through the machine. -/
theorem acknowledge_phaseAfter (bs : Bytes) : (phaseAfter bs).acknowledge = phaseAfter bs := by
  cases hp : phaseAfter bs with
  | greeting => exact absurd hp (phaseAfter_ne_greeting bs)
  | outside => rfl
  | inside => rfl

/-- A byte sends back at most one byte. -/
theorem length_feedAll_le (p : Phase) (bs : Bytes) : (p.feedAll bs).2.length ≤ bs.length := by
  induction bs generalizing p with
  | nil => simp [Phase.feedAll]
  | cons b rest ih =>
    have h := ih (p.feed b).1
    have hb : (p.feed b).2.toList.length ≤ 1 := by cases (p.feed b).2 <;> simp
    simp only [Phase.feedAll, List.length_append, List.length_cons]
    omega

end SpanEcho.Span

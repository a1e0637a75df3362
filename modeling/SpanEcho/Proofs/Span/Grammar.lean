import Mathlib.Data.List.DropRight
import SpanEcho.Proofs.Span

/-!
# The grammar of spans

What the machine sends back is said here in the words of lists alone: the string is split at its
closing marks, and of each piece what follows the first opening mark comes back, every byte
incremented. The machine stands within a span exactly when there is an opening mark after the last
closing one.

It makes no difference in how many fragments the string comes in. The greeting is left at the first
acknowledgement and at nothing else; no byte and no acknowledgement leads back to it.
-/

namespace SpanEcho.Span

/-! ## Pieces, split and last -/

theorem pieces_eq_splitOn (bs : Bytes) : pieces bs = bs.splitOn closing := by
  unfold List.splitOn
  induction bs with
  | nil => rw [List.splitOnP_nil, pieces]
  | cons b rest ih =>
    rw [List.splitOnP_cons_eq_if_modifyHead, ← ih]
    by_cases hb : b = closing
    · simp [pieces, hb]
    · obtain ⟨piece, more, hp, hq⟩ := pieces_cons hb rest
      simp [hp, hq, hb]

theorem pieces_append_closing (as bs : Bytes) :
    pieces (as ++ closing :: bs) = pieces as ++ pieces bs := by
  simp only [pieces_eq_splitOn, List.splitOn]
  exact List.splitOnP_append_cons as bs (beq_self_eq_true closing)

theorem pieces_of_not_mem {bs : Bytes} (h : closing ∉ bs) : pieces bs = [bs] := by
  rw [pieces_eq_splitOn, List.splitOn]
  refine List.splitOnP_eq_singleton fun b hb => ?_
  rw [beq_eq_false_iff_ne]
  rintro rfl
  exact h hb

/-- What follows the last closing mark is the longest end of the string without one. -/
theorem lastPiece_eq_rtakeWhile (bs : Bytes) : lastPiece bs = bs.rtakeWhile (· ≠ closing) := by
  have hsplit := bs.rdropWhile_append_rtakeWhile (p := (· ≠ closing))
  have hpiece : pieces (bs.rtakeWhile (· ≠ closing)) = [bs.rtakeWhile (· ≠ closing)] :=
    pieces_of_not_mem fun hm => by simpa using List.mem_rtakeWhile_imp hm
  by_cases hnil : bs.rdropWhile (· ≠ closing) = []
  · rw [hnil, List.nil_append] at hsplit
    rw [hsplit] at hpiece ⊢
    simp [lastPiece, hpiece]
  · have hclosing := bs.rdropWhile_last_not (· ≠ closing) hnil
    rw [decide_eq_true_eq, not_not] at hclosing
    obtain ⟨before, hbefore⟩ : ∃ before, bs.rdropWhile (· ≠ closing) = before ++ [closing] := by
      refine ⟨(bs.rdropWhile (· ≠ closing)).dropLast, ?_⟩
      conv_lhs => rw [← List.dropLast_append_getLast hnil, hclosing]
    rw [hbefore, ← List.append_cons] at hsplit
    have hpieces := pieces_append_closing before (bs.rtakeWhile (· ≠ closing))
    rw [hsplit, hpiece] at hpieces
    simp [lastPiece, hpieces]

/-- The echo without functions of its own. -/
theorem echo_eq_flatMap (bs : Bytes) : echo bs = (bs.splitOn closing).flatMap fun piece =>
    ((piece.dropWhile (· ≠ opening)).drop 1).map (· + 1) := by
  rw [echo, pieces_eq_splitOn]
  rfl

/-! ## Fragments -/

namespace Phase

/-- Takes a string in fragments: the last phase, and all bytes sent back for one fragment after the
other. -/
def feedFragments (p : Phase) : List Bytes → Phase × Bytes
  | [] => (p, [])
  | fragment :: rest =>
    let (p, out) := p.feedAll fragment
    let (p, outs) := p.feedFragments rest
    (p, out ++ outs)

theorem feedFragments_eq (p : Phase) (fragments : List Bytes) :
    p.feedFragments fragments = p.feedAll fragments.flatten := by
  induction fragments generalizing p with
  | nil => rfl
  | cons fragment rest ih => simp only [feedFragments, ih, List.flatten_cons, feedAll_append]

theorem feedAll_greeting (bs : Bytes) : greeting.feedAll bs = (greeting, []) := by
  induction bs with
  | nil => rfl
  | cons b rest ih => simp [feedAll, feed, ih]

/-- Within a span the machine does what it would do after one opening mark from outside. -/
theorem feedAll_inside (bs : Bytes) : inside.feedAll bs = outside.feedAll (opening :: bs) :=
  (feedAll_eq bs).2.trans (feedAll_outside _).symm

/-! ## Bytes and acknowledgements -/

/-- What can happen to a machine. -/
inductive Happening where
  | byte (b : UInt8)
  | acknowledged
deriving DecidableEq

/-- The phase that something leads to. -/
def after (p : Phase) : Happening → Phase
  | .byte b => (p.feed b).1
  | .acknowledged => p.acknowledge

def afterAll (p : Phase) (happenings : List Happening) : Phase :=
  happenings.foldl after p

theorem after_eq_greeting_iff (p : Phase) (what : Happening) :
    p.after what = .greeting ↔ p = .greeting ∧ what ≠ .acknowledged := by
  cases what with
  | byte b =>
    cases p with
    | greeting => simp [after, feed]
    | outside => by_cases hb : b = opening <;> simp [after, feed, hb]
    | inside => by_cases hb : b = closing <;> simp [after, feed, hb]
  | acknowledged => cases p <;> simp [after, acknowledge]

theorem afterAll_eq_greeting_iff (p : Phase) (happenings : List Happening) :
    p.afterAll happenings = .greeting ↔ p = .greeting ∧ .acknowledged ∉ happenings := by
  induction happenings generalizing p with
  | nil => simp [afterAll]
  | cons what rest ih =>
    have hrest := ih (p.after what)
    rw [after_eq_greeting_iff] at hrest
    simp only [afterAll, List.foldl_cons, List.mem_cons, not_or] at hrest ⊢
    rw [hrest, and_assoc, ne_comm]

end Phase

/-! ## The machine computes the grammar -/

/-- **The machine computes the grammar of spans.** Fed from outside every span, it sends back, for
each piece of the string between closing marks, what follows the first opening mark of the piece,
incremented; and it ends within a span exactly when there is an opening mark after the last closing
one. From within a span it does what one more opening mark in front would make it do from outside.
Before the greeting is out it sends back nothing and stays. From every phase, fragments have the
effect of the string that they make up. Whatever bytes and acknowledgements come, in any order, the
machine has the greeting before it only if it had so from the start and nothing was acknowledged. -/
theorem grammar_of_machine (bs : Bytes) :
    Phase.outside.feedAll bs =
        (if opening ∈ bs.rtakeWhile (· ≠ closing) then .inside else .outside,
          (bs.splitOn closing).flatMap fun piece =>
            ((piece.dropWhile (· ≠ opening)).drop 1).map (· + 1)) ∧
      Phase.inside.feedAll bs = Phase.outside.feedAll (opening :: bs) ∧
      Phase.greeting.feedAll bs = (.greeting, []) ∧
      (∀ p fragments, fragments.flatten = bs → Phase.feedFragments p fragments = p.feedAll bs) ∧
      ∀ p happenings, Phase.afterAll p happenings = .greeting ↔
        p = .greeting ∧ .acknowledged ∉ happenings := by
  refine ⟨?_, Phase.feedAll_inside bs, Phase.feedAll_greeting bs, ?_,
    Phase.afterAll_eq_greeting_iff⟩
  · rw [feedAll_outside, phaseAfter, lastPiece_eq_rtakeWhile, echo_eq_flatMap]
  · rintro p fragments rfl
    exact p.feedFragments_eq fragments

/-- An opening mark within a span and a closing one outside are bytes like any other. -/
example : Phase.outside.feedAll [36, 94, 94, 255, 36, 36, 94, 97] = (.inside, [95, 0, 98]) := by
  decide

end SpanEcho.Span

import SpanEcho.Proofs.Session

/-!
# Batches that fit and batches that do not

A batch is run through the machine byte by byte, and each byte that is to be sent back is staged at
once. A batch whose echo fits leaves the session as if the echo had been computed first and staged
after. One that does not fit stops at the first byte whose echo finds no room: what was staged up to
there stays, the machine has taken that byte too, and the rest of the batch is not looked at.

This holds of every session that calls of the handlers and batches can lead to, whatever the peers
do; all that is needed of them is that the outbox is in bounds.
-/

namespace SpanEcho

namespace Span.Phase

/-- The byte at which the machine has sent back more than `n` bytes for the first time. -/
theorem exists_emission (p : Phase) (bs : Bytes) {n : Nat} (h : n < (p.feedAll bs).2.length) :
    ∃ before b after, bs = before ++ b :: after ∧
      (p.feedAll before).2 = (p.feedAll bs).2.take n ∧
      (p.feedAll (before ++ [b])).2 = (p.feedAll bs).2.take (n + 1) := by
  induction bs generalizing p n with
  | nil => exact absurd h (Nat.not_lt_zero n)
  | cons b rest ih =>
    rcases hfeed : p.feed b with ⟨q, out⟩
    simp only [feedAll, hfeed] at h ⊢
    cases out with
    | none =>
      obtain ⟨before, c, after, rfl, hbefore, hlast⟩ := ih q (by simpa using h)
      refine ⟨b :: before, c, after, rfl, ?_, ?_⟩
      · simpa [feedAll, hfeed] using hbefore
      · simpa [feedAll, hfeed] using hlast
    | some c =>
      cases n with
      | zero => exact ⟨[], b, rest, rfl, by simp [feedAll], by simp [feedAll, hfeed]⟩
      | succ n =>
        obtain ⟨before, d, after, rfl, hbefore, hlast⟩ := ih q (by simpa using h)
        refine ⟨b :: before, d, after, rfl, ?_, ?_⟩
        · simpa [feedAll, hfeed] using hbefore
        · simpa [feedAll, hfeed] using hlast

end Span.Phase

namespace Session

variable {s : Session} {capacity : Nat}

/-! ## One batch and two -/

/-- The session after a batch that led to `phase` and staged `out`: nothing else is changed. -/
def staging (s : Session) (phase : Span.Phase) (out : Bytes) : Session :=
  { s with phase, outbox := { s.outbox with bytes := s.outbox.bytes ++ out } }

/-- A batch in two parts is the batch as a whole, in what it answers and in what it leaves. -/
theorem ingest_append (first second : Bytes) :
    ingest (first ++ second) = (do
      let any ← ingest first
      let more ← ingest second
      pure (any || more)) := by
  induction first with
  | nil =>
    funext s
    rw [List.nil_append, ingest, Action.pure_bind, Action.bind_apply]
    rcases ingest second s with ⟨_ | _ | _, s'⟩ <;> rfl
  | cons b rest ih =>
    rw [List.cons_append, ingest, ih, ingest]
    simp only [Action.bind_assoc, Action.pure_bind, Bool.or_assoc]

theorem ingest_staging (h : s.outbox.InBounds) (bs : Bytes)
    (hfits : (s.phase.feedAll bs).2.length ≤ s.outbox.room) :
    ingest bs s = (.ok (!(s.phase.feedAll bs).2.isEmpty),
      s.staging (s.phase.feedAll bs).1 (s.phase.feedAll bs).2) := by
  have hle := h.2
  refine ingest_of_fits bs s ?_
  rw [Outbox.room] at hfits
  omega

/-- A byte whose echo finds no room is refused; the machine has taken it all the same. -/
theorem stage_refused {b c : UInt8} (hfull : s.outbox.capacity ≤ s.outbox.bytes.length)
    (hout : (s.phase.feed b).2 = some c) : stage b s =
      (.failed (.outboxFull s.outbox.capacity), { s with phase := (s.phase.feed b).1 }) := by
  rcases hfeed : s.phase.feed b with ⟨p, out⟩
  rw [hfeed] at hout
  obtain rfl : out = some c := hout
  simp only [stage, hfeed, Outbox.push, if_neg (Nat.not_lt.mpr hfull), Outcome.map]

/-- The batch stops at the byte whose echo finds no room, with the echo of all before it staged. -/
theorem ingest_overflowing (h : s.outbox.InBounds) (bs : Bytes)
    (hover : s.outbox.room < (s.phase.feedAll bs).2.length) :
    ∃ before b after, bs = before ++ b :: after ∧
      (s.phase.feedAll before).2 = (s.phase.feedAll bs).2.take s.outbox.room ∧
      (s.phase.feedAll (before ++ [b])).2 = (s.phase.feedAll bs).2.take (s.outbox.room + 1) ∧
      ingest bs s = (.failed (.outboxFull s.outbox.capacity),
        s.staging (s.phase.feedAll (before ++ [b])).1
          ((s.phase.feedAll bs).2.take s.outbox.room)) := by
  obtain ⟨before, b, after, hbs, hbefore, hlast⟩ := s.phase.exists_emission bs hover
  refine ⟨before, b, after, hbs, hbefore, hlast, ?_⟩
  have hlength : (s.phase.feedAll before).2.length = s.outbox.room := by
    rw [hbefore, List.length_take, Nat.min_eq_left (Nat.le_of_lt hover)]
  -- The echo of all before the byte fills the room to the last place, so it is staged as a whole.
  have hfirst := ingest_staging h before (Nat.le_of_eq hlength)
  -- The byte brings the echo beyond that, so it is sent back itself.
  obtain ⟨c, hc⟩ : ∃ c, ((s.phase.feedAll before).1.feed b).2 = some c := by
    have hmore := congrArg List.length hlast
    rw [Span.feedAll_append, List.length_append, hlength, List.length_take,
      Nat.min_eq_left hover] at hmore
    cases hout : ((s.phase.feedAll before).1.feed b).2 with
    | some c => exact ⟨c, rfl⟩
    | none => simp [Span.Phase.feedAll, hout] at hmore
  have hfull : s.outbox.capacity ≤ (s.outbox.bytes ++ (s.phase.feedAll before).2).length := by
    have hle := h.2
    rw [List.length_append, hlength, Outbox.room]
    omega
  have hrefused := stage_refused
    (s := s.staging (s.phase.feedAll before).1 (s.phase.feedAll before).2) hfull hc
  rw [hbs, ingest_append, Action.bind_of_ok hfirst, ingest, Action.bind_apply, Action.bind_apply,
    hrefused, ← hbs, ← hbefore, Span.feedAll_append]
  rfl

/-! ## Sessions in bounds -/

/-- Where calls of the handlers and batches can lead a session. Nothing is asked of the peers. -/
inductive Reached (capacity : Nat) : Session → Prop where
  | begun : Reached capacity (Session.begin capacity).1
  | answered {π : Type} [Peer π] {s : Session} (h : Reached capacity s) (p : Prompt) (peer : π) :
      Reached capacity (s.answer p peer).2.1
  | ingested {s : Session} (h : Reached capacity s) (bs : Bytes) : Reached capacity (ingest bs s).2

/-- The outbox has the capacity it began with, and is in bounds. -/
def Bounded (capacity : Nat) (s : Session) : Prop :=
  s.outbox.capacity = max capacity 1 ∧ s.outbox.InBounds

theorem Bounded.staging (h : s.Bounded capacity) (phase : Span.Phase) {out : Bytes}
    (hfits : out.length ≤ s.outbox.room) : (s.staging phase out).Bounded capacity := by
  obtain ⟨hcapacity, hmark, hle⟩ := h
  have hlength : (s.outbox.bytes ++ out).length = s.outbox.bytes.length + out.length :=
    List.length_append
  rw [Outbox.room] at hfits
  refine ⟨hcapacity, ?_, ?_⟩
  · show s.outbox.sent ≤ (s.outbox.bytes ++ out).length
    omega
  · show (s.outbox.bytes ++ out).length ≤ s.outbox.capacity
    omega

theorem Bounded.ingest (h : s.Bounded capacity) (bs : Bytes) :
    (Session.ingest bs s).2.Bounded capacity := by
  by_cases hfits : (s.phase.feedAll bs).2.length ≤ s.outbox.room
  · rw [ingest_staging h.2 bs hfits]
    exact h.staging _ hfits
  · obtain ⟨before, b, after, -, -, -, hingest⟩ :=
      ingest_overflowing h.2 bs (Nat.not_le.mp hfits)
    rw [hingest]
    exact h.staging _ (List.length_take_le _ _)

theorem Bounded.absorb (h : s.Bounded capacity) (chunk : Nat) (inflow : Inflow) :
    (Session.absorb chunk inflow s).2.Bounded capacity := by
  cases inflow with
  | blocked => exact h
  | failed e => exact h
  | bytes received =>
    cases received with
    | nil => exact h
    | cons b rest =>
      simp only [Session.absorb]
      split
      · exact h
      · have hcounted : ({ s with bytesIn := s.bytesIn + (b :: rest).length } : Session).Bounded
            capacity := h
        exact hcounted.ingest (b :: rest)

theorem Bounded.settle (h : s.Bounded capacity) (outflow : Outflow) :
    (Session.settle outflow s).2.Bounded capacity := by
  cases outflow with
  | blocked => exact h
  | failed e => exact h
  | taken n =>
    have hcapacity := s.outbox.capacity_advance n
    have hbounds := h.2.advance n
    unfold Session.settle
    by_cases hover : s.outbox.pending.length < n
    · simp only [if_pos hover]
      exact h
    · simp only [if_neg hover]
      rcases hadvance : s.outbox.advance n with ⟨_ | _, o⟩
      · rw [hadvance] at hcapacity hbounds
        exact ⟨hcapacity.trans h.1, hbounds⟩
      · rw [hadvance] at hcapacity hbounds
        exact ⟨hcapacity.trans h.1, hbounds⟩

theorem Bounded.answer {π : Type} [Peer π] (h : s.Bounded capacity) (p : Prompt) (peer : π) :
    (s.answer p peer).2.1.Bounded capacity := by
  cases p with
  | readable chunk =>
    simp only [Session.answer, onReadable, if_pos h.2]
    split
    · exact h
    · exact h.absorb _ _
  | writable =>
    simp only [Session.answer, onWritable, if_pos h.2]
    split
    · exact h
    · exact h.settle _

theorem Reached.bounded (h : Reached capacity s) : s.Bounded capacity := by
  induction h with
  | begun => exact ⟨rfl, Outbox.greeted_inBounds capacity⟩
  | answered _ p peer ih => exact ih.answer p peer
  | ingested _ bs ih => exact ih.ingest bs

/-- **A batch is staged exactly, also when it overflows.** Take a session that calls of the handlers
and batches have led to, and what its machine sends back for a batch. If the outbox has room for
all of it, the batch answers whether there was anything, all of it is staged, and the machine is
where the batch leads. If it has not, the batch fails for a full outbox; staged is as much as there
was room for, and the machine is where the batch leads up to the byte whose echo found none. Beyond
the phase and the bytes added at the end the session is as before. A batch cut in two has the
effect of the whole, the second part being run if the first succeeds. -/
theorem exact_of_batch (h : Reached capacity s) (bs : Bytes) :
    let out := (s.phase.feedAll bs).2
    let room := s.outbox.room
    room + s.outbox.bytes.length = s.outbox.capacity ∧
      (out.length ≤ room →
        ingest bs s = (.ok (!out.isEmpty), s.staging (s.phase.feedAll bs).1 out)) ∧
      (room < out.length → ∃ before b after, bs = before ++ b :: after ∧
        (s.phase.feedAll before).2 = out.take room ∧
        (s.phase.feedAll (before ++ [b])).2 = out.take (room + 1) ∧
        ingest bs s = (.failed (.outboxFull s.outbox.capacity),
          s.staging (s.phase.feedAll (before ++ [b])).1 (out.take room))) ∧
      ∀ first second, bs = first ++ second → ingest bs s =
        (do
          let any ← ingest first
          let more ← ingest second
          pure (any || more) : Action Session Bool) s := by
  have hbounds := h.bounded.2
  refine ⟨Nat.sub_add_cancel hbounds.2, ingest_staging hbounds bs,
    ingest_overflowing hbounds bs, ?_⟩
  rintro first second rfl
  rw [ingest_append]

end Session

/-- A session with three places, two bytes staged and the first of them sent. -/
def Drip.halfSent : Session :=
  let greeted := ((Session.begin 3).1.answer .writable (Drip.mk [] 1)).2.1
  ((Session.ingest [94, 97, 98] greeted).2.answer .writable (Drip.mk [] 1)).2.1

/-- The byte that is sent keeps its place, so of two bytes more only one finds room. -/
theorem Drip.exact_of_halfSent :
    Session.Reached 3 halfSent ∧ halfSent.outbox.room = 1 ∧
      halfSent.outbox.room < (halfSent.phase.feedAll [99, 100, 36, 101]).2.length ∧
      ∃ before b after, [99, 100, 36, 101] = before ++ b :: after ∧
        (halfSent.phase.feedAll before).2 = [100] ∧
        (halfSent.phase.feedAll (before ++ [b])).2 = [100, 101] ∧
        Session.ingest [99, 100, 36, 101] halfSent = (.failed (.outboxFull 3),
          halfSent.staging (halfSent.phase.feedAll (before ++ [b])).1 [100]) := by
  have hreached : Session.Reached 3 halfSent :=
    ((Session.Reached.begun.answered .writable _).ingested _).answered .writable _
  have hover : halfSent.outbox.room < (halfSent.phase.feedAll [99, 100, 36, 101]).2.length := by
    decide
  exact ⟨hreached, by decide, hover,
    (Session.exact_of_batch hreached [99, 100, 36, 101]).2.2.1 hover⟩

end SpanEcho

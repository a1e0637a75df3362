import SpanEcho.Proofs.Outbox

/-!
# An outbox is a bounded queue

Bytes leave an outbox in the order in which they came in, none twice and none left out. What bounds
the queue is not how many bytes wait in it but how many are staged: a byte that is sent keeps its
place until nothing is pending, and then all places are free at once. `Sound` is what the mark, the
bytes and the capacity have to do with each other at all times.
-/

namespace SpanEcho.Outbox

variable {o : Outbox}

/-- The outbox is in bounds, and it keeps no bytes that are all sent. -/
structure Sound (o : Outbox) : Prop where
  inBounds : o.InBounds
  cleared : o.pending = [] → o.bytes = []

theorem sound_new (capacity : Nat) : ({ capacity } : Outbox).Sound :=
  ⟨⟨Nat.le_refl 0, Nat.zero_le capacity⟩, fun _ => rfl⟩

theorem sound_greeted (capacity : Nat) : (greeted capacity).Sound :=
  ⟨greeted_inBounds capacity, fun h => absurd h (List.cons_ne_nil _ _)⟩

theorem Sound.pending_eq_nil_iff (h : o.Sound) : o.pending = [] ↔ o.bytes = [] := by
  refine ⟨h.cleared, fun hbytes => ?_⟩
  rw [pending, hbytes, List.drop_nil]

/-- The bytes that are staged and the room for more make up the capacity. -/
theorem room_add_length (h : o.InBounds) : o.room + o.bytes.length = o.capacity :=
  Nat.sub_add_cancel h.2

/-! ## What comes in -/

/-- A byte is refused exactly when all places are taken, also by bytes that are sent. -/
theorem push_eq (h : o.InBounds) (b : UInt8) :
    push b o = if o.bytes.length = o.capacity then (.failed (.outboxFull o.capacity), o)
      else (.ok (), { o with bytes := o.bytes ++ [b] }) := by
  have hle := h.2
  by_cases hfull : o.bytes.length = o.capacity
  · rw [if_pos hfull, push, if_neg (by omega)]
  · rw [if_neg hfull, push_of_lt b (by omega)]

theorem pending_pushed (h : o.InBounds) (b : UInt8) :
    ({ o with bytes := o.bytes ++ [b] } : Outbox).pending = o.pending ++ [b] := by
  simp only [pending]
  exact List.drop_append_of_le_length h.1

/-! ## What goes out -/

/-- Either all that is pending is passed over, and the outbox is emptied, or the mark stops short of
the end. -/
theorem advance_cases (h : o.InBounds) (n : Nat) :
    (o.pending.length ≤ n ∧ o.advance n = (true, { o with bytes := [], sent := 0 })) ∨
      (n < o.pending.length ∧ o.advance n = (false, { o with sent := o.sent + n })) := by
  rcases Nat.lt_or_ge n o.pending.length with hn | hn
  · exact .inr ⟨hn, advance_part hn⟩
  · exact .inl ⟨hn, advance_rest h.1 hn⟩

/-- Everything is sent exactly when nothing is pending any more, which is when the outbox is empty,
mark and all. -/
theorem advance_answer (h : o.InBounds) (n : Nat) :
    ((o.advance n).1 = true ↔ (o.advance n).2.pending = []) ∧
      ((o.advance n).1 = true ↔ (o.advance n).2.bytes = [] ∧ (o.advance n).2.sent = 0) := by
  rcases advance_cases h n with ⟨-, hadvance⟩ | ⟨hn, hadvance⟩
  · rw [hadvance]
    simp [pending]
  · have hpending : o.pending.drop n ≠ [] := by
      rw [ne_eq, List.drop_eq_nil_iff]
      omega
    have hbytes : o.bytes ≠ [] := by
      intro hnil
      simp [pending, hnil] at hn
    rw [hadvance, pending_moved]
    simp [hbytes, hpending]

/-! ## Runs of requests -/

/-- What can be asked of an outbox. -/
inductive Request where
  | push (b : UInt8)
  | advance (n : Nat)
deriving DecidableEq

/-- The outbox that a request leaves. -/
def after (o : Outbox) : Request → Outbox
  | .push b => (push b o).2
  | .advance n => (o.advance n).2

/-- What a request puts into the outbox. -/
def accepts (o : Outbox) : Request → Bytes
  | .push b => if (push b o).1.isOk then [b] else []
  | .advance _ => []

/-- What a request passes over. -/
def passes (o : Outbox) : Request → Bytes
  | .push _ => []
  | .advance n => o.pending.take n

def afterAll (o : Outbox) (requests : List Request) : Outbox :=
  requests.foldl after o

/-- All that a run of requests has put into the outbox, in order. -/
def accepted (o : Outbox) : List Request → Bytes
  | [] => []
  | q :: rest => o.accepts q ++ accepted (o.after q) rest

/-- All that a run of requests has passed over, in order. -/
def passed (o : Outbox) : List Request → Bytes
  | [] => []
  | q :: rest => o.passes q ++ passed (o.after q) rest

theorem capacity_after (o : Outbox) (q : Request) : (o.after q).capacity = o.capacity := by
  cases q with
  | push b => exact capacity_push b o
  | advance n => exact capacity_advance o n

theorem Sound.after (h : o.Sound) (q : Request) : (o.after q).Sound := by
  cases q with
  | push b =>
    refine ⟨h.inBounds.push b, fun hnil => ?_⟩
    rw [Outbox.after, push_eq h.inBounds] at hnil ⊢
    split at hnil
    · rename_i hfull
      rw [if_pos hfull]
      exact h.cleared hnil
    · rw [pending_pushed h.inBounds] at hnil
      exact absurd hnil (List.append_ne_nil_of_right_ne_nil _ (List.cons_ne_nil b []))
  | advance n =>
    have hcleared := (advance_answer h.inBounds n).1.symm.trans (advance_answer h.inBounds n).2
    exact ⟨h.inBounds.advance n, fun hnil => (hcleared.mp hnil).1⟩

/-- Bytes come in at the back and are passed over at the front. -/
theorem passes_append_pending (h : o.InBounds) (q : Request) :
    o.passes q ++ (o.after q).pending = o.pending ++ o.accepts q := by
  cases q with
  | push b =>
    rw [passes, after, accepts, push_eq h]
    split
    · exact (List.append_nil _).symm
    · rw [pending_pushed h]
      rfl
  | advance n =>
    rw [passes, after, accepts, List.append_nil]
    rcases advance_cases h n with ⟨hn, hadvance⟩ | ⟨-, hadvance⟩
    · rw [hadvance, List.take_of_length_le hn]
      exact List.append_nil _
    · rw [hadvance, pending_moved, List.take_append_drop]

theorem Sound.afterAll (h : o.Sound) (requests : List Request) : (o.afterAll requests).Sound := by
  induction requests generalizing o with
  | nil => exact h
  | cons q rest ih => exact ih (h.after q)

theorem capacity_afterAll (o : Outbox) (requests : List Request) :
    (o.afterAll requests).capacity = o.capacity := by
  induction requests generalizing o with
  | nil => rfl
  | cons q rest ih => exact (ih (o.after q)).trans (capacity_after o q)

theorem passed_append_pending (h : o.Sound) (requests : List Request) :
    o.passed requests ++ (o.afterAll requests).pending = o.pending ++ o.accepted requests := by
  induction requests generalizing o with
  | nil => exact (List.append_nil _).symm
  | cons q rest ih =>
    have hrest := ih (h.after q)
    calc o.passed (q :: rest) ++ (o.afterAll (q :: rest)).pending
        = o.passes q ++ ((o.after q).passed rest ++ ((o.after q).afterAll rest).pending) :=
          List.append_assoc _ _ _
      _ = (o.passes q ++ (o.after q).pending) ++ (o.after q).accepted rest := by
          rw [hrest, List.append_assoc]
      _ = o.pending ++ o.accepted (q :: rest) := by
          rw [passes_append_pending h.inBounds, List.append_assoc, accepted]

/-- **An outbox is a bounded queue.** A new outbox, with the greeting staged or without, is asked
for anything in any order. Then what was passed over and what is pending are together the greeting,
if there was one, and the bytes that were put in, in their order. The mark is within the bytes, the
bytes within the capacity, and the room is the rest of it. Something is pending exactly when the
outbox holds anything at all. A byte is refused, with nothing changed, exactly when the bytes staged
fill the capacity, those already sent among them. An advance answers that all is sent exactly when
nothing is pending after it, and exactly then the outbox is left empty with its mark at the
start. -/
theorem queue_of_requests (capacity : Nat) (greets : Bool) (requests : List Request) :
    let new : Outbox := if greets then greeted capacity else { capacity }
    let o := new.afterAll requests
    new.passed requests ++ o.pending =
        (if greets then [Span.greeting] else []) ++ new.accepted requests ∧
      o.capacity = (if greets then max capacity 1 else capacity) ∧
      o.sent ≤ o.bytes.length ∧ o.bytes.length ≤ o.capacity ∧
      o.room + o.bytes.length = o.capacity ∧
      (o.hasPending = true ↔ o.pending ≠ []) ∧ (o.hasPending = true ↔ o.bytes ≠ []) ∧
      (∀ b, push b o = if o.bytes.length = o.capacity then (.failed (.outboxFull o.capacity), o)
        else (.ok (), { o with bytes := o.bytes ++ [b] })) ∧
      ∀ n, ((o.advance n).1 = true ↔ (o.advance n).2.pending = []) ∧
        ((o.advance n).1 = true ↔ (o.advance n).2.bytes = [] ∧ (o.advance n).2.sent = 0) := by
  intro new o
  have hnew : new.Sound ∧ new.pending = (if greets then [Span.greeting] else []) ∧
      new.capacity = (if greets then max capacity 1 else capacity) := by
    cases greets with
    | false => exact ⟨sound_new capacity, rfl, rfl⟩
    | true => exact ⟨sound_greeted capacity, rfl, rfl⟩
  obtain ⟨hsound, hpending, hcapacity⟩ := hnew
  have ho : o.Sound := hsound.afterAll requests
  refine ⟨?_, (capacity_afterAll new requests).trans hcapacity, ho.inBounds.1, ho.inBounds.2,
    room_add_length ho.inBounds, hasPending_iff o, ?_, push_eq ho.inBounds,
    advance_answer ho.inBounds⟩
  · rw [← hpending]
    exact passed_append_pending hsound requests
  · rw [hasPending_iff, ne_eq, ho.pending_eq_nil_iff]

/-- One of two bytes is sent, and its place is not free yet. -/
example : let o := ({ capacity := 2 } : Outbox).afterAll [.push 97, .push 98, .advance 1]
    o.pending = [98] ∧ push 99 o = (.failed (.outboxFull 2), o) := by
  decide

end SpanEcho.Outbox

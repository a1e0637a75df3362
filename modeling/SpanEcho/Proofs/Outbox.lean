import SpanEcho.Outbox

/-!
# What is staged and what is sent

Staging appends to the pending bytes and sending takes from their front. The bookkeeping behind
this (a mark that moves, room that comes back only at the end) is named here once; later proofs
speak of `pending` and `room` only.
-/

namespace SpanEcho.Outbox

theorem length_pending (o : Outbox) : o.pending.length = o.bytes.length - o.sent := by
  simp [pending]

theorem hasPending_iff (o : Outbox) : o.hasPending = true ↔ o.pending ≠ [] := by
  simp [hasPending, pending]

theorem greeted_inBounds (capacity : Nat) : (greeted capacity).InBounds := by
  simp only [greeted, InBounds, List.length_singleton]
  omega

theorem push_of_lt {o : Outbox} (b : UInt8) (h : o.bytes.length < o.capacity) :
    push b o = (.ok (), { o with bytes := o.bytes ++ [b] }) := by
  simp [push, h]

theorem capacity_push (b : UInt8) (o : Outbox) : (push b o).2.capacity = o.capacity := by
  unfold push
  split <;> rfl

theorem InBounds.push {o : Outbox} (h : o.InBounds) (b : UInt8) :
    (Outbox.push b o).2.InBounds := by
  obtain ⟨hmark, hfits⟩ := h
  unfold Outbox.push
  split
  · constructor
    · show o.sent ≤ (o.bytes ++ [b]).length
      rw [List.length_append, List.length_singleton]
      omega
    · show (o.bytes ++ [b]).length ≤ o.capacity
      rw [List.length_append, List.length_singleton]
      omega
  · exact ⟨hmark, hfits⟩

/-! ## Sending -/

/-- A send of everything pending, or more, empties the outbox. -/
theorem advance_rest {o : Outbox} (hb : o.sent ≤ o.bytes.length) {n : Nat}
    (hn : o.pending.length ≤ n) : o.advance n = (true, { o with bytes := [], sent := 0 }) := by
  rw [length_pending] at hn
  have h : min (o.sent + n) o.bytes.length = o.bytes.length := by omega
  simp [advance, h]

theorem advance_all {o : Outbox} (hb : o.sent ≤ o.bytes.length) :
    o.advance o.pending.length = (true, { o with bytes := [], sent := 0 }) :=
  advance_rest hb (Nat.le_refl _)

/-- A send of less than that only moves the mark. -/
theorem advance_part {o : Outbox} {n : Nat} (hn : n < o.pending.length) :
    o.advance n = (false, { o with sent := o.sent + n }) := by
  rw [length_pending] at hn
  have h : min (o.sent + n) o.bytes.length = o.sent + n := by omega
  have hne : o.sent + n ≠ o.bytes.length := by omega
  simp [advance, h, hne]

theorem capacity_advance (o : Outbox) (n : Nat) : (o.advance n).2.capacity = o.capacity := by
  simp only [advance]
  split <;> rfl

theorem InBounds.advance {o : Outbox} (h : o.InBounds) (n : Nat) : (o.advance n).2.InBounds := by
  simp only [Outbox.advance]
  split
  · exact ⟨Nat.le_refl 0, Nat.zero_le _⟩
  · exact ⟨Nat.min_le_right _ _, h.2⟩

theorem pending_moved (o : Outbox) (n : Nat) :
    ({ o with sent := o.sent + n } : Outbox).pending = o.pending.drop n := by
  simp [pending]

end SpanEcho.Outbox

import SpanEcho.Proofs.Session

/-!
# Nothing is asked for while something is pending

A session takes no bytes in that it has no room for: it asks its peer only when the outbox is
empty, mark and all, and then for no more than fits. A byte received stages one at most, so the
outbox never refuses one, and its mark only moves forward until all that was staged is sent.
-/

namespace SpanEcho

/-- A peer with a record of how many bytes it was asked for, each time it was asked. -/
structure Asked (π : Type) where
  peer : π
  rooms : List Nat := []

instance {π : Type} [Peer π] : Peer (Asked π) where
  receive room a :=
    let (inflow, peer) := Peer.receive room a.peer
    (inflow, { peer, rooms := a.rooms ++ [room] })
  send bytes a :=
    let (outflow, peer) := Peer.send bytes a.peer
    (outflow, { a with peer })

theorem Asked.faithful {π : Type} [Peer π] : Peer.Faithful (Asked.peer : Asked π → π) :=
  ⟨fun _ _ => rfl, fun _ _ => rfl⟩

theorem Asked.honest {π : Type} [Peer π] (hpeer : Peer.Honest π) : Peer.Honest (Asked π) where
  receive room a := hpeer.receive room a.peer
  send bytes a := hpeer.send bytes a.peer

namespace Session

variable {π : Type} [Peer π] {s : Session} {capacity : Nat}

/-- The record of what was asked for changes nothing for the session. -/
theorem answerAll_asked (s : Session) (prompts : List Prompt) (a : Asked π) :
    (s.answerAll prompts a).1 = (s.answerAll prompts a.peer).1 := by
  rw [answerAll_part Asked.faithful]

/-- Nothing is pending exactly when the greeting is out and the outbox is empty, mark and all. -/
theorem Carries.pending_eq_nil_iff {received delivered : Bytes}
    (h : s.Carries capacity received delivered) :
    s.outbox.pending = [] ↔
      s.phase ≠ .greeting ∧ s.outbox.bytes = [] ∧ s.outbox.sent = 0 := by
  constructor
  · intro hpend
    have hbytes : s.outbox.bytes = [] := h.cleared hpend
    have hsent : s.outbox.sent ≤ 0 := by simpa [hbytes] using h.inBounds.1
    exact ⟨fun hg => h.delivered_ne_nil hpend (h.phase_eq_greeting_iff.mp hg), hbytes,
      Nat.le_zero.mp hsent⟩
  · rintro ⟨-, hbytes, -⟩
    rw [Outbox.pending, hbytes, List.drop_nil]

/-! ## When a session asks -/

/-- What a session that is called for a readable peer asks it for, if anything. -/
def asks (s : Session) (capacity chunk : Nat) : List Nat :=
  if s.phase ≠ .greeting ∧ s.outbox.bytes = [] ∧ s.outbox.sent = 0 ∧
      min chunk (max capacity 1) ≠ 0 then
    [min chunk (max capacity 1)]
  else []

/-- How the room of an outbox holds a session back. -/
structure HeldBack (capacity : Nat) (s : Session) (a : Tapped (Asked π)) : Prop where
  /-- What is staged fits, and the mark is within it. -/
  fits : s.outbox.sent ≤ s.outbox.bytes.length ∧ s.outbox.bytes.length ≤ max capacity 1
  /-- The peer is asked once, for all that fits, or not at all. -/
  asked : ∀ chunk, (s.answer (.readable chunk) a).2.2.peer.rooms =
    a.peer.rooms ++ s.asks capacity chunk
  /-- A session that does not ask wants to send, and is left as it is. -/
  waits : ∀ chunk, s.asks capacity chunk = [] → s.answer (.readable chunk) a = (.ok .write, s, a)
  /-- A writable peer is not asked. -/
  unasked : (s.answer .writable a).2.2.peer.rooms = a.peer.rooms
  /-- A receive fails with the failure of the peer and with no other, whatever bytes it brings. -/
  takes : ∀ chunk, (∃ i, (s.answer (.readable chunk) a).1 = .ok i) ∨
    ∃ why, (Peer.receive (s.room chunk) a.peer.peer).1 = .failed why ∧
      (s.answer (.readable chunk) a).1 = .failed why

variable {a : Tapped (Asked π)}

theorem Carries.asks_eq {received delivered : Bytes} (h : s.Carries capacity received delivered)
    (chunk : Nat) : s.asks capacity chunk = if s.room chunk = 0 then [] else [s.room chunk] := by
  rw [h.room_eq, h.capacity_eq, asks]
  by_cases hpend : s.outbox.pending = []
  · obtain ⟨hg, hbytes, hsent⟩ := h.pending_eq_nil_iff.mp hpend
    by_cases hz : min chunk (max capacity 1) = 0
    · rw [if_neg (fun hc => hc.2.2.2 hz), if_pos hpend, if_pos hz]
    · rw [if_pos ⟨hg, hbytes, hsent, hz⟩, if_pos hpend, if_neg hz]
  · rw [if_neg fun hc => hpend (h.pending_eq_nil_iff.mpr ⟨hc.1, hc.2.1, hc.2.2.1⟩),
      if_neg hpend, if_pos rfl]

theorem heldBack_of_carries (hpeer : Peer.Honest π)
    (h : s.Carries capacity a.received a.delivered) : HeldBack capacity s a where
  fits := h.capacity_eq ▸ h.inBounds
  asked chunk := by
    rw [h.asks_eq]
    simp only [answer, onReadable, if_pos h.inBounds]
    cases s.room chunk with
    | zero => exact (List.append_nil _).symm
    | succ room => rfl
  waits chunk hasks := by
    have hz : s.room chunk = 0 := by
      rw [h.asks_eq] at hasks
      split at hasks
      · assumption
      · exact absurd hasks (List.cons_ne_nil _ _)
    simp only [answer, onReadable, if_pos h.inBounds, hz]
  unasked := by
    simp only [answer, onWritable, if_pos h.inBounds]
    split <;> simp [Peer.send]
  takes chunk := by
    simp only [answer, onReadable, if_pos h.inBounds]
    cases hroom : s.room chunk with
    | zero => exact .inl ⟨.write, rfl⟩
    | succ room =>
      have hle := hpeer.receive (s.room chunk) a.peer.peer
      have hanswer := (absorb_carries h (by omega) hle).2
      rw [hroom] at hanswer
      simp only [Peer.receive, hanswer]
      cases (Peer.receive (room + 1) a.peer.peer).1 with
      | blocked => exact .inl ⟨_, rfl⟩
      | failed why => exact .inr ⟨why, rfl, rfl⟩
      | bytes given =>
        cases given with
        | nil => exact .inl ⟨_, rfl⟩
        | cons b rest => exact .inl ⟨_, rfl⟩

/-! ## One filling of the outbox -/

/-- What was staged is all delivered, or is staged still, with the mark where it was or further. -/
def Filling (s : Session) (t : Tapped π) (s' : Session) (t' : Tapped π) : Prop :=
  t.delivered ++ s.outbox.pending <+: t'.delivered ∨
    s'.outbox.bytes = s.outbox.bytes ∧ s.outbox.sent ≤ s'.outbox.sent

variable {t : Tapped π}

/-- What is delivered stays so. -/
theorem delivered_answerAll (s : Session) (prompts : List Prompt) (t : Tapped π) :
    t.delivered <+: (s.answerAll prompts t).2.delivered := by
  induction prompts generalizing s t with
  | nil => exact List.prefix_refl _
  | cons p rest ih =>
    refine List.IsPrefix.trans ?_ (ih _ _)
    cases p with
    | readable chunk =>
      show t.delivered <+: (s.onReadable chunk t).2.2.delivered
      unfold onReadable
      split
      · split <;> simp [Peer.receive]
      · exact List.prefix_refl _
    | writable =>
      show t.delivered <+: (s.onWritable t).2.2.delivered
      unfold onWritable
      split
      · split <;> simp [Peer.send]
      · exact List.prefix_refl _

/-- A send keeps what is staged and moves the mark on, unless it takes all that is pending. -/
theorem settle_filling {outflow : Outflow} (hb : s.outbox.sent ≤ s.outbox.bytes.length)
    (hle : outflow.count ≤ s.outbox.pending.length) :
    (settle outflow s).2.outbox.pending = [] ∨
      (settle outflow s).2.outbox.bytes = s.outbox.bytes ∧
        s.outbox.sent ≤ (settle outflow s).2.outbox.sent := by
  cases outflow with
  | blocked => exact .inr ⟨rfl, Nat.le_refl _⟩
  | failed e => exact .inr ⟨rfl, Nat.le_refl _⟩
  | taken n =>
    have hn : n ≤ s.outbox.pending.length := hle
    rcases Nat.lt_or_eq_of_le hn with hlt | rfl
    · right
      simp only [settle, if_neg (Nat.not_lt.mpr hn), Outbox.advance_part hlt]
      exact ⟨trivial, Nat.le_add_right _ _⟩
    · left
      simp only [settle, if_neg (Nat.lt_irrefl _), Outbox.advance_all hb]
      rfl

/-- While something is pending nothing is received, and the outbox either keeps what is staged and
its mark moves on, or it is emptied with all of it sent. -/
theorem answer_filling (hpeer : Peer.Honest π) (h : s.Carries capacity t.received t.delivered)
    (hpend : s.outbox.pending ≠ []) (p : Prompt) :
    (s.answer p t).2.2.received = t.received ∧
      ((s.answer p t).2.1.outbox.pending = [] ∨
        (s.answer p t).2.1.outbox.bytes = s.outbox.bytes ∧
          s.outbox.sent ≤ (s.answer p t).2.1.outbox.sent) := by
  cases p with
  | readable chunk =>
    have hz : s.room chunk = 0 := by rw [h.room_eq, if_neg hpend]
    simp only [answer, onReadable, if_pos h.inBounds, hz]
    exact ⟨trivial, .inr ⟨trivial, Nat.le_refl _⟩⟩
  | writable =>
    have hle := hpeer.send s.outbox.pending t.peer
    obtain ⟨b, rest, hcons⟩ := List.exists_cons_of_ne_nil hpend
    have hkept := settle_filling h.inBounds.1 hle
    rw [hcons] at hkept
    simp only [answer, onWritable, if_pos h.inBounds, hcons, Peer.send]
    exact ⟨trivial, hkept⟩

/-- The filling of an outbox lasts until all of it is sent, whatever the session is called for. -/
theorem filling_answerAll (hpeer : Peer.Honest π) (prompts : List Prompt)
    (h : s.Carries capacity t.received t.delivered) :
    Filling s t (s.answerAll prompts t).1 (s.answerAll prompts t).2 := by
  induction prompts generalizing s t with
  | nil => exact .inr ⟨rfl, Nat.le_refl _⟩
  | cons p rest ih =>
    by_cases hpend : s.outbox.pending = []
    · left
      rw [hpend, List.append_nil]
      exact delivered_answerAll s (p :: rest) t
    · have h' := answer_carries hpeer h p
      obtain ⟨hreceived, hstep⟩ := answer_filling hpeer h hpend p
      -- As nothing came in, what is delivered and pending together is what it was.
      have hsame := h'.stream
      rw [hreceived, ← h.stream] at hsame
      rcases hstep with hempty | ⟨hbytes, hsent⟩
      · left
        rw [← hsame, hempty, List.append_nil]
        exact delivered_answerAll _ rest _
      · rcases ih h' with hall | ⟨hbytes', hsent'⟩
        · exact .inl (hsame ▸ hall)
        · exact .inr ⟨hbytes'.trans hbytes, Nat.le_trans hsent hsent'⟩

/-- **Backpressure.** A session that has just begun is called for anything, in any order and with
receive buffers of any size, by a peer that keeps within what it is asked and offered. At every
point of this the staged bytes fit; a readable peer is asked only when the greeting is out and the
outbox is empty, mark and all, and then for as much as the buffer and the outbox hold, if that is
anything; no bytes that it gives are too many. From any such point on, the mark does not move back
until all that was staged is delivered. The records that the peer carries do not change the
session. -/
theorem heldBack_of_any_prompts (hpeer : Peer.Honest π) (capacity : Nat)
    (before during : List Prompt) (peer : π) :
    let run := (Session.begin capacity).1.answerAll before (Tapped.mk (Asked.mk peer []) [] [])
    run.1 = ((Session.begin capacity).1.answerAll before peer).1 ∧
      HeldBack capacity run.1 run.2 ∧
      Filling run.1 run.2 (run.1.answerAll during run.2).1 (run.1.answerAll during run.2).2 := by
  have hcarries := answerAll_carries (Asked.honest hpeer) before
    (t := Tapped.mk (Asked.mk peer []) [] []) (begin_carries capacity)
  have hrecord := (answerAll_tapped (Session.begin capacity).1 before
    (Tapped.mk (Asked.mk peer []) [] [])).1
  exact ⟨hrecord.trans (answerAll_asked _ before _), heldBack_of_carries hpeer hcarries,
    filling_answerAll (Asked.honest hpeer) during hcarries⟩

end Session

/-- An outbox of two bytes holds back a buffer of four: two bytes are asked for, and no more until
both of their echoes are sent. -/
theorem Drip.heldBack :
    Peer.Honest Drip ∧
      let run := (Session.begin 2).1.answerAll [.writable, .readable 4, .readable 4, .writable]
        (Tapped.mk (Asked.mk (Drip.mk [94, 97, 98, 99, 36] 1) []) [] [])
      run.2.peer.rooms = [2, 2] ∧ run.1.outbox.bytes.length ≤ 2 ∧
        (run.1.answer (.readable 4) run.2).2.2.peer.rooms = [2, 2] ++ run.1.asks 2 4 ∧
        run.1.asks 2 4 = [2] := by
  have h := Session.heldBack_of_any_prompts Drip.honest 2
    [.writable, .readable 4, .readable 4, .writable] [] (Drip.mk [94, 97, 98, 99, 36] 1)
  refine ⟨Drip.honest, by decide +kernel, h.2.1.fits.2, h.2.1.asked 4, by decide +kernel⟩

end SpanEcho

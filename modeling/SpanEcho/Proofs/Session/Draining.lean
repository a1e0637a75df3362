import SpanEcho.Proofs.Session

/-!
# A session that is heeded drains its peer

A session answers every call with what it wants to be called for next. Whoever heeds that gets
through: the answers alternate between the two directions as the staged bytes and the room for them
demand, and never leave both sides waiting for each other.

The measure is twice what the peer has left to give and what is pending. A send lowers it by what
the peer takes. A receive moves bytes from the one part to the other, and since a byte received
stages one byte at most, what is counted twice before is counted once after.
-/

namespace SpanEcho

/-- Peers that give a byte at least when asked while they have any `left`, in their order, and take
a byte at least when offered some. -/
structure Peer.Eager (π : Type) [Peer π] (left : π → Bytes) : Prop where
  receive : ∀ room (peer : π), room ≠ 0 → left peer ≠ [] → ∃ given : Bytes, given ≠ [] ∧
    given.length ≤ room ∧ (Peer.receive room peer).1 = .bytes given ∧
    left peer = given ++ left (Peer.receive room peer).2
  send : ∀ bytes (peer : π), bytes ≠ [] → ∃ count, 0 < count ∧ count ≤ bytes.length ∧
    (Peer.send bytes peer).1 = .taken count ∧ left (Peer.send bytes peer).2 = left peer

namespace Session

variable {π : Type} [Peer π]

/-- The handler that an interest in one direction names. -/
def promptFor (chunk : Nat) (i : Interest) : Option Prompt :=
  if i = .read then some (.readable chunk)
  else if i = .write then some .writable
  else none

/-- Calls `calls` times the handler that the interest answered last names. There is no result when
a call fails, or answers an interest in both directions or in none before the last call. -/
def heed (chunk : Nat) : Nat → Interest → Session → π → Option (Interest × Session × π)
  | 0, i, s, peer => some (i, s, peer)
  | calls + 1, i, s, peer =>
    match promptFor chunk i with
    | none => none
    | some p =>
      match s.answer p peer with
      | (.ok i, s, peer) => heed chunk calls i s peer
      | _ => none

theorem promptFor_wants (chunk : Nat) (s : Session) :
    promptFor chunk s.wants =
      some (if s.outbox.pending = [] then .readable chunk else .writable) := by
  unfold wants
  split <;> rfl

/-- The record of a tapped peer changes nothing for the session. -/
theorem heed_tapped (chunk calls : Nat) (i : Interest) (s : Session) (t : Tapped π) :
    (heed chunk calls i s t).map (fun r => (r.1, r.2.1, r.2.2.peer)) =
      heed chunk calls i s t.peer := by
  induction calls generalizing i s t with
  | zero => rfl
  | succ calls ih =>
    cases hprompt : promptFor chunk i with
    | none => simp [heed, hprompt]
    | some p =>
      simp only [heed, hprompt, answer_part Tapped.faithful]
      rcases s.answer p t with ⟨_ | _ | _, s', t'⟩
      · exact ih _ s' t'
      · rfl
      · rfl

variable {left : π → Bytes} {s : Session} {capacity chunk : Nat} {t : Tapped π}

/-! ## What is still to do -/

/-- The bytes that have a way to go, those not yet received with two of them. -/
def toDo (left : π → Bytes) (s : Session) (t : Tapped π) : Nat :=
  2 * (left t.peer).length + s.outbox.pending.length

/-- A call brought the exchange forward: the session wants to go on, what was received and what is
left are still the whole input, and there is less to do. -/
structure Advances (left : π → Bytes) (capacity : Nat) (s : Session) (t : Tapped π)
    (r : Outcome Interest × Session × Tapped π) : Prop where
  carries : r.2.1.Carries capacity r.2.2.received r.2.2.delivered
  ok : r.1 = .ok r.2.1.wants
  whole : r.2.2.received ++ left r.2.2.peer = t.received ++ left t.peer
  less : toDo left r.2.1 r.2.2 < toDo left s t

/-- A peer with bytes left is asked when nothing is pending: what it gives is staged once at
most. -/
theorem readable_advances (heager : Peer.Eager π left)
    (h : s.Carries capacity t.received t.delivered) (hchunk : 0 < chunk)
    (hpend : s.outbox.pending = []) (hleft : left t.peer ≠ []) :
    Advances left capacity s t (s.answer (.readable chunk) t) := by
  have hroom : s.room chunk ≠ 0 := by
    have hcap := h.capacity_eq
    rw [h.room_eq, if_pos hpend]
    omega
  obtain ⟨given, hne, hle, hgives, hsplit⟩ := heager.receive (s.room chunk) t.peer hroom hleft
  have hfits : (Inflow.bytes given).received.length ≤ s.room chunk := hle
  obtain ⟨hcarries, hok⟩ := absorb_carries h hroom hfits
  have hanswer : s.answer (.readable chunk) t =
      ((absorb chunk (.bytes given) s).1, (absorb chunk (.bytes given) s).2,
        ⟨(Peer.receive (s.room chunk) t.peer).2, t.received ++ given, t.delivered⟩) := by
    obtain ⟨k, hk⟩ := Nat.exists_eq_succ_of_ne_zero hroom
    rw [hk] at hgives
    simp only [answer, onReadable, if_pos h.inBounds, hk, Peer.receive, hgives, Inflow.received]
  -- The echo of what is given follows that of what was received, and is no longer than it.
  have hstaged : (absorb chunk (.bytes given) s).2.outbox.pending.length ≤ given.length := by
    have hbefore := h.delivered_eq hpend
    have hafter := hcarries.stream
    simp only [Inflow.received, hbefore, Span.echo_append, ← List.cons_append,
      List.append_cancel_left_eq] at hafter
    rw [hafter]
    exact Span.length_feedAll_le _ _
  rw [hanswer]
  refine ⟨hcarries, ?_, ?_, ?_⟩
  · obtain ⟨b, rest, rfl⟩ := List.exists_cons_of_ne_nil hne
    exact hok
  · rw [hsplit, List.append_assoc]
  · have hlen := congrArg List.length hsplit
    have hpos := List.length_pos_iff.mpr hne
    simp only [List.length_append] at hlen
    simp only [toDo, hpend, List.length_nil]
    omega

/-- A peer that is offered the pending bytes takes some of them. -/
theorem writable_advances (heager : Peer.Eager π left)
    (h : s.Carries capacity t.received t.delivered) (hpend : s.outbox.pending ≠ []) :
    Advances left capacity s t (s.answer .writable t) := by
  obtain ⟨count, hpos, hle, htakes, hkeeps⟩ := heager.send s.outbox.pending t.peer hpend
  have hfits : (Outflow.taken count).count ≤ s.outbox.pending.length := hle
  obtain ⟨hcarries, hok⟩ := settle_carries h hpend hfits
  have hanswer : s.answer .writable t =
      ((settle (.taken count) s).1, (settle (.taken count) s).2,
        ⟨(Peer.send s.outbox.pending t.peer).2, t.received,
          t.delivered ++ s.outbox.pending.take count⟩) := by
    obtain ⟨b, rest, hcons⟩ := List.exists_cons_of_ne_nil hpend
    rw [hcons] at htakes
    simp only [answer, onWritable, if_pos h.inBounds, hcons, Peer.send, htakes, Outflow.count]
  have hsent : (settle (.taken count) s).2.outbox.pending.length + count =
      s.outbox.pending.length := by
    have hbefore := congrArg List.length h.stream
    have hafter := congrArg List.length hcarries.stream
    simp only [List.length_append, List.length_take, Outflow.count] at hbefore hafter
    omega
  rw [hanswer]
  refine ⟨hcarries, hok, ?_, ?_⟩
  · rw [hkeeps]
  · simp only [toDo, hkeeps]
    omega

/-- While the peer has bytes left or some are pending, the call the session wants brings the
exchange forward. -/
theorem wanted_advances (heager : Peer.Eager π left)
    (h : s.Carries capacity t.received t.delivered) (hchunk : 0 < chunk)
    (htodo : toDo left s t ≠ 0) :
    ∃ p, promptFor chunk s.wants = some p ∧ Advances left capacity s t (s.answer p t) := by
  by_cases hpend : s.outbox.pending = []
  · have hleft : left t.peer ≠ [] := by
      intro hnil
      simp [toDo, hpend, hnil] at htodo
    exact ⟨.readable chunk, by rw [promptFor_wants, if_pos hpend],
      readable_advances heager h hchunk hpend hleft⟩
  · exact ⟨.writable, by rw [promptFor_wants, if_neg hpend], writable_advances heager h hpend⟩

/-! ## All of it -/

/-- Nothing is left on either side, and the peer has the greeting and the echo of its `input`. -/
structure Drained (left : π → Bytes) (input : Bytes) (s : Session) (t : Tapped π) : Prop where
  received : t.received = input
  left : left t.peer = []
  pending : s.outbox.pending = []
  delivered : t.delivered = Span.greeting :: Span.echo input

omit [Peer π] in
theorem Drained.of_toDo {input : Bytes} (h : s.Carries capacity t.received t.delivered)
    (hwhole : t.received ++ left t.peer = input) (htodo : toDo left s t = 0) :
    Drained left input s t := by
  obtain ⟨hleft, hpend⟩ : left t.peer = [] ∧ s.outbox.pending = [] := by
    simp only [toDo, Nat.add_eq_zero_iff, Nat.mul_eq_zero, List.length_eq_zero_iff] at htodo
    simpa using htodo
  have hall : t.received = input := by rw [← hwhole, hleft, List.append_nil]
  exact ⟨hall, hleft, hpend, hall ▸ h.delivered_eq hpend⟩

/-- As many calls as there is to do are enough. -/
theorem drains (heager : Peer.Eager π left) (hchunk : 0 < chunk) {input : Bytes}
    (h : s.Carries capacity t.received t.delivered)
    (hwhole : t.received ++ left t.peer = input) :
    ∃ calls ≤ toDo left s t, ∃ s' t', heed chunk calls s.wants s t = some (.read, s', t') ∧
      Drained left input s' t' := by
  generalize hbound : toDo left s t = bound
  induction bound using Nat.strongRecOn generalizing s t with
  | ind bound ih =>
    by_cases hz : toDo left s t = 0
    · have hd := Drained.of_toDo h hwhole hz
      have hread : s.wants = .read := by rw [wants, if_pos hd.pending]
      exact ⟨0, Nat.zero_le _, s, t, by rw [hread]; rfl, hd⟩
    · obtain ⟨p, hp, hadv⟩ := wanted_advances heager h hchunk hz
      obtain ⟨calls, hle, s', t', hrun, hd⟩ :=
        ih _ (hbound ▸ hadv.less) hadv.carries (hadv.whole.trans hwhole) rfl
      refine ⟨calls + 1, Nat.succ_le_of_lt (Nat.lt_of_le_of_lt hle (hbound ▸ hadv.less)), s', t',
        ?_, hd⟩
      rcases ha : s.answer p t with ⟨o, s₁, t₁⟩
      have hok := hadv.ok
      rw [ha] at hok hrun
      obtain rfl : o = .ok s₁.wants := hok
      simp only [heed, hp, ha]
      exact hrun

/-- **Progress.** A session has just begun, for a peer that gives and takes a byte at least each
time it is asked or offered. Whoever calls the handler that the last answer names gets, in one call
and two for each byte of the input at most, to where all the input is received, its echo delivered
after the greeting, and the session waits for more. No call on the way fails, and none answers an
interest in both directions or in none. It is the same for the peer without the record. -/
theorem drained_of_eager (heager : Peer.Eager π left) (capacity : Nat) (hchunk : 0 < chunk)
    (peer : π) :
    ∃ calls ≤ 1 + 2 * (left peer).length, ∃ s' t',
      heed chunk calls (Session.begin capacity).2 (Session.begin capacity).1 (Tapped.mk peer [] [])
        = some (.read, s', t') ∧
      heed chunk calls (Session.begin capacity).2 (Session.begin capacity).1 peer
        = some (.read, s', t'.peer) ∧
      Drained left (left peer) s' t' := by
  obtain ⟨calls, hle, s', t', hrun, hd⟩ :=
    drains (t := Tapped.mk peer [] []) heager hchunk (begin_carries capacity) rfl
  have hpend : (Session.begin capacity).1.outbox.pending.length = 1 := rfl
  rw [toDo, hpend, Nat.add_comm] at hle
  have hbare := heed_tapped chunk calls (Session.begin capacity).2 (Session.begin capacity).1
    (Tapped.mk peer [] [])
  rw [begin_interest, hrun] at hbare
  exact ⟨calls, hle, s', t', hrun, hbare.symm, hd⟩

end Session

/-! ## A peer that gives its bytes in pieces -/

/-- A peer whose input is cut into `pieces`. It gives of one piece at a time, and takes at most
`pace` bytes and one. -/
structure Piecemeal where
  pieces : List { piece : Bytes // piece ≠ [] }
  pace : Nat

/-- The bytes in the pieces. -/
def Piecemeal.left (p : Piecemeal) : Bytes :=
  (p.pieces.map Subtype.val).flatten

instance : Peer Piecemeal where
  receive room p :=
    match p.pieces with
    | [] => (.bytes [], p)
    | piece :: rest =>
      if h : piece.val.drop room = [] then (.bytes piece.val, { p with pieces := rest })
      else (.bytes (piece.val.take room), { p with pieces := ⟨piece.val.drop room, h⟩ :: rest })
  send bytes p := (.taken (min (p.pace + 1) bytes.length), p)

theorem Piecemeal.eager : Peer.Eager Piecemeal Piecemeal.left where
  receive room p hroom hleft := by
    obtain ⟨pieces, pace⟩ := p
    cases pieces with
    | nil => exact absurd rfl hleft
    | cons piece rest =>
      by_cases hfits : piece.val.drop room = []
      · have hle : piece.val.length ≤ room := List.drop_eq_nil_iff.mp hfits
        exact ⟨piece.val, piece.property, hle, by simp [Peer.receive, hfits],
          by simp [Peer.receive, hfits, left]⟩
      · refine ⟨piece.val.take room, ?_, List.length_take_le _ _, by simp [Peer.receive, hfits], ?_⟩
        · rw [ne_eq, List.take_eq_nil_iff]
          exact not_or.mpr ⟨hroom, piece.property⟩
        · simp only [Peer.receive, hfits, ↓reduceDIte, left, List.map_cons, List.flatten_cons,
            ← List.append_assoc, List.take_append_drop]
  send bytes p hne := by
    have hpos := List.length_pos_iff.mpr hne
    exact ⟨min (p.pace + 1) bytes.length, by omega, by omega, rfl, rfl⟩

/-- A span in two pieces, through an outbox of two bytes, echoed in three. -/
def Piecemeal.span : Piecemeal where
  pieces := [⟨[94, 97], by decide⟩, ⟨[98, 99, 36], by decide⟩]
  pace := 0

theorem Piecemeal.drained_of_span :
    0 < 4 ∧ ∃ calls ≤ 11, ∃ s' t',
      Session.heed 4 calls (Session.begin 2).2 (Session.begin 2).1 (Tapped.mk span [] [])
        = some (.read, s', t') ∧
      t'.received = [94, 97, 98, 99, 36] ∧ t'.delivered = [42, 98, 99, 100] ∧
      s'.outbox.pending = [] := by
  obtain ⟨calls, hle, s', t', hrun, -, hd⟩ :=
    Session.drained_of_eager eager 2 (show 0 < 4 by decide) span
  exact ⟨by decide, calls, hle, s', t', hrun, hd.received, hd.delivered, hd.pending⟩

end SpanEcho

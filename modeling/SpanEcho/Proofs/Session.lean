import SpanEcho.Proofs.Outbox
import SpanEcho.Proofs.Span
import SpanEcho.Session

/-!
# The stream of a session

A session owes its peer the greeting and then the echo of all it received. What it has delivered
and what is pending always add up to exactly that, whichever handlers are called in whatever order,
however little a send takes or a receive brings. `Carries` ties the session to the two byte strings
that passed over the connection; every handler call keeps it.

The peer is any machine that keeps within what it is asked and offered.
-/

namespace SpanEcho

/-- The bytes that came in. -/
def Inflow.received : Inflow → Bytes
  | .bytes received => received
  | _ => []

/-- How many bytes went out. -/
def Outflow.count : Outflow → Nat
  | .taken count => count
  | _ => 0

/-- Peers that give and take no more than they are asked for and offered. -/
structure Peer.Honest (π : Type) [Peer π] : Prop where
  receive : ∀ room (peer : π), (Peer.receive room peer).1.received.length ≤ room
  send : ∀ bytes (peer : π), (Peer.send bytes peer).1.count ≤ bytes.length

/-- A peer with a record of all that passed over the connection. -/
structure Tapped (π : Type) where
  peer : π
  received : Bytes := []
  delivered : Bytes := []

instance {π : Type} [Peer π] : Peer (Tapped π) where
  receive room t :=
    let (inflow, peer) := Peer.receive room t.peer
    (inflow, { t with peer, received := t.received ++ inflow.received })
  send bytes t :=
    let (outflow, peer) := Peer.send bytes t.peer
    (outflow, { t with peer, delivered := t.delivered ++ bytes.take outflow.count })

/-- A part of a peer that stands for the whole: it answers as the peer does, whatever else the peer
keeps. -/
structure Peer.Faithful {π ρ : Type} [Peer π] [Peer ρ] (part : π → ρ) : Prop where
  receive : ∀ room (peer : π), Peer.receive room (part peer) =
    ((Peer.receive room peer).1, part (Peer.receive room peer).2)
  send : ∀ bytes (peer : π), Peer.send bytes (part peer) =
    ((Peer.send bytes peer).1, part (Peer.send bytes peer).2)

/-- The record of what passed over the connection changes nothing. -/
theorem Tapped.faithful {π : Type} [Peer π] : Peer.Faithful (Tapped.peer : Tapped π → π) :=
  ⟨fun _ _ => rfl, fun _ _ => rfl⟩

namespace Session

/-- What a session should be watched for: it sends first, and receives when nothing is left. -/
def wants (s : Session) : Interest :=
  if s.outbox.pending = [] then .read else .write

theorem wants_isEmpty (s : Session) : s.wants.isEmpty = false := by
  unfold wants
  split <;> rfl

/-- What a handler answers after a receive that left `s`. -/
def afterReceive (s : Session) : Inflow → Outcome Interest
  | .bytes [] => .ok .nothing
  | .failed e => .failed e
  | _ => .ok s.wants

/-- What a handler answers after a send that left `s`. -/
def afterSend (s : Session) : Outflow → Outcome Interest
  | .failed e => .failed e
  | _ => .ok s.wants

/-- A session begun with `capacity` stands where the two byte strings that passed over its
connection put it. -/
structure Carries (s : Session) (capacity : Nat) (received delivered : Bytes) : Prop where
  capacity_eq : s.outbox.capacity = max capacity 1
  inBounds : s.outbox.InBounds
  cleared : s.outbox.pending = [] → s.outbox.bytes = []
  stream : delivered ++ s.outbox.pending = Span.greeting :: Span.echo received
  silent : delivered = [] → received = []
  phase : s.phase = if delivered = [] then .greeting else Span.phaseAfter received
  bytesIn : s.bytesIn = received.length
  bytesOut : s.bytesOut = delivered.length

/-- The session stands where some two byte strings put it. -/
def Carried (s : Session) (capacity : Nat) : Prop :=
  ∃ received delivered, s.Carries capacity received delivered

variable {s : Session} {capacity : Nat} {received delivered : Bytes}

theorem begin_carries (capacity : Nat) : (Session.begin capacity).1.Carries capacity [] [] where
  capacity_eq := rfl
  inBounds := Outbox.greeted_inBounds capacity
  cleared := by simp [Session.begin, Outbox.greeted, Outbox.pending]
  stream := rfl
  silent := fun _ => rfl
  phase := rfl
  bytesIn := rfl
  bytesOut := rfl

theorem begin_interest (capacity : Nat) :
    (Session.begin capacity).2 = (Session.begin capacity).1.wants := rfl

namespace Carries

theorem phase_eq_greeting_iff (h : s.Carries capacity received delivered) :
    s.phase = .greeting ↔ delivered = [] := by
  rw [h.phase]
  by_cases hd : delivered = []
  · simp [hd]
  · simp [hd, Span.phaseAfter_ne_greeting]

/-- The greeting is all that is pending until it is sent. -/
theorem pending_of_greeting (h : s.Carries capacity received delivered) (hp : s.phase = .greeting) :
    s.outbox.pending = [Span.greeting] := by
  have hd := h.phase_eq_greeting_iff.mp hp
  have hs := h.stream
  rw [hd, h.silent hd] at hs
  exact hs

theorem delivered_ne_nil (h : s.Carries capacity received delivered) (hp : s.outbox.pending = []) :
    delivered ≠ [] := by
  intro hd
  have hs := h.stream
  simp [hd, hp] at hs

theorem delivered_eq (h : s.Carries capacity received delivered) (hp : s.outbox.pending = []) :
    delivered = Span.greeting :: Span.echo received := by
  have hs := h.stream
  rwa [hp, List.append_nil] at hs

/-- When nothing is pending there is room for a byte at least, and none is taken. -/
theorem outbox_room (h : s.Carries capacity received delivered) (hp : s.outbox.pending = []) :
    s.outbox.room = s.outbox.capacity := by
  simp [Outbox.room, h.cleared hp]

/-- A session asks for bytes exactly when nothing is pending, and then for as many as fit. -/
theorem room_eq (h : s.Carries capacity received delivered) (chunk : Nat) :
    s.room chunk = if s.outbox.pending = [] then min chunk s.outbox.capacity else 0 := by
  by_cases hp : s.outbox.pending = []
  · have hg : s.phase ≠ .greeting := fun hg =>
      h.delivered_ne_nil hp (h.phase_eq_greeting_iff.mp hg)
    have hn : ¬ s.outbox.hasPending = true := fun hn => s.outbox.hasPending_iff.mp hn hp
    simp [Session.room, hp, hg, hn, h.outbox_room hp]
  · have hn : s.outbox.hasPending = true := s.outbox.hasPending_iff.mpr hp
    simp [Session.room, hp, hn]

theorem pending_of_room (h : s.Carries capacity received delivered) {chunk : Nat}
    (hroom : s.room chunk ≠ 0) : s.outbox.pending = [] := by
  rw [h.room_eq] at hroom
  split at hroom
  · assumption
  · exact absurd rfl hroom

end Carries

/-! ## Receiving -/

/-- A batch whose echo fits is staged as a whole. -/
theorem ingest_of_fits (bs : Bytes) (s : Session)
    (h : s.outbox.bytes.length + (s.phase.feedAll bs).2.length ≤ s.outbox.capacity) :
    ingest bs s = (.ok (!(s.phase.feedAll bs).2.isEmpty),
      { s with
        phase := (s.phase.feedAll bs).1
        outbox := { s.outbox with bytes := s.outbox.bytes ++ (s.phase.feedAll bs).2 } }) := by
  induction bs generalizing s with
  | nil => simp [ingest, Span.Phase.feedAll]
  | cons b rest ih =>
    cases hf : s.phase.feed b with
    | mk p out =>
      simp only [Span.Phase.feedAll, hf, List.length_append] at h
      cases out with
      | none =>
        have hstage : stage b s = (.ok false, { s with phase := p }) := by simp [stage, hf]
        rw [ingest, Action.bind_of_ok hstage, Action.bind_of_ok (ih _ (by simpa using h))]
        simp [Span.Phase.feedAll, hf]
      | some c =>
        have hlt : s.outbox.bytes.length < s.outbox.capacity := by simp at h; omega
        have hstage : stage b s = (.ok true, { s with
            phase := p
            outbox := { s.outbox with bytes := s.outbox.bytes ++ [c] } }) := by
          simp [stage, hf, Outbox.push_of_lt c hlt, Outcome.map]
        rw [ingest, Action.bind_of_ok hstage,
          Action.bind_of_ok (ih _ (by simp at h ⊢; omega))]
        simp [Span.Phase.feedAll, hf]

/-- A batch absorbed by a session with nothing to send. -/
theorem absorb_bytes {chunk : Nat} {bs : Bytes} (hne : bs ≠ []) (hempty : s.outbox.bytes = [])
    (hchunk : bs.length ≤ chunk) (hfits : bs.length ≤ s.outbox.capacity) :
    absorb chunk (.bytes bs) s =
      (.ok (if (s.phase.feedAll bs).2.isEmpty then .read else .write),
        { s with
          phase := (s.phase.feedAll bs).1
          outbox := { s.outbox with bytes := (s.phase.feedAll bs).2 }
          bytesIn := s.bytesIn + bs.length }) := by
  have hout : (s.phase.feedAll bs).2.length ≤ bs.length := Span.length_feedAll_le _ _
  have hing := ingest_of_fits bs { s with bytesIn := s.bytesIn + bs.length }
    (by simp only [hempty, List.length_nil]; omega)
  cases bs with
  | nil => exact absurd rfl hne
  | cons b rest =>
    simp only [absorb, if_neg (Nat.not_lt.mpr hchunk), hing, hempty]
    simp [Outcome.map]

/-- What a receive brings is added to the one string, and its echo is staged. -/
theorem absorb_carries (h : s.Carries capacity received delivered) {chunk : Nat} {inflow : Inflow}
    (hroom : s.room chunk ≠ 0) (hle : inflow.received.length ≤ s.room chunk) :
    (absorb chunk inflow s).2.Carries capacity (received ++ inflow.received) delivered ∧
      (absorb chunk inflow s).1 = (absorb chunk inflow s).2.afterReceive inflow := by
  have hp : s.outbox.pending = [] := h.pending_of_room hroom
  have hd : delivered ≠ [] := h.delivered_ne_nil hp
  have hroom_eq : s.room chunk = min chunk s.outbox.capacity := by rw [h.room_eq, if_pos hp]
  cases inflow with
  | blocked => simpa [absorb, Inflow.received, afterReceive, wants, hp] using h
  | failed e => simpa [absorb, Inflow.received, afterReceive] using h
  | bytes bs =>
    by_cases hne : bs = []
    · subst hne
      simpa [absorb, Inflow.received, afterReceive] using h
    · simp only [Inflow.received] at hle ⊢
      have hphase : s.phase = Span.phaseAfter received := by rw [h.phase, if_neg hd]
      have hempty : s.outbox.bytes = [] := h.cleared hp
      have hout : (s.phase.feedAll bs).2.length ≤ bs.length := Span.length_feedAll_le _ _
      have hsent : s.outbox.sent = 0 := by
        have hb := h.inBounds.1
        rw [hempty] at hb
        exact Nat.le_zero.mp hb
      have hpend : ({ s.outbox with bytes := (s.phase.feedAll bs).2 } : Outbox).pending =
          (s.phase.feedAll bs).2 := by simp [Outbox.pending, hsent]
      rw [absorb_bytes hne hempty (by omega) (by omega)]
      refine ⟨⟨h.capacity_eq, ⟨by simp [hsent], ?_⟩, ?_, ?_, ?_, ?_, ?_, h.bytesOut⟩, ?_⟩
      · show (s.phase.feedAll bs).2.length ≤ s.outbox.capacity
        omega
      · rw [hpend]
        exact fun he => he
      · rw [hpend, hphase, h.delivered_eq hp, Span.echo_append]
        rfl
      · exact fun he => absurd he hd
      · rw [if_neg hd, Span.phaseAfter_append, ← hphase]
      · simp [h.bytesIn]
      · obtain ⟨b, rest, rfl⟩ := List.exists_cons_of_ne_nil hne
        simp only [afterReceive, wants, hpend, List.isEmpty_iff]

/-! ## Sending -/

/-- A part of the pending bytes is sent: what is left stays pending. -/
theorem settle_part (h : s.Carries capacity received delivered) {n : Nat}
    (hn : n < s.outbox.pending.length) :
    (settle (.taken n) s).2.Carries capacity received (delivered ++ s.outbox.pending.take n) ∧
      (settle (.taken n) s).1 = .ok (settle (.taken n) s).2.wants := by
  have hset : settle (.taken n) s = (.ok .write,
      { s with bytesOut := s.bytesOut + n
               outbox := { s.outbox with sent := s.outbox.sent + n } }) := by
    simp [settle, Nat.not_lt.mpr (Nat.le_of_lt hn), Outbox.advance_part hn]
  have hdrop : s.outbox.pending.drop n ≠ [] := by simp; omega
  -- The greeting is one byte, so a part of it is none.
  have hdel : delivered ++ s.outbox.pending.take n = [] ↔ delivered = [] := by
    constructor
    · intro he
      exact (List.append_eq_nil_iff.mp he).1
    · intro he
      have hg := h.pending_of_greeting (h.phase_eq_greeting_iff.mpr he)
      have hz : n = 0 := by rw [hg] at hn; simpa using hn
      simp [he, hz]
  rw [hset]
  refine ⟨⟨h.capacity_eq, ⟨?_, h.inBounds.2⟩, ?_, ?_, ?_, ?_, h.bytesIn, ?_⟩, ?_⟩
  · have hl := s.outbox.length_pending
    simp only at hn ⊢
    omega
  · rw [Outbox.pending_moved]
    exact fun he => absurd he hdrop
  · rw [Outbox.pending_moved, List.append_assoc, List.take_append_drop]
    exact h.stream
  · exact fun he => h.silent (hdel.mp he)
  · simp only [h.phase, hdel]
  · simp only [h.bytesOut, List.length_append, List.length_take]
    omega
  · simp only [wants, Outbox.pending_moved, if_neg hdrop]

/-- All that is pending is sent: the outbox is empty again, and the greeting is out. -/
theorem settle_all (h : s.Carries capacity received delivered) (hpend : s.outbox.pending ≠ [])
    {n : Nat} (hn : n = s.outbox.pending.length) :
    (settle (.taken n) s).2.Carries capacity received (delivered ++ s.outbox.pending.take n) ∧
      (settle (.taken n) s).1 = .ok (settle (.taken n) s).2.wants := by
  have hset : settle (.taken n) s = (.ok .read,
      { s with bytesOut := s.bytesOut + n
               outbox := { s.outbox with bytes := [], sent := 0 }
               phase := s.phase.acknowledge }) := by
    simp [settle, hn, Outbox.advance_all h.inBounds.1]
  have hempty : ({ s.outbox with bytes := [], sent := 0 } : Outbox).pending = [] := rfl
  have htake : s.outbox.pending.take n = s.outbox.pending := by rw [hn, List.take_length]
  have hne : delivered ++ s.outbox.pending ≠ [] := by simp [hpend]
  rw [hset, htake]
  refine ⟨⟨h.capacity_eq, ⟨Nat.le_refl 0, Nat.zero_le _⟩, fun _ => rfl, ?_, ?_, ?_,
    h.bytesIn, ?_⟩, ?_⟩
  · rw [hempty, List.append_nil]
    exact h.stream
  · exact fun he => absurd he hne
  · by_cases hd : delivered = []
    · simp [h.phase, hd, hpend, h.silent hd, Span.Phase.acknowledge, Span.phaseAfter_nil]
    · simp [h.phase, hd, Span.acknowledge_phaseAfter]
  · simp [h.bytesOut, hn]
  · simp [wants, hempty]

/-- What a send takes moves from the pending bytes to the delivered ones. -/
theorem settle_carries (h : s.Carries capacity received delivered) {outflow : Outflow}
    (hpend : s.outbox.pending ≠ []) (hle : outflow.count ≤ s.outbox.pending.length) :
    (settle outflow s).2.Carries capacity received
    (delivered ++ s.outbox.pending.take outflow.count) ∧
      (settle outflow s).1 = (settle outflow s).2.afterSend outflow := by
  cases outflow with
  | blocked => simpa [settle, Outflow.count, afterSend, wants, hpend] using h
  | failed e => simpa [settle, Outflow.count, afterSend] using h
  | taken n =>
    rcases Nat.lt_or_eq_of_le hle with hn | hn
    · exact settle_part h hn
    · exact settle_all h hpend hn

/-! ## Handlers in any order -/

variable {π : Type} [Peer π]

/-- What a session is called for: its peer is readable, with a receive buffer of `chunk` bytes, or
writable. -/
inductive Prompt where
  | readable (chunk : Nat)
  | writable
deriving DecidableEq, Repr

/-- Calls the handler. -/
def answer (s : Session) (p : Prompt) (peer : π) : Outcome Interest × Session × π :=
  match p with
  | .readable chunk => s.onReadable chunk peer
  | .writable => s.onWritable peer

/-- Calls the handlers one after the other, whatever they answer. -/
def answerAll (s : Session) : List Prompt → π → Session × π
  | [], peer => (s, peer)
  | p :: rest, peer =>
    let (_, s, peer) := s.answer p peer
    s.answerAll rest peer

theorem answer_carries (hpeer : Peer.Honest π) {t : Tapped π}
    (h : s.Carries capacity t.received t.delivered) (p : Prompt) :
    (s.answer p t).2.1.Carries capacity (s.answer p t).2.2.received
    (s.answer p t).2.2.delivered := by
  cases p with
  | readable chunk =>
    simp only [answer, onReadable, if_pos h.inBounds]
    cases hroom : s.room chunk with
    | zero => exact h
    | succ k =>
      have hle := hpeer.receive (k + 1) t.peer
      rw [← hroom] at hle
      have hc := (absorb_carries h (by omega) hle).1
      rw [hroom] at hc
      exact hc
  | writable =>
    simp only [answer, onWritable, if_pos h.inBounds]
    cases hpend : s.outbox.pending with
    | nil => exact h
    | cons b rest =>
      have hle := hpeer.send (b :: rest) t.peer
      rw [← hpend] at hle
      have hc := (settle_carries h (by simp [hpend]) hle).1
      rw [hpend] at hc
      exact hc

theorem answerAll_carries (hpeer : Peer.Honest π) (prompts : List Prompt) {t : Tapped π}
    (h : s.Carries capacity t.received t.delivered) :
    (s.answerAll prompts t).1.Carries capacity (s.answerAll prompts t).2.received
      (s.answerAll prompts t).2.delivered := by
  induction prompts generalizing s t with
  | nil => exact h
  | cons p rest ih => exact ih (answer_carries hpeer h p)

/-- A session answers to a part that stands for the whole peer as it does to the peer. -/
theorem answer_part {ρ : Type} [Peer ρ] {part : π → ρ} (h : Peer.Faithful part) (s : Session)
    (p : Prompt) (peer : π) : s.answer p (part peer) =
      ((s.answer p peer).1, (s.answer p peer).2.1, part (s.answer p peer).2.2) := by
  cases p with
  | readable chunk =>
    simp only [answer, onReadable]
    split
    · split
      · rfl
      · rw [h.receive]
    · rfl
  | writable =>
    simp only [answer, onWritable]
    split
    · split
      · rfl
      · rw [h.send]
    · rfl

theorem answerAll_part {ρ : Type} [Peer ρ] {part : π → ρ} (h : Peer.Faithful part) (s : Session)
    (prompts : List Prompt) (peer : π) : s.answerAll prompts (part peer) =
      ((s.answerAll prompts peer).1, part (s.answerAll prompts peer).2) := by
  induction prompts generalizing s peer with
  | nil => rfl
  | cons p rest ih => simp only [answerAll, answer_part h, ih]

/-- The record of a tapped peer changes nothing for the session. -/
theorem answerAll_tapped (s : Session) (prompts : List Prompt) (t : Tapped π) :
    (s.answerAll prompts t).1 = (s.answerAll prompts t.peer).1 ∧
      (s.answerAll prompts t).2.peer = (s.answerAll prompts t.peer).2 := by
  rw [answerAll_part Tapped.faithful]
  exact ⟨rfl, rfl⟩

/-- **The stream equation.** A session that has just begun is called for anything, in any order, by
a peer that keeps within what it is asked and offered. Then what was delivered and what is pending
are the greeting and the echo of what was received; the byte counters are the two lengths; the
session waits with its greeting exactly while nothing was delivered, and is within a span exactly
when what it received since the last closing mark has an opening one. The record that the peer
carries does not change the session. -/
theorem stream_of_any_prompts (hpeer : Peer.Honest π) (capacity : Nat) (prompts : List Prompt)
    (peer : π) :
    let run := (Session.begin capacity).1.answerAll prompts (Tapped.mk peer [] [])
    run.1 = ((Session.begin capacity).1.answerAll prompts peer).1 ∧
      run.2.delivered ++ run.1.outbox.pending = Span.greeting :: Span.echo run.2.received ∧
      run.1.bytesIn = run.2.received.length ∧ run.1.bytesOut = run.2.delivered.length ∧
      (run.1.phase = .greeting ↔ run.2.delivered = []) ∧
      (run.2.delivered ≠ [] →
        (run.1.phase = .inside ↔ Span.opening ∈ Span.lastPiece run.2.received)) := by
  have h := answerAll_carries hpeer prompts (t := Tapped.mk peer [] []) (begin_carries capacity)
  have ht := answerAll_tapped (Session.begin capacity).1 prompts (Tapped.mk peer [] [])
  refine ⟨ht.1, h.stream, h.bytesIn, h.bytesOut, h.phase_eq_greeting_iff, ?_⟩
  intro hd
  rw [h.phase, if_neg hd, Span.phaseAfter]
  split <;> simp [*]

end Session

/-- A peer that gives its bytes in order, and gives and takes at most `pace` at a time. -/
structure Drip where
  left : Bytes
  pace : Nat

instance : Peer Drip where
  receive room p := (.bytes (p.left.take (min room p.pace)),
    { p with left := p.left.drop (min room p.pace) })
  send bytes p := (.taken (min p.pace bytes.length), p)

theorem Drip.honest : Peer.Honest Drip where
  receive room p := by
    simp only [Peer.receive, Inflow.received, List.length_take]
    omega
  send bytes p := by
    simp only [Peer.send, Outflow.count]
    omega

/-- A span in drips of two, received byte by byte for want of room. -/
def Drip.run : Session × Tapped Drip :=
  (Session.begin 0).1.answerAll
    [.readable 4, .writable, .readable 4, .readable 4, .writable, .readable 4]
    (Tapped.mk (Drip.mk [94, 97, 98, 36] 2) [] [])

theorem stream_of_drips :
    Peer.Honest Drip ∧ Drip.run.2.received = [94, 97, 98] ∧ Drip.run.2.delivered = [42, 98] ∧
      Drip.run.1.outbox.pending = [99] ∧
      Drip.run.2.delivered ++ Drip.run.1.outbox.pending =
        Span.greeting :: Span.echo Drip.run.2.received := by
  refine ⟨Drip.honest, by decide +kernel, by decide +kernel, by decide +kernel, ?_⟩
  rw [Drip.run]
  exact (Session.stream_of_any_prompts Drip.honest 0 _ _).2.1

end SpanEcho

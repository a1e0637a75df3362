import SpanEcho.Proofs.Session.Batches

/-!
# Calls that move no byte

A handler is called for nothing when the session has nothing to ask or to offer, and when the peer
blocks, fails, is at its end or takes nothing. Such a call leaves the session as it was: the phase,
the outbox with its mark, and both counters. So it cannot be noticed later. In a run of calls into
which others were added, all of which move nothing, each of the run's own calls asks its peer for
the same and answers the same as if it had been the only ones, and leaves the same session.

Every call of a run comes with its peer as the peer stands then, so that what one call does to a
peer and what another finds are independent of each other.
-/

namespace SpanEcho

/-- What a handler can want of a peer. -/
inductive Peer.Request where
  | receive (room : Nat)
  | send (bytes : Bytes)
deriving DecidableEq

/-- A peer with a record of what was wanted of it. -/
structure Noting (π : Type) where
  peer : π
  requests : List Peer.Request := []
deriving DecidableEq

instance {π : Type} [Peer π] : Peer (Noting π) where
  receive room t :=
    let (inflow, peer) := Peer.receive room t.peer
    (inflow, { peer, requests := t.requests ++ [.receive room] })
  send bytes t :=
    let (outflow, peer) := Peer.send bytes t.peer
    (outflow, { peer, requests := t.requests ++ [.send bytes] })

theorem Noting.faithful {π : Type} [Peer π] : Peer.Faithful (Noting.peer : Noting π → π) :=
  ⟨fun _ _ => rfl, fun _ _ => rfl⟩

namespace Session

variable {π : Type} [Peer π] {s : Session} {capacity : Nat} {peer : π}

/-- The call moves no byte, in neither direction. -/
def Idle (s : Session) (p : Prompt) (peer : π) : Prop :=
  let tapped := (s.answer p (Tapped.mk peer [] [])).2.2
  tapped.received = [] ∧ tapped.delivered = []

instance (s : Session) (p : Prompt) (peer : π) : Decidable (s.Idle p peer) :=
  inferInstanceAs (Decidable (_ ∧ _))

/-! ## Which calls these are -/

theorem room_eq_zero_iff (s : Session) (chunk : Nat) : s.room chunk = 0 ↔
    s.phase = .greeting ∨ s.outbox.pending ≠ [] ∨ min chunk s.outbox.room = 0 := by
  rw [room, ← Outbox.hasPending_iff]
  by_cases hfirst : s.phase = .greeting ∨ s.outbox.hasPending = true
  · rw [if_pos hfirst]
    exact ⟨fun _ => hfirst.imp_right .inl, fun _ => rfl⟩
  · rw [if_neg hfirst]
    exact ⟨fun hzero => .inr (.inr hzero), fun h => (or_assoc.mpr h).resolve_left hfirst⟩

/-- A readable peer is not asked, or gives nothing. -/
theorem idle_readable_iff_room (hb : s.outbox.InBounds) (chunk : Nat) (peer : π) :
    s.Idle (.readable chunk) peer ↔
      s.room chunk = 0 ∨ (Peer.receive (s.room chunk) peer).1.received = [] := by
  simp only [Idle, answer, onReadable, if_pos hb]
  cases s.room chunk with
  | zero => simp
  | succ room => simp [Peer.receive]

theorem idle_readable_iff (hb : s.outbox.InBounds) (chunk : Nat) (peer : π) :
    s.Idle (.readable chunk) peer ↔
      s.phase = .greeting ∨ s.outbox.pending ≠ [] ∨ min chunk s.outbox.room = 0 ∨
        (Peer.receive (min chunk s.outbox.room) peer).1.received = [] := by
  rw [idle_readable_iff_room hb]
  by_cases hfirst : s.phase = .greeting ∨ s.outbox.pending ≠ []
  · have hzero : s.room chunk = 0 := (s.room_eq_zero_iff chunk).mpr (or_assoc.mp (.inl hfirst))
    exact ⟨fun _ => or_assoc.mp (.inl hfirst), fun _ => .inl hzero⟩
  · have hroom : s.room chunk = min chunk s.outbox.room := by
      rw [← Outbox.hasPending_iff] at hfirst
      rw [room, if_neg hfirst]
    rw [hroom, ← or_assoc]
    exact ⟨.inr, fun h => h.resolve_left hfirst⟩

/-- A writable peer is offered nothing, or takes nothing. -/
theorem idle_writable_iff (hb : s.outbox.InBounds) (peer : π) :
    s.Idle .writable peer ↔
      s.outbox.pending = [] ∨ (Peer.send s.outbox.pending peer).1.count = 0 := by
  simp only [Idle, answer, onWritable, if_pos hb]
  cases s.outbox.pending with
  | nil => simp
  | cons b rest => simp [Peer.send]

/-! ## What they leave -/

theorem absorb_of_nothing {inflow : Inflow} (h : inflow.received = []) (chunk : Nat) :
    (absorb chunk inflow s).2 = s := by
  cases inflow with
  | blocked => rfl
  | failed e => rfl
  | bytes received =>
    obtain rfl : received = [] := h
    rfl

theorem settle_of_nothing {outflow : Outflow} (h : outflow.count = 0)
    (hpending : s.outbox.pending ≠ []) : (settle outflow s).2 = s := by
  cases outflow with
  | blocked => rfl
  | failed e => rfl
  | taken count =>
    obtain rfl : count = 0 := h
    have hadvance := Outbox.advance_part (List.length_pos_iff.mpr hpending)
    simp only [settle, if_neg (Nat.not_lt_zero _), hadvance, Nat.add_zero]

/-- **A call that moves no byte leaves the session as it was.** -/
theorem answer_of_idle (hb : s.outbox.InBounds) {p : Prompt} (h : s.Idle p peer) :
    (s.answer p peer).2.1 = s := by
  cases p with
  | readable chunk =>
    rw [idle_readable_iff_room hb] at h
    simp only [answer, onReadable, if_pos hb]
    cases hroom : s.room chunk with
    | zero => rfl
    | succ room =>
      rw [hroom] at h
      exact absorb_of_nothing (h.resolve_left (Nat.succ_ne_zero room)) chunk
  | writable =>
    rw [idle_writable_iff hb] at h
    simp only [answer, onWritable, if_pos hb]
    cases hpending : s.outbox.pending with
    | nil => rfl
    | cons b rest =>
      rw [hpending] at h
      exact settle_of_nothing (h.resolve_left (List.cons_ne_nil b rest)) (by simp [hpending])

/-! ## Runs with calls added -/

/-- A call in a run: what for, and its peer as it stands then. It may be one that was added to the
run. -/
structure Encounter (π : Type) where
  prompt : Prompt
  peer : π
  added : Bool := false
deriving DecidableEq

/-- Calls the handler. -/
def meet (s : Session) (e : Encounter π) : Session :=
  (s.answer e.prompt e.peer).2.1

def meetAll (s : Session) (run : List (Encounter π)) : Session :=
  run.foldl meet s

/-- What comes of a run's own calls, in order: what each answers, the session it leaves, and the
peer it leaves with what was wanted of it. -/
def replies (s : Session) : List (Encounter π) → List (Outcome Interest × Session × Noting π)
  | [] => []
  | e :: rest =>
    if e.added then replies (s.meet e) rest
    else s.answer e.prompt (Noting.mk e.peer []) :: replies (s.meet e) rest

/-- The run without the calls that were added. -/
def own (run : List (Encounter π)) : List (Encounter π) :=
  run.filter fun e => !e.added

/-- Each of the calls that were added moves no byte when its turn comes. -/
def AddedIdle (s : Session) : List (Encounter π) → Prop
  | [] => True
  | e :: rest => (e.added = true → s.Idle e.prompt e.peer) ∧ AddedIdle (s.meet e) rest

instance decidableAddedIdle :
    (s : Session) → (run : List (Encounter π)) → Decidable (s.AddedIdle run)
  | _, [] => inferInstanceAs (Decidable True)
  | s, e :: rest =>
    have := decidableAddedIdle (s.meet e) rest
    inferInstanceAs (Decidable ((_ → _) ∧ _))

/-- A run is as its own calls alone would make it. -/
theorem run_eq_own (hb : s.Bounded capacity) {run : List (Encounter π)} (h : s.AddedIdle run) :
    s.replies run = s.replies (own run) ∧ s.meetAll run = s.meetAll (own run) := by
  induction run generalizing s with
  | nil => exact ⟨rfl, rfl⟩
  | cons e rest ih =>
    obtain ⟨hidle, hrest⟩ := h
    have hmet : (s.meet e).Bounded capacity := hb.answer e.prompt e.peer
    obtain ⟨hreplies, hlast⟩ := ih hmet hrest
    cases hadded : e.added with
    | true =>
      -- The rest of the run starts where it would start without the call.
      have hsame : s.meet e = s := answer_of_idle hb.2 (hidle hadded)
      have hown : own (e :: rest) = own rest := by simp [own, hadded]
      rw [hsame] at hreplies hlast
      rw [hown, replies, if_pos hadded, meetAll, List.foldl_cons, hsame]
      exact ⟨hreplies, hlast⟩
    | false =>
      have hown : own (e :: rest) = e :: own rest := by simp [own, hadded]
      have hnot : ¬ e.added = true := by simp [hadded]
      rw [hown, replies, replies, if_neg hnot, if_neg hnot, hreplies]
      exact ⟨rfl, hlast⟩

/-- **Calls that move no byte are not noticed.** Take a session that handler calls have led to, and
peers of any kind. A call in which nothing passes over the connection leaves the session as it was.
Nothing passes when a readable peer is not asked, because the greeting waits, something is pending
or there is no room for a byte; when it is asked and gives nothing, be it blocked, failed or at its
end; when a writable peer has nothing to be offered, or takes nothing. In a run of calls to which
such calls were added, its own calls want the same of their peers, answer the same and leave the
same, and so does the run. What a peer notes changes nothing. -/
theorem unseen_of_idle (h : Reached capacity s) (π : Type) [Peer π] :
    (∀ p (peer : π), s.Idle p peer → (s.answer p peer).2.1 = s) ∧
      (∀ chunk (peer : π), s.Idle (.readable chunk) peer ↔
        s.phase = .greeting ∨ s.outbox.pending ≠ [] ∨ min chunk s.outbox.room = 0 ∨
          (Peer.receive (min chunk s.outbox.room) peer).1.received = []) ∧
      (∀ peer : π, s.Idle .writable peer ↔
        s.outbox.pending = [] ∨ (Peer.send s.outbox.pending peer).1.count = 0) ∧
      (∀ p (peer : π), s.answer p peer =
        ((s.answer p (Noting.mk peer [])).1, (s.answer p (Noting.mk peer [])).2.1,
          (s.answer p (Noting.mk peer [])).2.2.peer)) ∧
      ∀ run : List (Encounter π), s.AddedIdle run →
        s.replies run = s.replies (own run) ∧ s.meetAll run = s.meetAll (own run) := by
  have hb := h.bounded
  exact ⟨fun p peer => answer_of_idle hb.2, idle_readable_iff hb.2, idle_writable_iff hb.2,
    fun p peer => answer_part Noting.faithful s p (Noting.mk peer []), fun run => run_eq_own hb⟩

end Session

/-- A peer with one answer to whatever it is asked and one to whatever it is offered. -/
structure Rigid where
  inflow : Inflow := .blocked
  outflow : Outflow := .blocked
deriving DecidableEq

instance : Peer Rigid where
  receive _ peer := (peer.inflow, peer)
  send _ peer := (peer.outflow, peer)

/-- A span of two bytes, its echo sent in two parts, and a call of each kind that moves nothing. -/
def Rigid.run : List (Session.Encounter Rigid) :=
  [{ prompt := .readable 8, peer := { inflow := .bytes [36] }, added := true },
    { prompt := .writable, peer := { outflow := .taken 1 } },
    { prompt := .writable, peer := { outflow := .taken 1 }, added := true },
    { prompt := .readable 8, peer := {}, added := true },
    { prompt := .readable 8, peer := { inflow := .failed (.system "recv" 104) }, added := true },
    { prompt := .readable 8, peer := { inflow := .bytes [] }, added := true },
    { prompt := .readable 0, peer := { inflow := .bytes [36] }, added := true },
    { prompt := .readable 8, peer := { inflow := .bytes [94, 97, 98] } },
    { prompt := .writable, peer := { outflow := .failed (.system "send" 32) }, added := true },
    { prompt := .writable, peer := { outflow := .taken 1 } },
    { prompt := .writable, peer := { outflow := .taken 0 }, added := true },
    { prompt := .readable 8, peer := { inflow := .bytes [36] }, added := true },
    { prompt := .writable, peer := {}, added := true },
    { prompt := .writable, peer := { outflow := .taken 1 } }]

theorem Rigid.unseen_of_run :
    Session.Reached 4 (Session.begin 4).1 ∧ (Session.begin 4).1.AddedIdle run ∧
      ((Session.begin 4).1.replies run).map (·.1) =
        [.ok .read, .ok .write, .ok .write, .ok .read] ∧
      ((Session.begin 4).1.replies run).map (·.2.2.requests) =
        [[.send [42]], [.receive 4], [.send [98, 99]], [.send [99]]] ∧
      (Session.begin 4).1.replies run = (Session.begin 4).1.replies (Session.own run) ∧
      (Session.begin 4).1.meetAll run = (Session.begin 4).1.meetAll (Session.own run) := by
  have hidle : (Session.begin 4).1.AddedIdle run := by decide +kernel
  exact ⟨.begun, hidle, by decide +kernel, by decide +kernel,
    (Session.unseen_of_idle .begun Rigid).2.2.2.2 run hidle⟩

end SpanEcho

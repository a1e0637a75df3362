import SpanEcho.Proofs.Reactor.Sound

/-!
# One call of a handler

A handler that has something to do makes one call on its socket. What that call moved is in the
session afterwards, in the ledger, and in what the handler answered. Nothing else changes.
-/

namespace SpanEcho

/-! ## Sockets as peers -/

section

variable {thread : Thread} {fd : Descriptor} {arrivals : List Arrival} {operation : String}

theorem Inflow.received_ofResult {room : Nat} (reply : Answer Bytes) :
    (Inflow.ofResult (reply.result operation)).received =
      Event.received fd ⟨thread, .receive fd room, reply, arrivals⟩ := by
  cases reply with
  | ok bytes => exact (if_pos rfl).symm
  | notOpen => rfl
  | failed errno =>
    simp only [Answer.result]
    split <;> rfl

theorem Inflow.ofResult_eq_nil {room : Nat} (reply : Answer Bytes) :
    Inflow.ofResult (reply.result operation) = .bytes [] ↔
      Event.ends fd ⟨thread, .receive fd room, reply, arrivals⟩ = true := by
  cases reply with
  | ok bytes => simp [Answer.result, Inflow.ofResult, Event.ends]
  | notOpen => simp [Answer.result, Inflow.ofResult, Event.ends]
  | failed errno =>
    simp only [Answer.result]
    split <;> simp [Inflow.ofResult, Event.ends]

theorem Inflow.length_received {room : Nat} {reply : Answer Bytes}
    (h : Event.Honest ⟨thread, .receive fd room, reply, arrivals⟩) :
    (Inflow.ofResult (reply.result operation)).received.length ≤ room := by
  cases reply with
  | ok bytes => exact h
  | notOpen => exact Nat.zero_le _
  | failed errno =>
    simp only [Answer.result]
    split <;> exact Nat.zero_le _

theorem Outflow.delivered_ofResult {bytes : Bytes} {flags : Nat} (reply : Answer Nat) :
    bytes.take (Outflow.ofResult (reply.result operation)).count =
      Event.delivered fd ⟨thread, .send fd bytes flags, reply, arrivals⟩ := by
  cases reply with
  | ok count => exact (if_pos rfl).symm
  | notOpen => rfl
  | failed errno =>
    simp only [Answer.result]
    split <;> rfl

theorem Outflow.count_ofResult {bytes : Bytes} {flags : Nat} {reply : Answer Nat}
    (h : Event.Honest ⟨thread, .send fd bytes flags, reply, arrivals⟩) :
    (Outflow.ofResult (reply.result operation)).count ≤ bytes.length := by
  cases reply with
  | ok count => exact h
  | notOpen => exact Nat.zero_le _
  | failed errno =>
    simp only [Answer.result]
    split <;> exact Nat.zero_le _

end

namespace Reactor

open SpanEcho.Action Scene Loop

/-- The calls that the handler of a connection makes, one at most. -/
def handlerCalls (chunk : Nat) (entry : Entry Descriptor) : Direction → List Call
  | .receive =>
    let room := entry.session.room chunk
    if room = 0 then [] else [.receive entry.socket room]
  | .send =>
    let pending := entry.session.outbox.pending
    if pending = [] then [] else [.send entry.socket pending Socket.noSignal]

theorem length_handlerCalls_le (chunk : Nat) (entry : Entry Descriptor) (d : Direction) :
    (handlerCalls chunk entry d).length ≤ 1 := by
  cases d <;> simp only [handlerCalls] <;> split <;> simp

/-- The reactor with the connection of a ticket changed. -/
def refile (r : Reactor) (t : Ticket) (f : Entry Descriptor → Entry Descriptor) : Reactor :=
  { r with registry := r.registry.modify t f }

/-- What a handler may answer that leaves `session` when `traffic` has passed, after it made the
calls `calls`. -/
def Answers (session : Session) (traffic : Traffic) (calls : List Call) : Outcome Interest → Prop
  | .ok i =>
    i = .nothing ∨ i.isEmpty = false ∧ traffic.ended = false ∧ (calls ≠ [] → i = session.wants)
  | .failed _ => True
  | .defect _ => False

/-- The connection after its handler was called. -/
structure Exchanged (r : Reactor) (others : List Descriptor) (traffic : Descriptor → Traffic)
    (past : List Event) (t : Ticket) (entry : Entry Descriptor) (calls : List Call)
    (session : Session) (now : Traffic) (moved : List Event) : Prop where
  calls : moved.map (·.call) = calls
  ledger : Ledger (r.held ++ others) (Ledger.booked traffic t.fd now) (moved ++ past)
  carries : session.Carries r.settings.sendCapacity now.received now.delivered
  bytesIn : entry.session.bytesIn ≤ session.bytesIn
  bytesOut : entry.session.bytesOut ≤ session.bytesOut

variable {κ : Type} [Kernel κ] {r : Reactor} {others : List Descriptor}
  {traffic : Descriptor → Traffic} {past : List Event} {t : Ticket} {entry : Entry Descriptor}

/-- A handler with nothing to do. -/
theorem exchanged_nothing (hl : Ledger (r.held ++ others) traffic past) (ha : r.Accounts traffic)
    (hg : r.registry.get? t = some entry) :
    Exchanged r others traffic past t entry [] entry.session (traffic t.fd) [] where
  calls := rfl
  ledger := hl.congr fun x _ => by
    by_cases hx : x = t.fd
    · rw [hx, Ledger.booked_self]
    · rw [Ledger.booked_of_ne hx]
  carries := ha.session t.fd entry (Registry.entryAt_of_get? hg)
  bytesIn := Nat.le_refl _
  bytesOut := Nat.le_refl _

/-- A handler with one call, about the connection's own descriptor. -/
theorem exchanged_call (hl : Ledger (r.held ++ others) traffic past)
    (hfd : t.fd ∈ r.held ++ others) {e : Event} (hnames : e.call.names = [t.fd])
    (ho : e.opened? = none) (hc : e.closed? = none) {session : Session}
    (htruth : (trafficOn t.fd (e :: past)).Truthful)
    (hcarries : session.Carries r.settings.sendCapacity (trafficOn t.fd (e :: past)).received
      (trafficOn t.fd (e :: past)).delivered)
    (hin : entry.session.bytesIn ≤ session.bytesIn)
    (hout : entry.session.bytesOut ≤ session.bytesOut) :
    Exchanged r others traffic past t entry [e.call] session (trafficOn t.fd (e :: past)) [e] where
  calls := rfl
  ledger := by
    have hopens : (openAfter (e :: past)).Perm (r.held ++ others) := by
      rw [openAfter_of_idle ho hc]
      exact hl.opens
    have hheld : ∀ x ∈ e.call.names, x ∈ r.held ++ others := by simpa [hnames] using hfd
    refine hl.book hopens hheld (fun x hx => .inr hx) (fun x hx => ?_) htruth
    exact Event.still_of_names (by simpa [hnames] using hx) (by simp [ho])
  carries := hcarries
  bytesIn := hin
  bytesOut := hout

/-- What a handler answers when a call went well and did not find the end of the stream. -/
theorem answers_wants {session : Session} {now : Traffic} {calls : List Call}
    (h : now.ended = false) : Answers session now calls (.ok session.wants) :=
  .inr ⟨session.wants_isEmpty, h, fun _ => rfl⟩

/-- A receive. -/
theorem exchanged_receive (hl : Ledger (r.held ++ others) traffic past) (ha : r.Accounts traffic)
    (hg : r.registry.get? t = some entry) {chunk : Nat} (hroom : entry.session.room chunk ≠ 0)
    {thread : Thread} {reply : Answer Bytes} {arrivals : List Arrival}
    (hlaw : Lawful (⟨thread, .receive t.fd (entry.session.room chunk), reply, arrivals⟩ :: past)) :
    let e : Event := ⟨thread, .receive t.fd (entry.session.room chunk), reply, arrivals⟩
    let result := Session.absorb chunk (Inflow.ofResult (reply.result "recv")) entry.session
    Exchanged r others traffic past t entry [e.call] result.2 (trafficOn t.fd (e :: past)) [e] ∧
      Answers result.2 (trafficOn t.fd (e :: past)) [e.call] result.1 := by
  intro e result
  have hentry := Registry.entryAt_of_get? hg
  have hfd : t.fd ∈ r.held ++ others := List.mem_append_left _ (ha.filed.mem_held hentry)
  have hcarries := ha.session t.fd entry hentry
  have hnow : trafficOn t.fd (e :: past) =
      { received := (traffic t.fd).received ++ (Inflow.ofResult (reply.result "recv")).received
        delivered := (traffic t.fd).delivered
        asked := true
        ended := e.ends t.fd } := by
    have hreceived : (Inflow.ofResult (reply.result "recv")).received = e.received t.fd :=
      Inflow.received_ofResult reply
    rw [hreceived]
    simp [trafficOn, e, Event.opened?, Event.delivered, Event.asks, hl.traffic t.fd hfd,
      ha.running t.fd entry hentry]
  obtain ⟨hnew, hanswer⟩ := Session.absorb_carries hcarries hroom (Inflow.length_received hlaw.2.1)
  have hended : e.ends t.fd = true ↔ Inflow.ofResult (reply.result "recv") = .bytes [] :=
    (Inflow.ofResult_eq_nil reply).symm
  have htruth : (trafficOn t.fd (e :: past)).Truthful := by
    rw [hnow]
    have hpending := hcarries.pending_of_room hroom
    refine ⟨⟨_, hnew.stream⟩, fun _ => hcarries.delivered_ne_nil hpending, fun he => ?_⟩
    rw [hended.mp he]
    simpa [Inflow.received] using hcarries.delivered_eq hpending
  have hin : entry.session.bytesIn ≤ result.2.bytesIn := by
    rw [hnew.bytesIn, hcarries.bytesIn, List.length_append]
    exact Nat.le_add_right _ _
  have hout : entry.session.bytesOut ≤ result.2.bytesOut :=
    Nat.le_of_eq (hcarries.bytesOut.trans hnew.bytesOut.symm)
  constructor
  · exact exchanged_call hl hfd rfl rfl rfl htruth (by rw [hnow]; exact hnew) hin hout
  · rw [hnow]
    rw [hanswer]
    change Answers result.2 _ _ (result.2.afterReceive _)
    generalize result.2 = session
    generalize Inflow.ofResult (reply.result "recv") = inflow at hended
    cases inflow with
    | blocked => exact answers_wants (by simpa using hended)
    | failed e => exact trivial
    | bytes bs =>
      cases bs with
      | nil => exact .inl rfl
      | cons b bs => exact answers_wants (by simpa using hended)

/-- A send of all that is pending. -/
theorem exchanged_send (hl : Ledger (r.held ++ others) traffic past) (ha : r.Accounts traffic)
    (hg : r.registry.get? t = some entry) (hpending : entry.session.outbox.pending ≠ [])
    {thread : Thread} {reply : Answer Nat} {arrivals : List Arrival}
    (hlaw : Lawful (⟨thread, .send t.fd entry.session.outbox.pending Socket.noSignal, reply,
      arrivals⟩ :: past)) :
    let e : Event :=
      ⟨thread, .send t.fd entry.session.outbox.pending Socket.noSignal, reply, arrivals⟩
    let result := Session.settle (Outflow.ofResult (reply.result "send")) entry.session
    Exchanged r others traffic past t entry [e.call] result.2 (trafficOn t.fd (e :: past)) [e] ∧
      Answers result.2 (trafficOn t.fd (e :: past)) [e.call] result.1 := by
  intro e result
  have hentry := Registry.entryAt_of_get? hg
  have hfd : t.fd ∈ r.held ++ others := List.mem_append_left _ (ha.filed.mem_held hentry)
  have hcarries := ha.session t.fd entry hentry
  have hnow : trafficOn t.fd (e :: past) =
      { received := (traffic t.fd).received
        delivered := (traffic t.fd).delivered ++
          entry.session.outbox.pending.take (Outflow.ofResult (reply.result "send")).count
        asked := (traffic t.fd).asked
        ended := false } := by
    have hdelivered : entry.session.outbox.pending.take
        (Outflow.ofResult (reply.result "send")).count = e.delivered t.fd :=
      Outflow.delivered_ofResult reply
    rw [hdelivered]
    simp [trafficOn, e, Event.opened?, Event.received, Event.asks, Event.ends, hl.traffic t.fd hfd,
      ha.running t.fd entry hentry]
  obtain ⟨hnew, hanswer⟩ :=
    Session.settle_carries hcarries hpending (Outflow.count_ofResult hlaw.2.1)
  have htruth : (trafficOn t.fd (e :: past)).Truthful := by
    rw [hnow]
    have hasked : (traffic t.fd).asked → (traffic t.fd).delivered ≠ [] := by
      rw [← hl.traffic t.fd hfd]
      exact (hl.truthful_now t.fd).asked
    exact ⟨⟨_, hnew.stream⟩, fun ha => by simp [hasked ha],
      fun he => absurd he Bool.false_ne_true⟩
  have hin : entry.session.bytesIn ≤ result.2.bytesIn :=
    Nat.le_of_eq (hcarries.bytesIn.trans hnew.bytesIn.symm)
  have hout : entry.session.bytesOut ≤ result.2.bytesOut := by
    rw [hnew.bytesOut, hcarries.bytesOut, List.length_append]
    exact Nat.le_add_right _ _
  constructor
  · exact exchanged_call hl hfd rfl rfl rfl htruth (by rw [hnow]; exact hnew) hin hout
  · rw [hnow]
    rw [hanswer]
    change Answers result.2 _ _ (result.2.afterSend _)
    generalize result.2 = session
    cases Outflow.ofResult (reply.result "send") with
    | failed e => exact trivial
    | blocked => exact answers_wants rfl
    | taken n => exact answers_wants rfl

/-! ## The exchange of a reactor -/

theorem exchange_receive {n : Node κ} {fd : Descriptor} (hfd : entry.socket = fd)
    (hb : entry.session.outbox.InBounds) {room : Nat}
    (hroom : entry.session.room n.reactor.settings.receiveChunk = room) (hpos : room ≠ 0) :
    let c := Call.receive fd room
    let result := Session.absorb n.reactor.settings.receiveChunk
      (Inflow.ofResult ((n.world.call c).1.result "recv")) entry.session
    exchange t entry .receive n = (result.1,
      { reactor := n.reactor.refile t fun e => { e with session := result.2 }
        world := (n.world.call c).2 }) := by
  subst hfd
  cases room with
  | zero => exact absurd rfl hpos
  | succ k =>
    simp only [exchange, Session.onReadable, if_pos hb, hroom]
    rfl

theorem exchange_send {n : Node κ} {fd : Descriptor} (hfd : entry.socket = fd)
    (hb : entry.session.outbox.InBounds) {bytes : Bytes}
    (hpending : entry.session.outbox.pending = bytes) (hne : bytes ≠ []) :
    let c := Call.send fd bytes Socket.noSignal
    let result := Session.settle (Outflow.ofResult ((n.world.call c).1.result "send")) entry.session
    exchange t entry .send n = (result.1,
      { reactor := n.reactor.refile t fun e => { e with session := result.2 }
        world := (n.world.call c).2 }) := by
  subst hfd
  cases bytes with
  | nil => exact absurd rfl hne
  | cons b rest =>
    simp only [exchange, Session.onWritable, if_pos hb, hpending]
    rfl

/-- A handler with nothing to do answers at once. -/
theorem exchange_nothing {n : Node κ} (hb : entry.session.outbox.InBounds) {d : Direction}
    (h : handlerCalls n.reactor.settings.receiveChunk entry d = []) :
    ∃ i, i.isEmpty = false ∧ exchange t entry d n = (.ok i,
      { n with reactor := n.reactor.refile t fun e => { e with session := entry.session } }) := by
  cases d with
  | receive =>
    have hroom : entry.session.room n.reactor.settings.receiveChunk = 0 := by
      simpa [handlerCalls] using h
    refine ⟨.write, rfl, ?_⟩
    simp only [exchange, Session.onReadable, if_pos hb, hroom]
    rfl
  | send =>
    have hpending : entry.session.outbox.pending = [] := by simpa [handlerCalls] using h
    refine ⟨.both, rfl, ?_⟩
    simp only [exchange, Session.onWritable, if_pos hb, hpending]
    rfl

/-- What the handler of a connection does to reactor and past. -/
theorem triple_exchange (hl : Ledger (r.held ++ others) traffic past) (ha : r.Accounts traffic)
    (hg : r.registry.get? t = some entry) (d : Direction) :
    Triple (On r (· = past)) (exchange t entry d : Loop κ Interest) fun o v =>
      ∃ session now moved,
        Exchanged r others traffic past t entry
          (handlerCalls r.settings.receiveChunk entry d) session now moved ∧
        Answers session now (handlerCalls r.settings.receiveChunk entry d) o ∧
        v.On (r.refile t fun e => { e with session }) (· = moved ++ past) := by
  refine ⟨(exchange_grows t entry d).grows, ?_⟩
  intro n h hlaw
  obtain ⟨hr, hpast⟩ := h
  obtain rfl : n.reactor = r := hr
  obtain rfl : n.world.past = past := hpast
  have hentry := Registry.entryAt_of_get? hg
  have hsocket := ha.socket t.fd entry hentry
  have hb := (ha.session t.fd entry hentry).inBounds
  by_cases hcalls : handlerCalls n.reactor.settings.receiveChunk entry d = []
  · obtain ⟨i, hi, he⟩ := exchange_nothing (t := t) (n := n) hb hcalls
    rw [he, hcalls]
    exact ⟨entry.session, _, [], exchanged_nothing hl ha hg,
      .inr ⟨hi, ha.running t.fd entry hentry, fun h => absurd rfl h⟩, rfl, rfl⟩
  · cases d with
    | receive =>
      have hroom : entry.session.room n.reactor.settings.receiveChunk ≠ 0 := by
        simpa [handlerCalls] using hcalls
      have he := exchange_receive (t := t) (n := n) hsocket hb rfl hroom
      rw [he] at hlaw ⊢
      replace hlaw : Lawful (n.world.call _).2.past := hlaw
      rw [World.call_past] at hlaw
      obtain ⟨hx, hanswers⟩ := exchanged_receive hl ha hg hroom hlaw
      simp only [handlerCalls, if_neg hroom, hsocket]
      exact ⟨_, _, _, hx, hanswers, rfl, World.call_past _ _⟩
    | send =>
      have hpending : entry.session.outbox.pending ≠ [] := by simpa [handlerCalls] using hcalls
      have he := exchange_send (t := t) (n := n) hsocket hb rfl hpending
      rw [he] at hlaw ⊢
      replace hlaw : Lawful (n.world.call _).2.past := hlaw
      rw [World.call_past] at hlaw
      obtain ⟨hx, hanswers⟩ := exchanged_send hl ha hg hpending hlaw
      simp only [handlerCalls, if_neg hpending, hsocket]
      exact ⟨_, _, _, hx, hanswers, rfl, World.call_past _ _⟩

end Reactor

end SpanEcho

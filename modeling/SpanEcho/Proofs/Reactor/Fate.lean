import SpanEcho.Proofs.Reactor.Admission

/-!
# What becomes of a connection that is served

As long as the calls made for a connection go well or are put off, the connection stays. The first
call that fails, or finds the end of the stream, closes it in the same turn, and a failure is
counted once. `Fate` says so of the events of a turn.
-/

namespace SpanEcho

open SpanEcho.Action Scene Loop Reactor

namespace Event

/-- A receive or a send that failed. -/
def breaks : Event → Bool
  | ⟨_, .receive _ _, reply, _⟩ => reply.fails
  | ⟨_, .send _ _ _, reply, _⟩ => reply.fails
  | _ => false

/-- The connection over `fd` cannot go on after this. -/
def severs (fd : Descriptor) (e : Event) : Bool :=
  e.breaks || e.ends fd

end Event

/-! ## What a handler tells -/

/-- How many failures there are in an answer. -/
def faults : Except Failure Interest → Nat
  | .ok _ => 0
  | .error _ => 1

/-- The reactor once the calls of `moved` are counted, and the failure if the handler
answers one. -/
def Reactor.counting (r : Reactor) (moved : List Event) (answer : Except Failure Interest) :
    Reactor :=
  { r with
    tally :=
      { r.tally.addTraffic (moved.map (·.inward)).sum (moved.map (·.outward)).sum with
        errors := r.tally.errors + faults answer } }

/-- The reactor once an interest is kept, or the connection closed for want of one. -/
def Reactor.keeping (r : Reactor) (t : Ticket) (interest : Interest) : Reactor :=
  if interest.isEmpty then
    { r.without t with tally := { r.tally with closes := r.tally.closes + 1 } }
  else r.refile t fun e => { e with interest }

namespace Reactor

variable {r : Reactor} {t : Ticket} {entry : Entry Descriptor} {i : Interest}

theorem keeping_tally (r : Reactor) (t : Ticket) (i : Interest) :
    (r.keeping t i).tally = { r.tally with closes := r.tally.closes + i.isEmpty.toNat } := by
  unfold keeping
  cases i.isEmpty <;> rfl

/-- With a connection that is closed there is one less. -/
theorem keeping_live (hs : r.registry.Sound) (hg : r.registry.get? t = some entry) (i : Interest) :
    (r.keeping t i).registry.live + i.isEmpty.toNat = r.registry.live := by
  unfold keeping
  cases i.isEmpty with
  | true =>
    have hlive : (r.registry.remove? t).2.live = r.registry.live - 1 := by rw [Registry.remove?, hg]
    exact (congrArg (· + 1) hlive).trans (Nat.sub_add_cancel (Registry.remove?_of_get? hs hg).1)
  | false =>
    show (r.registry.modify t _).live = _
    rw [Registry.modify, hg]
    rfl

theorem keeping_gone (hs : r.registry.Sound) (hg : r.registry.get? t = some entry)
    (hi : i.isEmpty = true) : (r.keeping t i).registry.entryAt t.fd = none := by
  obtain ⟨-, -, -, -, hentryAt⟩ := Registry.remove?_of_get? hs hg
  rw [keeping, if_pos hi]
  exact (hentryAt t.fd).trans (if_pos rfl)

theorem keeping_stays (hs : r.registry.Sound) (hg : r.registry.get? t = some entry)
    (hi : i.isEmpty = false) : ∃ entry', (r.keeping t i).registry.get? t = some entry' := by
  obtain ⟨-, -, hg', -⟩ := Registry.modify_of_get? hs hg (fun e => { e with interest := i }) rfl
  rw [keeping, if_neg (by simp [hi])]
  exact ⟨_, hg'⟩

end Reactor

/-- How a handler ends that answers so. -/
def Outcome.ofAnswer : Except Failure Interest → Outcome Interest
  | .ok interest => .ok interest
  | .error e => .failed e

/-- The answer of a handler is empty if one of its calls over `fd` ended the connection, and a
failure if the call failed. -/
structure Tells (fd : Descriptor) (moved : List Event) (answer : Except Failure Interest) :
    Prop where
  severed : (interestAfter answer).isEmpty = moved.any (·.severs fd)
  broken : moved.countP (·.breaks) = faults answer
  carried : ∀ e ∈ moved, e.call.carrier? = some fd

variable {fd : Descriptor} {e : Event} {s : Session}

theorem Event.breaks_of_closed? (h : e.closed? = some fd) : e.breaks = false := by
  obtain ⟨thread, call, reply, arrivals⟩ := e
  cases call <;> first | rfl | simp [Event.closed?] at h

/-- Nothing is closed by a call that moves bytes. -/
theorem Tells.closed {moved : List Event} {answer : Except Failure Interest}
    (h : Tells fd moved answer) : moved.filterMap (·.closed?) = [] :=
  List.filterMap_eq_nil_iff.mpr fun e he => Event.closed?_of_carrier (h.carried e he)

theorem tells_nothing (fd : Descriptor) {i : Interest} (hi : i.isEmpty = false) :
    Tells fd [] (.ok i) :=
  ⟨hi, rfl, List.forall_mem_nil _⟩

theorem tells_wants (hc : e.call.carrier? = some fd) (hb : e.breaks = false)
    (he : e.ends fd = false) : Tells fd [e] (.ok s.wants) :=
  ⟨by simp [interestAfter, s.wants_isEmpty, Event.severs, hb, he], by simp [hb, faults],
    by simpa using hc⟩

theorem tells_broken (hc : e.call.carrier? = some fd) (hb : e.breaks = true) (why : Failure) :
    Tells fd [e] (.error why) :=
  ⟨by simp [interestAfter, Interest.nothing, Interest.isEmpty, Event.severs, hb],
    by simp [hb, faults], by simpa using hc⟩

theorem tells_ended (hc : e.call.carrier? = some fd) (hb : e.breaks = false)
    (he : e.ends fd = true) : Tells fd [e] (.ok .nothing) :=
  ⟨by simp [interestAfter, Interest.nothing, Interest.isEmpty, Event.severs, he],
    by simp [hb, faults], by simpa using hc⟩

theorem tells_receive (s : Session) {thread : Thread} {room : Nat} {reply : Answer Bytes}
    {arrivals : List Arrival} :
    ∃ answer, s.afterReceive (.ofResult (reply.result "recv")) = .ofAnswer answer ∧
      Tells fd [⟨thread, .receive fd room, reply, arrivals⟩] answer := by
  rcases reply.result_cases "recv" with ⟨bytes, rfl⟩ | ⟨hd, hresult⟩ | ⟨hfails, errno, hresult⟩
  · cases bytes with
    | nil => exact ⟨.ok .nothing, rfl, tells_ended rfl rfl (by simp [Event.ends])⟩
    | cons b bytes => exact ⟨.ok s.wants, rfl, tells_wants rfl rfl (by simp [Event.ends])⟩
  · rw [hresult]
    refine ⟨.ok s.wants, rfl, tells_wants rfl (Answer.fails_of_deferred hd) ?_⟩
    cases reply with
    | ok bytes => exact hd.elim
    | failed errno => rfl
    | notOpen => rfl
  · rw [hresult]
    have hbreaks : Event.breaks ⟨thread, .receive fd room, reply, arrivals⟩ = true := hfails
    exact ⟨.error _, rfl, tells_broken rfl hbreaks _⟩

theorem tells_send (s : Session) {thread : Thread} {bytes : Bytes} {flags : Nat}
    {reply : Answer Nat} {arrivals : List Arrival} :
    ∃ answer, s.afterSend (.ofResult (reply.result "send")) = .ofAnswer answer ∧
      Tells fd [⟨thread, .send fd bytes flags, reply, arrivals⟩] answer := by
  rcases reply.result_cases "send" with ⟨count, rfl⟩ | ⟨hd, hresult⟩ | ⟨hfails, errno, hresult⟩
  · exact ⟨.ok s.wants, rfl, tells_wants rfl rfl rfl⟩
  · rw [hresult]
    exact ⟨.ok s.wants, rfl, tells_wants rfl (Answer.fails_of_deferred hd) rfl⟩
  · rw [hresult]
    have hbreaks : Event.breaks ⟨thread, .send fd bytes flags, reply, arrivals⟩ = true := hfails
    exact ⟨.error _, rfl, tells_broken rfl hbreaks _⟩

namespace Node

variable {κ : Type} [Kernel κ] {n n' n'' : Node κ} {others : List Descriptor}
  {theirs : Descriptor → Traffic} {t : Ticket} {entry : Entry Descriptor} {d : Direction}
  {capacity : Nat} {received delivered : Bytes}

omit [Kernel κ] in
theorem attempt_ofAnswer {m : Loop κ Interest} {answer : Except Failure Interest}
    (h : m n = (.ofAnswer answer, n')) : Action.attempt m n = (.ok answer, n') := by
  rw [Action.attempt, h]
  cases answer <;> rfl

/-- What comes of calling the handler of a connection. -/
theorem exchange_carries (hsocket : entry.socket = t.fd)
    (hcarries : entry.session.Carries capacity received delivered) (d : Direction)
    (hmodest : Modest (exchange t entry d n).2.world.past) :
    ∃ answer session moved, (exchange t entry d n).1 = .ofAnswer answer ∧
      (exchange t entry d n).2.reactor = n.reactor.refile t (fun e => { e with session }) ∧
      (exchange t entry d n).2.world.past = moved ++ n.world.past ∧
      moved.map (·.call) = handlerCalls n.reactor.settings.receiveChunk entry d ∧
      session.bytesIn = entry.session.bytesIn + (moved.map (·.inward)).sum ∧
      session.bytesOut = entry.session.bytesOut + (moved.map (·.outward)).sum ∧
      Tells t.fd moved answer ∧ session.Carried capacity := by
  by_cases hcalls : handlerCalls n.reactor.settings.receiveChunk entry d = []
  · obtain ⟨i, hi, he⟩ := exchange_nothing (t := t) (n := n) hcarries.inBounds hcalls
    rw [he]
    exact ⟨.ok i, entry.session, [], rfl, rfl, rfl, hcalls.symm, rfl, rfl, tells_nothing _ hi, _, _,
      hcarries⟩
  · cases d with
    | receive =>
      have hroom : entry.session.room n.reactor.settings.receiveChunk ≠ 0 := by
        simpa [handlerCalls] using hcalls
      have he := exchange_receive (t := t) (n := n) hsocket hcarries.inBounds rfl hroom
      rw [he] at hmodest ⊢
      replace hmodest : Modest (n.world.call _).2.past := hmodest
      rw [World.call_past] at hmodest
      have hle : (Inflow.ofResult ((n.world.call (.receive t.fd
          (entry.session.room n.reactor.settings.receiveChunk))).1.result "recv")).received.length ≤
            entry.session.room n.reactor.settings.receiveChunk :=
        Inflow.length_received (hmodest _ List.mem_cons_self)
      obtain ⟨hnew, hanswer⟩ := Session.absorb_carries hcarries hroom hle
      obtain ⟨answer, ho, htells⟩ := tells_receive _
      refine ⟨answer, _, [_], hanswer.trans ho, rfl, World.call_past _ _, ?_, ?_, ?_, htells, _, _,
        hnew⟩
      · simp [handlerCalls, hroom, hsocket, World.event]
      · rw [hnew.bytesIn, List.length_append, ← hcarries.bytesIn]
        exact congrArg _
          ((congrArg _ (Inflow.received_ofResult _)).trans (Event.length_received rfl))
      · exact hnew.bytesOut.trans hcarries.bytesOut.symm
    | send =>
      have hpending : entry.session.outbox.pending ≠ [] := by simpa [handlerCalls] using hcalls
      have he := exchange_send (t := t) (n := n) hsocket hcarries.inBounds rfl hpending
      rw [he] at hmodest ⊢
      replace hmodest : Modest (n.world.call _).2.past := hmodest
      rw [World.call_past] at hmodest
      have hhonest := hmodest _ List.mem_cons_self
      have hle : (Outflow.ofResult ((n.world.call (.send t.fd entry.session.outbox.pending
          Socket.noSignal)).1.result "send")).count ≤ entry.session.outbox.pending.length :=
        Outflow.count_ofResult hhonest
      obtain ⟨hnew, hanswer⟩ := Session.settle_carries hcarries hpending hle
      obtain ⟨answer, ho, htells⟩ := tells_send _
      refine ⟨answer, _, [_], hanswer.trans ho, rfl, World.call_past _ _, ?_, ?_, ?_, htells, _, _,
        hnew⟩
      · simp [handlerCalls, hpending, hsocket, World.event]
      · exact hnew.bytesIn.trans hcarries.bytesIn.symm
      · rw [hnew.bytesOut, List.length_append, ← hcarries.bytesOut]
        exact congrArg _
          ((congrArg _ (Outflow.delivered_ofResult _)).trans (Event.length_delivered rfl hhonest))

/-! ## What follows -/

/-- What follows a handler counts what it moved and its failure, and keeps the interest it answered
with. -/
theorem followUp_apply (hg : n.reactor.registry.get? t = some entry) {old : Session}
    {moved : List Event} (hin : entry.session.bytesIn = old.bytesIn + (moved.map (·.inward)).sum)
    (hout : entry.session.bytesOut = old.bytesOut + (moved.map (·.outward)).sum) (d : Direction)
    (answer : Except Failure Interest) :
    ∃ n', followUp t d old answer n = keep t (interestAfter answer) n' ∧
      n'.reactor = n.reactor.counting moved answer ∧ n'.world.past = n.world.past := by
  have hmonotone :
      ¬ (entry.session.bytesIn < old.bytesIn ∨ entry.session.bytesOut < old.bytesOut) := by
    omega
  let counted : Node κ := { n with
    reactor := { n.reactor with
      tally := n.reactor.tally.addTraffic (moved.map (·.inward)).sum (moved.map (·.outward)).sum } }
  have hcount : countTraffic t old n = (.ok (), counted) := by
    simp only [countTraffic, bind_apply, Loop.reactor, hg]
    rw [if_neg hmonotone, hin, hout, Nat.add_sub_cancel_left, Nat.add_sub_cancel_left]
    rfl
  have hlogged : ∀ (i : Interest) (n : Node κ),
      (Loop.log .trace s!"socket {t.fd} {d.name} -> {i.text}" >>= fun _ => keep t i) n =
        keep t i { n with
          world := n.world.write ⟨some .trace, s!"socket {t.fd} {d.name} -> {i.text}"⟩ } :=
    fun _ _ => rfl
  cases answer with
  | ok interest =>
    have hfollow : followUp t d old (.ok interest) n =
        (Loop.log .trace s!"socket {t.fd} {d.name} -> {interest.text}" >>= fun _ => keep t interest)
          counted := by
      rw [followUp, bind_apply, hcount]
      rfl
    exact ⟨_, hfollow.trans (hlogged _ _), rfl, World.write_past _ _⟩
  | error e =>
    have hfollow : followUp t d old (.error e) n =
        (Loop.log .trace s!"socket {t.fd} {d.name} -> {Interest.nothing.text}" >>= fun _ =>
          keep t .nothing)
          { counted with
            reactor := { counted.reactor with
              tally := { counted.reactor.tally with errors := counted.reactor.tally.errors + 1 } }
            world := counted.world.write ⟨some .error, s!"socket {t.fd}: {e.describe}"⟩ } := by
      rw [followUp, bind_apply, hcount]
      rfl
    exact ⟨_, hfollow.trans (hlogged _ _), rfl, (World.write_past _ _).trans (World.write_past _ _)⟩

/-- A connection is kept, or closed by one call. -/
theorem keep_apply (hs : n.reactor.registry.Sound) (hg : n.reactor.registry.get? t = some entry)
    (i : Interest) :
    ∃ closing n', keep t i n = (.ok (), n') ∧ n'.reactor = n.reactor.keeping t i ∧
      n'.world.past = closing ++ n.world.past ∧
      closing.map (·.call) = if i.isEmpty then [.close entry.socket] else [] := by
  unfold keep Reactor.keeping
  cases i.isEmpty with
  | true =>
    obtain ⟨n', hn', hr, hpast⟩ := hangUp_apply hs hg
    exact ⟨[_], n', hn', hr, hpast, rfl⟩
  | false => exact ⟨[], _, rfl, rfl, rfl, rfl⟩

/-- Serving a connection calls its handler, counts what came of it, and keeps the interest. -/
theorem serve_carries (hs : n.reactor.registry.Sound) (hg : n.reactor.registry.get? t = some entry)
    (hsocket : entry.socket = t.fd) (hcarries : entry.session.Carries capacity received delivered)
    (d : Direction) (hmodest : Modest (serve t d n).2.world.past) :
    ∃ answer session moved closing n', serve t d n = (.ok (), n') ∧
      moved.map (·.call) = handlerCalls n.reactor.settings.receiveChunk entry d ∧
      Tells t.fd moved answer ∧
      n'.reactor =
        ((n.reactor.refile t fun e => { e with session }).counting moved answer).keeping t
          (interestAfter answer) ∧
      n'.world.past = closing ++ (moved ++ n.world.past) ∧
      (closing.map (·.call) = if (interestAfter answer).isEmpty then [.close t.fd] else []) ∧
      session.Carried capacity := by
  have hserve : serve t d n =
      (Action.attempt (exchange t entry d) >>= followUp t d entry.session) n := by
    simp only [serve, bind_apply, Loop.reactor, hg]
  have hgrows : (exchange t entry d n).2.world.past <:+ (serve t d n).2.world.past := by
    rw [hserve, ← attempt_state (exchange t entry d) n]
    exact grows_bind (fun answer => (tame_followUp t d _ answer).grows.grows) n
  obtain ⟨answer, session, moved, ho, hr, hpast, hcalls, hin, hout, htells, hcarried⟩ :=
    exchange_carries hsocket hcarries d (hmodest.of_suffix hgrows)
  obtain ⟨hs₁, -, hg₁, -⟩ :=
    Registry.modify_of_get? hs hg (fun e => { e with session }) rfl
  rcases hx : exchange t entry d n with ⟨o, n₁⟩
  rw [hx] at ho hr hpast
  obtain rfl : o = .ofAnswer answer := ho
  have hg₁' : n₁.reactor.registry.get? t = some { entry with session } := by
    rw [hr]
    exact hg₁
  obtain ⟨n₂, hfollow, hr₂, hpast₂⟩ := followUp_apply hg₁' hin hout d answer
  have hs₂ : n₂.reactor.registry.Sound := by
    rw [hr₂, hr]
    exact hs₁
  have hg₂ : n₂.reactor.registry.get? t = some { entry with session } := by
    rw [hr₂]
    exact hg₁'
  obtain ⟨closing, n', hkeep, hr', hpast', hclosing⟩ := keep_apply hs₂ hg₂ (interestAfter answer)
  refine ⟨answer, session, moved, closing, n', ?_, hcalls, htells, by rw [hr', hr₂, hr], ?_, ?_,
    hcarried⟩
  · rw [hserve, bind_of_ok (attempt_ofAnswer hx), hfollow, hkeep]
  · rw [hpast', hpast₂, hpast]
  · rw [hclosing, hsocket]

/-- What it takes to serve a connection of a sound reactor. -/
theorem serve_apply (hsound : Scene.Sound others theirs (Viewed.view n))
    (hg : n.reactor.registry.get? t = some entry) (d : Direction)
    (hlaw : Lawful (serve t d n).2.world.past) :
    ∃ answer session moved closing n', serve t d n = (.ok (), n') ∧ moved.length ≤ 1 ∧
      Tells t.fd moved answer ∧
      n'.reactor =
        ((n.reactor.refile t fun e => { e with session }).counting moved answer).keeping t
          (interestAfter answer) ∧
      n'.world.past = closing ++ (moved ++ n.world.past) ∧
      closing.map (·.call) = if (interestAfter answer).isEmpty then [.close t.fd] else [] := by
  obtain ⟨_, -, ha, -⟩ := hsound
  have hentry := Registry.entryAt_of_get? hg
  obtain ⟨answer, session, moved, closing, n', hserve, hcalls, htells, hr, hpast, hclosing, -⟩ :=
    serve_carries ha.registry hg (ha.socket t.fd entry hentry) (ha.session t.fd entry hentry) d
      hlaw.modest
  have hlength : moved.length ≤ 1 := by
    rw [← List.length_map (·.call), hcalls]
    exact length_handlerCalls_le _ _ _
  exact ⟨answer, session, moved, closing, n', hserve, hlength, htells, hr, hpast, hclosing⟩

/-- What becomes of the connection of a ticket in a turn with the events `moved`. -/
structure Fate (t : Ticket) (n n' : Node κ) (moved : List Event) : Prop where
  past : n'.world.past = moved ++ n.world.past
  calls : ∀ e ∈ moved, e.call.carrier? = some t.fd ∨ e.call = .close t.fd
  errors : n'.reactor.tally.errors = n.reactor.tally.errors + moved.countP (·.breaks)
  acceptErrors : n'.reactor.tally.acceptErrors = n.reactor.tally.acceptErrors
  stays : moved.any (·.severs t.fd) = false →
    (∃ entry, n'.reactor.registry.get? t = some entry) ∧ moved.filterMap (·.closed?) = []
  goes : moved.any (·.severs t.fd) = true →
    n'.reactor.registry.entryAt t.fd = none ∧ moved.filterMap (·.closed?) = [t.fd]

variable {moved moved' : List Event}

omit [Kernel κ] in
theorem Fate.refl (hg : n.reactor.registry.get? t = some entry) : Fate t n n [] :=
  ⟨rfl, List.forall_mem_nil _, rfl, rfl, fun _ => ⟨⟨entry, hg⟩, rfl⟩, fun h => Bool.noConfusion h⟩

omit [Kernel κ] in
/-- The connection is served again in a later turn if it has stayed. -/
theorem Fate.trans (h : Fate t n n' moved) (hstayed : moved.any (·.severs t.fd) = false)
    (h' : Fate t n' n'' moved') : Fate t n n'' (moved' ++ moved) := by
  have hclosed := (h.stays hstayed).2
  refine ⟨by rw [h'.past, h.past, List.append_assoc], fun e he => ?_, ?_,
    h'.acceptErrors.trans h.acceptErrors, ?_, ?_⟩
  · rcases List.mem_append.mp he with he | he
    · exact h'.calls e he
    · exact h.calls e he
  · rw [h'.errors, h.errors, List.countP_append]
    omega
  · intro hany
    rw [List.any_append, hstayed, Bool.or_false] at hany
    rw [List.filterMap_append, hclosed, List.append_nil]
    exact h'.stays hany
  · intro hany
    rw [List.any_append, hstayed, Bool.or_false] at hany
    rw [List.filterMap_append, hclosed, List.append_nil]
    exact h'.goes hany

/-- What one direction of a connection comes to. -/
theorem fate_serve (hsound : Scene.Sound others theirs (Viewed.view n))
    (hg : n.reactor.registry.get? t = some entry) (d : Direction)
    (hlaw : Lawful (serve t d n).2.world.past) :
    (serve t d n).1 = .ok () ∧ ∃ moved, Fate t n (serve t d n).2 moved := by
  obtain ⟨answer, session, moved, closing, n', hserve, -, htells, hr, hpast, hclosing⟩ :=
    serve_apply hsound hg d hlaw
  obtain ⟨_, -, ha, -⟩ := hsound
  obtain ⟨hs, -, hg', -⟩ := Registry.modify_of_get? ha.registry hg (fun e => { e with session }) rfl
  have htally := congrArg Reactor.tally hr
  rw [Reactor.keeping_tally] at htally
  have herrors : n'.reactor.tally.errors = n.reactor.tally.errors + moved.countP (·.breaks) := by
    rw [htally, htells.broken]
    rfl
  have hrefused : n'.reactor.tally.acceptErrors = n.reactor.tally.acceptErrors := by
    rw [htally]
    rfl
  rw [hserve]
  cases hempty : (interestAfter answer).isEmpty with
  | true =>
    have hsevered : moved.any (·.severs t.fd) = true := htells.severed.symm.trans hempty
    rw [if_pos hempty] at hclosing
    obtain ⟨close, rfl, hclose⟩ := List.map_eq_singleton_iff.mp hclosing
    have hclosed : close.closed? = some t.fd := by rw [Event.closed?, hclose]
    refine ⟨rfl, close :: moved, hpast, fun e he => ?_, ?_, hrefused, fun h => ?_,
      fun _ => ⟨?_, ?_⟩⟩
    · rcases List.mem_cons.mp he with rfl | he
      · exact .inr hclose
      · exact .inl (htells.carried e he)
    · rw [List.countP_cons_of_neg (by simp [Event.breaks_of_closed? hclosed]), herrors]
    · rw [List.any_cons, hsevered, Bool.or_true] at h
      cases h
    · rw [hr]
      exact Reactor.keeping_gone hs hg' hempty
    · rw [List.filterMap_cons, hclosed, htells.closed]
  | false =>
    have hstays : moved.any (·.severs t.fd) = false := htells.severed.symm.trans hempty
    rw [hempty, if_neg Bool.false_ne_true] at hclosing
    obtain rfl := List.map_eq_nil_iff.mp hclosing
    refine ⟨rfl, moved, hpast, fun e he => .inl (htells.carried e he), herrors, hrefused,
      fun _ => ⟨?_, htells.closed⟩, fun h => ?_⟩
    · rw [hr]
      exact Reactor.keeping_stays hs hg' hempty
    · rw [hstays] at h
      cases h

theorem fate_when (hsound : Scene.Sound others theirs (Viewed.view n))
    (hg : n.reactor.registry.get? t = some entry) (c : Bool) (d : Direction)
    (hlaw : Lawful (Action.when c (serve t d) n).2.world.past) :
    (Action.when c (serve t d) n).1 = .ok () ∧
      ∃ moved, Fate t n (Action.when c (serve t d) n).2 moved := by
  cases c with
  | true => exact fate_serve hsound hg d hlaw
  | false => exact ⟨rfl, [], .refl hg⟩

/-- A connection that is gone is passed over. -/
theorem when_stale (hg : n.reactor.registry.get? t = none) (c : Bool) (d : Direction) :
    Action.when c (serve t d) n = (.ok (), n) := by
  cases c with
  | true => exact serve_stale hg d
  | false => rfl

/-- What a turn of a ready connection comes to. -/
theorem fate_serveReady (hsound : Scene.Sound others theirs (Viewed.view n))
    (hg : n.reactor.registry.get? t = some entry) (ready : Readiness)
    (hlaw : Lawful (serveReady t ready n).2.world.past) :
    (serveReady t ready n).1 = .ok () ∧ ∃ moved, Fate t n (serveReady t ready n).2 moved := by
  have hkeeps : Keeps (Scene.Sound others theirs)
      (Action.when ready.readable (serve t .receive) : Loop κ Unit) :=
    Triple.when (sound_serve t .receive) fun _ _ h => h
  have htame : Loop.Tame (Action.when ready.writable (serve t .send) : Loop κ Unit) :=
    .when (tame_serve t .send)
  have hgrows : (Action.when ready.readable (serve t .receive) n).2.world.past <:+
      (serveReady t ready n).2.world.past := grows_bind (fun _ => htame.grows.grows) n
  rcases hfirst : Action.when ready.readable (serve t .receive) n with ⟨o, n₁⟩
  rw [hfirst] at hgrows
  have hlaw₁ : Lawful n₁.world.past := hlaw.of_suffix hgrows
  have hfate := fate_when hsound hg ready.readable .receive
  have hsound₁ := hkeeps.ensures n hsound
  rw [hfirst] at hfate hsound₁
  obtain ⟨rfl, moved, hmoved⟩ := hfate hlaw₁
  rw [serveReady, bind_of_ok hfirst] at hlaw ⊢
  cases hsevered : moved.any (·.severs t.fd) with
  | true =>
    rw [when_stale (Registry.get?_of_entryAt_none (hmoved.goes hsevered).1)]
    exact ⟨rfl, moved, hmoved⟩
  | false =>
    obtain ⟨⟨entry', hg'⟩, -⟩ := hmoved.stays hsevered
    obtain ⟨ho, moved', hmoved'⟩ := fate_when (hsound₁ hlaw₁) hg' ready.writable .send hlaw
    exact ⟨ho, _, hmoved.trans hsevered hmoved'⟩

end Node

end SpanEcho

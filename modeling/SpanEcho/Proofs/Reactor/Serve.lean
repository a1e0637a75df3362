import SpanEcho.Proofs.Reactor.Exchange

/-!
# Serving a connection

After its handler was called, a connection is kept with the interest it answered, or it is closed
and its socket with it. Nothing else of the reactor changes but its counters.
-/

namespace SpanEcho.Reactor

open SpanEcho.Action Scene Loop

variable {κ : Type} [Kernel κ] {r : Reactor} {others : List Descriptor}
  {traffic : Descriptor → Traffic} {past : List Event} {t : Ticket} {entry : Entry Descriptor}
  {A : List Event → Prop}

theorem triple_countTraffic (hg : r.registry.get? t = some entry) {old : Session}
    (hin : old.bytesIn ≤ entry.session.bytesIn) (hout : old.bytesOut ≤ entry.session.bytesOut) :
    Triple (On r A) (countTraffic t old : Loop κ Unit) fun o v => o = .ok () ∧ v.Near r A := by
  refine triple_look (quiet_countTraffic t old).tame ?_
  rw [hg]
  have hmonotone :
      ¬ (entry.session.bytesIn < old.bytesIn ∨ entry.session.bytesOut < old.bytesOut) := by
    omega
  change Triple _ (if _ then _ else _) _
  rw [if_neg hmonotone]
  exact triple_adjust fun _ _ h => ⟨rfl, h.near.1.trans ⟨rfl, rfl, rfl, rfl⟩, h.2⟩

/-- The interest that follows from what a handler answered. -/
def interestAfter : Except Failure Interest → Interest
  | .ok interest => interest
  | .error _ => .nothing

omit [Kernel κ] in
theorem triple_verdict (answer : Except Failure Interest) :
    Triple (Near r A) (verdict t answer : Loop κ Interest) fun o v =>
      o = .ok (interestAfter answer) ∧ v.Near r A := by
  cases answer with
  | ok interest => exact Triple.pure fun _ _ h => ⟨rfl, h⟩
  | error e =>
    exact (silent_log _ _).bind (count_bind (Triple.pure fun _ _ h => ⟨rfl, h⟩))

/-- The reactor without the connection of a ticket. -/
def without (r : Reactor) (t : Ticket) : Reactor :=
  { r with registry := (r.registry.remove? t).2 }

/-- A connection that is hung up is closed by one call. -/
theorem triple_hangUp (hs : r.registry.Sound) (hg : r.registry.get? t = some entry) :
    Triple (Near r fun now => now = past ∧ Ledger (r.held ++ others) traffic now)
      (hangUp t : Loop κ Unit) fun o v => o = .ok () ∧
        v.Near (r.without t) fun now => ∃ e : Event, e.call = .close entry.socket ∧
          now = e :: past ∧ Ledger ((r.without t).held ++ others) traffic now := by
  obtain ⟨hlive, hentry, -, hsockets, -⟩ := Registry.remove?_of_get? hs hg
  have hperm : (r.held ++ others).Perm (entry.socket :: ((r.without t).held ++ others)) := by
    refine ((hsockets.cons r.listener).append_right others).trans ?_
    exact List.Perm.swap _ _ _
  apply triple_look_near (tame_hangUp t)
  intro r' halike
  have hremove : r'.registry.remove? t = (some entry, (r.without t).registry) := by
    rw [halike.registry, ← hentry]
    rfl
  simp only [hremove]
  rw [if_neg (by rw [halike.registry]; omega)]
  refine Triple.bind (Q := fun o v => o = .ok () ∧ v.Near (r.without t) fun now =>
      now = past ∧ Ledger (entry.socket :: ((r.without t).held ++ others)) traffic now)
    (triple_adjust ?_) (fun _ => ?_) (fun _ _ h => nomatch h.1) (fun _ _ h => nomatch h.1)
  · intro v _ h
    obtain ⟨hr, hpast, hledger⟩ := h
    rw [hr]
    exact ⟨rfl, ⟨halike.listener, halike.multiplexor, halike.settings, rfl⟩, hpast,
      hledger.perm hperm⟩
  · refine Triple.bind ((triple_near (Socket.triple_close_from entry.socket past)).strengthen
      fun _ _ h => h.2) (fun _ => ?_) (fun _ _ h => nomatch h.2.1) (fun _ _ h => nomatch h.2.1)
    refine (silent_log _ _).bind (triple_adjust fun v _ h => ⟨rfl, ?_, h.2.2⟩)
    exact h.1.trans ⟨rfl, rfl, rfl, rfl⟩

/-- An empty interest closes the connection, any other is kept. -/
theorem triple_followUp (hs : r.registry.Sound) (hg : r.registry.get? t = some entry)
    {old : Session} (hin : old.bytesIn ≤ entry.session.bytesIn)
    (hout : old.bytesOut ≤ entry.session.bytesOut) (d : Direction)
    (answer : Except Failure Interest) :
    Triple (On r fun now => now = past ∧ Ledger (r.held ++ others) traffic now)
      (followUp t d old answer : Loop κ Unit) fun o v => o = .ok () ∧
        if (interestAfter answer).isEmpty then
          v.Near (r.without t) fun now => ∃ e : Event, e.call = .close entry.socket ∧
            now = e :: past ∧ Ledger ((r.without t).held ++ others) traffic now
        else v.Near (r.refile t fun e => { e with interest := interestAfter answer }) fun now =>
          now = past ∧ Ledger (r.held ++ others) traffic now := by
  refine Triple.done_bind (triple_countTraffic hg hin hout) ?_
  refine Triple.bind (triple_verdict answer) (fun interest => ?_)
    (fun _ _ h => nomatch h.1) (fun _ _ h => nomatch h.1)
  refine (silent_log _ _).bind (Triple.assume (tame_keep t interest).grows fun hi => ?_)
  obtain rfl : interest = interestAfter answer := Outcome.ok.inj hi
  unfold keep
  split
  · exact triple_hangUp hs hg
  · exact triple_adjust fun v _ h => ⟨rfl, ⟨h.1.listener, h.1.multiplexor, h.1.settings,
      congrArg (Registry.modify t _) h.1.registry⟩, h.2⟩

/-- A connection after one of its directions was served: it is kept, with the interest that its
session wants if its handler made a call, or it is closed. -/
inductive Served (r : Reactor) (others : List Descriptor) (traffic : Descriptor → Traffic)
    (past : List Event) (t : Ticket) (calls : List Call) (v : Scene) : Prop
  | kept (entry : Entry Descriptor) (moved : List Event)
      (altered : v.Altered r others traffic t.fd (some entry))
      (current : v.reactor.registry.get? t = some entry)
      (interest : calls ≠ [] → entry.interest = entry.session.wants)
      (past : v.past = moved ++ past) (calls : moved.map (·.call) = calls)
  | closed (moved : List Event) (altered : v.Altered r others traffic t.fd none)
      (past : v.past = moved ++ past) (calls : moved.map (·.call) = .close t.fd :: calls)

variable {session : Session} {now : Traffic} {moved : List Event} {calls : List Call}

/-- A connection that was hung up after the exchange. -/
theorem Exchanged.hungUp (hx : Exchanged r others traffic past t entry calls session now moved)
    (ha : r.Accounts traffic) (hg : r.registry.get? t = some entry) (haway : t.fd ∉ others)
    {v : Scene} (hv : v.Near ((r.refile t fun e => { e with session }).without t) fun after =>
      ∃ e : Event, e.call = .close entry.socket ∧ after = e :: (moved ++ past) ∧
        Ledger (((r.refile t fun e => { e with session }).without t).held ++ others)
          (Ledger.booked traffic t.fd now) after) :
    Served r others traffic past t calls v := by
  obtain ⟨hs₁, -, hg₁, hentryAt₁⟩ :=
    Registry.modify_of_get? ha.registry hg (fun e => { e with session }) rfl
  obtain ⟨-, -, hs₂, -, hentryAt₂⟩ := Registry.remove?_of_get? hs₁ hg₁
  obtain ⟨halike, e, hclose, hpast, hledger⟩ := hv
  rw [ha.socket t.fd entry (Registry.entryAt_of_get? hg)] at hclose
  refine .closed (e :: moved) ⟨halike.listener, halike.multiplexor, halike.settings, ?_,
    fun x => ?_, haway, now, ?_, nofun⟩ hpast (by rw [List.map_cons, hclose, hx.calls])
  · rw [halike.registry]
    exact hs₂
  · rw [halike.registry]
    refine (hentryAt₂ x).trans ?_
    split
    · rfl
    · rename_i hne
      rw [hentryAt₁, if_neg hne]
  · rw [halike.held_eq]
    exact hledger

/-- A connection that was kept after the exchange. -/
theorem Exchanged.kept (hx : Exchanged r others traffic past t entry calls session now moved)
    (ha : r.Accounts traffic) (hg : r.registry.get? t = some entry) (haway : t.fd ∉ others)
    {interest : Interest} (hended : now.ended = false)
    (hwants : calls ≠ [] → interest = session.wants)
    {v : Scene} (hv : v.Near ((r.refile t fun e => { e with session }).refile t
      fun e => { e with interest }) fun after => after = moved ++ past ∧
        Ledger ((r.refile t fun e => { e with session }).held ++ others)
          (Ledger.booked traffic t.fd now) after) :
    Served r others traffic past t calls v := by
  obtain ⟨hs₁, -, hg₁, hentryAt₁⟩ :=
    Registry.modify_of_get? ha.registry hg (fun e => { e with session }) rfl
  obtain ⟨hs₂, hsockets₂, hg₂, hentryAt₂⟩ :=
    Registry.modify_of_get? hs₁ hg₁ (fun e => { e with interest }) rfl
  obtain ⟨halike, hpast, hledger⟩ := hv
  have hentry := Registry.entryAt_of_get? hg
  refine .kept { entry with session, interest } moved
    ⟨halike.listener, halike.multiplexor, halike.settings, ?_, fun x => ?_, haway, now, ?_, ?_⟩
    ?_ hwants hpast hx.calls
  · rw [halike.registry]
    exact hs₂
  · rw [halike.registry]
    refine (hentryAt₂ x).trans ?_
    split
    · rfl
    · rename_i hne
      rw [hentryAt₁, if_neg hne]
  · rw [halike.held_eq]
    change Ledger (r.listener :: ((r.registry.modify t _).modify t _).sockets ++ others) _ _
    rw [hsockets₂]
    exact hledger
  · rintro entry' ⟨⟩
    exact ⟨ha.socket t.fd entry hentry, hx.carries, hended⟩
  · rw [halike.registry]
    exact hg₂

/-- What follows an exchange closes the connection, or leaves it open and watched. -/
theorem Exchanged.triple_followUp
    (hx : Exchanged r others traffic past t entry calls session now moved) (ha : r.Accounts traffic)
    (hg : r.registry.get? t = some entry) (haway : t.fd ∉ others) {answer : Except Failure Interest}
    (hanswer : (interestAfter answer).isEmpty = false →
      now.ended = false ∧ (calls ≠ [] → interestAfter answer = session.wants)) (d : Direction) :
    Triple (On (r.refile t fun e => { e with session }) (· = moved ++ past))
      (followUp t d entry.session answer : Loop κ Unit)
      fun o v => o = .ok () ∧ Served r others traffic past t calls v := by
  obtain ⟨hs₁, hsockets₁, hg₁, -⟩ :=
    Registry.modify_of_get? ha.registry hg (fun e => { e with session }) rfl
  have hheld : (r.refile t fun e => { e with session }).held = r.held := by
    change r.listener :: (r.registry.modify t _).sockets = r.held
    rw [hsockets₁]
    rfl
  have hfollow : Triple (On (r.refile t fun e => { e with session }) fun after =>
      after = moved ++ past ∧ Ledger ((r.refile t fun e => { e with session }).held ++ others)
        (Ledger.booked traffic t.fd now) after)
      (followUp t d entry.session answer : Loop κ Unit) _ :=
    Reactor.triple_followUp hs₁ hg₁ hx.bytesIn hx.bytesOut d answer
  refine hfollow.weaken (fun v _ h => ?_) fun o v _ ⟨ho, h⟩ => ⟨ho, ?_⟩
  · refine ⟨h.1, h.2, ?_⟩
    rw [hheld, show v.past = moved ++ past from h.2]
    exact hx.ledger
  · split at h
    · exact hx.hungUp ha hg haway h
    · rename_i hi
      obtain ⟨hended, hwants⟩ := hanswer (Bool.eq_false_iff.mpr hi)
      exact hx.kept ha hg haway hended hwants h

/-- What it takes to serve one direction of a connection. -/
theorem triple_serve (hl : Ledger (r.held ++ others) traffic past) (ha : r.Accounts traffic)
    (hg : r.registry.get? t = some entry) (hlaw : Lawful past) (d : Direction) :
    Triple (On r (· = past)) (serve t d : Loop κ Unit) fun o v => o = .ok () ∧
      Served r others traffic past t (handlerCalls r.settings.receiveChunk entry d) v := by
  generalize hcalls : handlerCalls r.settings.receiveChunk entry d = calls
  have haway : t.fd ∉ others := by
    have hheld := ha.filed.mem_held (Registry.entryAt_of_get? hg)
    have hnodup := List.nodup_append.mp (hl.nodup hlaw)
    exact fun hm => hnodup.2.2 t.fd hheld t.fd hm rfl
  have hafter : ∀ answer, Triple (fun v => ∃ session now moved,
        (Exchanged r others traffic past t entry calls session now moved ∧
          ((interestAfter answer).isEmpty = false →
            now.ended = false ∧ (calls ≠ [] → interestAfter answer = session.wants))) ∧
        v.On (r.refile t fun e => { e with session }) (· = moved ++ past))
      (followUp t d entry.session answer : Loop κ Unit)
      fun o v => o = .ok () ∧ Served r others traffic past t calls v := fun answer =>
    Triple.ofExists fun _ => Triple.ofExists fun _ => Triple.ofExists fun _ =>
      Triple.assume (tame_followUp t d _ _).grows fun ⟨hx, hanswer⟩ =>
        hx.triple_followUp ha hg haway hanswer d
  refine triple_look (tame_serve t d) ?_
  rw [hg]
  refine Triple.attempt_bind (triple_exchange hl ha hg d) (fun i => ?_) (fun e => ?_)
    (fun _ _ ⟨_, _, _, _, h, _⟩ => h.elim)
  · refine (hafter (.ok i)).strengthen fun v _ ⟨session, now, moved, hx, hi, hv⟩ => ?_
    rw [hcalls] at hx hi
    refine ⟨session, now, moved, ⟨hx, fun hne => ?_⟩, hv⟩
    rcases hi with hi | hi
    · rw [hi] at hne
      cases hne
    · exact hi.2
  · refine (hafter (.error e)).strengthen fun v _ ⟨session, now, moved, hx, _, hv⟩ => ?_
    rw [hcalls] at hx
    exact ⟨session, now, moved, ⟨hx, nofun⟩, hv⟩

end SpanEcho.Reactor

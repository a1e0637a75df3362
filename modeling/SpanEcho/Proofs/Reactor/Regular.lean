import SpanEcho.Proofs.Reactor.Counting

/-!
# What no kernel can upset

Some of what is true of a reactor rests on nothing that a kernel replies. Its registry is sound, no
connection is kept without an interest, none is filed above the highest descriptor, and the
connections that are live are those accepted and not closed again. A connection that an odd kernel
hands out under the descriptor of the listener is never served, so it stays as it was filed.

`Tended` says what serving under one descriptor may change, and `Continued` what any step may.
-/

namespace SpanEcho

open SpanEcho.Action Loop Reactor

/-- The call is none to accept a connection. -/
def Call.AcceptsNothing (c : Call) : Prop :=
  ∀ listener, c ≠ .accept listener

theorem Call.Quiet.acceptsNothing {c : Call} (h : c.Quiet) : c.AcceptsNothing := by
  rintro listener rfl
  exact h

/-- What is true of a reactor whatever a kernel replies. -/
structure Reactor.Regular (r : Reactor) : Prop where
  sound : r.registry.Sound
  asking : ∀ fd entry, r.registry.entryAt fd = some entry → entry.interest.isEmpty = false
  bounded : ∀ fd entry, r.registry.entryAt fd = some entry → fd ≤ r.registry.highest
  /-- What is filed under the descriptor of the listener is as it was filed. -/
  own : ∀ entry, r.registry.entryAt r.listener = some entry → entry.interest = .write
  balanced : r.tally.accepts = r.tally.closes + r.registry.live

namespace Reactor

variable {r r' : Reactor}

theorem regular_fresh (listener : Descriptor) (m : Multiplexor) (s : Settings) :
    (fresh listener m s).Regular :=
  ⟨Registry.sound_empty _, nofun, nofun, nofun, rfl⟩

/-- What has to do with neither connections nor their number changes nothing. -/
theorem Regular.alike (h : r.Regular) (ha : r.Alike r')
    (haccepts : r'.tally.accepts = r.tally.accepts)
    (hcloses : r'.tally.closes = r.tally.closes) : r'.Regular where
  sound := by rw [ha.registry]; exact h.sound
  asking := by rw [ha.registry]; exact h.asking
  bounded := by rw [ha.registry]; exact h.bounded
  own := by rw [ha.registry, ha.listener]; exact h.own
  balanced := by rw [haccepts, hcloses, ha.registry]; exact h.balanced

/-- A newcomer is filed with an interest, and counted. -/
theorem Regular.enrolled (h : r.Regular) {fd : Descriptor} {t : Ticket}
    (hinserted : (Registry.insert fd (r.newcomer fd) r.registry).1 = .ok t) :
    (r.enrolled fd).welcoming.Regular ∧
      (r.enrolled fd).registry.highest = max r.registry.highest fd := by
  obtain ⟨hsound, -, hentryAt⟩ := Registry.insert_ok h.sound hinserted
  have hhighest : (r.enrolled fd).registry.highest = max r.registry.highest fd := by
    have hafter := Registry.highest_after r.registry (.insert fd (r.newcomer fd))
    rwa [Registry.admits, hinserted] at hafter
  have hlive : (r.enrolled fd).registry.live = r.registry.live + 1 := by
    rw [Reactor.enrolled]
    rcases Registry.insert_cases fd (r.newcomer fd) r.registry with ⟨e, he⟩ | ⟨-, he⟩ <;>
      rw [he] at hinserted ⊢
    cases hinserted
  have hfiled : ∀ {x entry}, (r.enrolled fd).registry.entryAt x = some entry →
      x = fd ∧ entry = r.newcomer fd ∨ r.registry.entryAt x = some entry := by
    intro x entry hx
    rw [Reactor.enrolled, hentryAt] at hx
    split at hx
    · rename_i hxfd
      exact .inl ⟨hxfd, (Option.some.inj hx).symm⟩
    · exact .inr hx
  refine ⟨⟨hsound, fun x entry hx => ?_, fun x entry hx => ?_, fun entry hx => ?_, ?_⟩, hhighest⟩
  · rcases hfiled hx with ⟨-, rfl⟩ | hx
    · rfl
    · exact h.asking x entry hx
  · change x ≤ (r.enrolled fd).registry.highest
    rw [hhighest]
    rcases hfiled hx with ⟨rfl, -⟩ | hx
    · exact Int.le_max_right _ _
    · exact Int.le_trans (h.bounded x entry hx) (Int.le_max_left _ _)
  · rcases hfiled hx with ⟨-, rfl⟩ | hx
    · rfl
    · exact h.own entry hx
  · change r.tally.accepts + 1 = r.tally.closes + (r.enrolled fd).registry.live
    rw [hlive, h.balanced, Nat.add_assoc]

end Reactor

namespace Node

variable {κ α : Type} {n n' n'' : Node κ} {fd : Descriptor} {t : Ticket}

/-! ## Serving -/

/-- What serving under `fd` may change: the connection there, as long as it keeps an interest, and
the counters. It accepts nothing, and does nothing about a pause. -/
structure Tended (fd : Descriptor) (n n' : Node κ) : Prop where
  sound : n'.reactor.registry.Sound
  steady : n.reactor.Steady n'.reactor
  pause : n'.reactor.pausedUntil = n.reactor.pausedUntil
  highest : n'.reactor.registry.highest = n.reactor.registry.highest
  entries : ∀ x entry', n'.reactor.registry.entryAt x = some entry' →
    ∃ entry, n.reactor.registry.entryAt x = some entry ∧
      (entry'.interest = entry.interest ∨ x = fd ∧ entry'.interest.isEmpty = false)
  accepts : n'.reactor.tally.accepts = n.reactor.tally.accepts
  live : n'.reactor.tally.closes + n'.reactor.registry.live =
    n.reactor.tally.closes + n.reactor.registry.live
  calls : Added Call.AcceptsNothing n.world.past n'.world.past

theorem Tended.refl (h : n.reactor.registry.Sound) : Tended fd n n :=
  ⟨h, .refl _, rfl, rfl, fun _ entry he => ⟨entry, he, .inl rfl⟩, rfl, rfl, .refl _⟩

theorem Tended.trans (h : Tended fd n n') (h' : Tended fd n' n'') : Tended fd n n'' where
  sound := h'.sound
  steady := h.steady.trans h'.steady
  pause := h'.pause.trans h.pause
  highest := h'.highest.trans h.highest
  entries := fun x entry'' he => by
    obtain ⟨entry', hentry', hsame'⟩ := h'.entries x entry'' he
    obtain ⟨entry, hentry, hsame⟩ := h.entries x entry' hentry'
    refine ⟨entry, hentry, ?_⟩
    rcases hsame' with hsame' | hasks
    · rw [hsame']
      exact hsame
    · exact .inr hasks
  accepts := h'.accepts.trans h.accepts
  live := h'.live.trans h.live
  calls := h.calls.trans h'.calls

/-- What changes counters other than those of connections, with calls that accept nothing. -/
theorem Tended.of_alike (hs : n.reactor.registry.Sound) (ha : n.reactor.Alike n'.reactor)
    (hpause : n'.reactor.pausedUntil = n.reactor.pausedUntil)
    (haccepts : n'.reactor.tally.accepts = n.reactor.tally.accepts)
    (hcloses : n'.reactor.tally.closes = n.reactor.tally.closes)
    (hcalls : Added Call.AcceptsNothing n.world.past n'.world.past) :
    Tended fd n n' where
  sound := by rw [ha.registry]; exact hs
  steady := ha.steady
  pause := hpause
  highest := by rw [ha.registry]
  entries := fun _ entry he => ⟨entry, by rwa [ha.registry] at he, .inl rfl⟩
  accepts := haccepts
  live := by rw [hcloses, ha.registry]
  calls := hcalls

/-- What changes the connection of a ticket, which keeps an interest. -/
theorem Tended.of_refile (hs : n.reactor.registry.Sound) {f : Entry Descriptor → Entry Descriptor}
    (hr : n'.reactor = n.reactor.refile t f)
    (hf : ∀ entry, (f entry).interest = entry.interest ∨ (f entry).interest.isEmpty = false)
    (hcalls : Added Call.AcceptsNothing n.world.past n'.world.past) :
    Tended t.fd n n' where
  sound := by rw [hr]; exact Registry.sound_modify hs t f
  steady := by rw [hr]; exact ⟨rfl, rfl, rfl⟩
  pause := by rw [hr]; rfl
  highest := by rw [hr]; exact Registry.highest_after n.reactor.registry (.modify t f)
  entries := fun x entry' he => by
    rw [hr] at he
    by_cases hx : x = t.fd
    · obtain ⟨entry, hentry, hsame⟩ := Registry.entryAt_of_modify hs he
      refine ⟨entry, hentry, ?_⟩
      rcases hsame with rfl | rfl
      · exact .inl rfl
      · exact (hf entry).imp_right fun hasks => ⟨hx, hasks⟩
    · have hslot := Registry.slotAt_modify_of_ne hs t f hx
      refine ⟨entry', ?_, .inl rfl⟩
      rw [← he, Registry.entryAt, Registry.entryAt]
      exact congrArg Slot.entry hslot.symm
  accepts := by rw [hr]; rfl
  live := by
    rw [hr]
    change _ + (n.reactor.registry.modify t f).live = _
    unfold Registry.modify
    cases n.reactor.registry.get? t <;> rfl
  calls := hcalls

variable [Kernel κ]

theorem tended_hangUp (hs : n.reactor.registry.Sound) (t : Ticket) :
    Tended t.fd n (hangUp t n).2 := by
  cases hg : n.reactor.registry.get? t with
  | none =>
    rw [hangUp_stale hg]
    exact .refl hs
  | some entry =>
    obtain ⟨n', hn', hr, hpast⟩ := hangUp_apply hs hg
    obtain ⟨hlive, -, hsound, -, hentryAt⟩ := Registry.remove?_of_get? hs hg
    rw [hn']
    refine ⟨?_, ?_, ?_, ?_, fun x entry' he => ?_, ?_, ?_, ?_⟩
    · rw [hr]; exact hsound
    · rw [hr]; exact ⟨rfl, rfl, rfl⟩
    · rw [hr]; rfl
    · rw [hr]; exact Registry.highest_after n.reactor.registry (.remove t)
    · rw [hr] at he
      have he' := (hentryAt x).symm.trans he
      split at he'
      · cases he'
      · exact ⟨entry', he', .inl rfl⟩
    · rw [hr]
    · rw [hr]
      have hless : (n.reactor.registry.remove? t).2.live = n.reactor.registry.live - 1 := by
        rw [Registry.remove?, hg]
      change n.reactor.tally.closes + 1 + (n.reactor.registry.remove? t).2.live = _
      omega
    · rw [hpast]
      refine .single fun _ h => ?_
      cases h

/-- Put together from actions that tend to what is under `fd` alone. -/
abbrev Tending (fd : Descriptor) (m : Loop κ α) : Prop :=
  Composed (fun _ m => ∀ n : Node κ, n.reactor.registry.Sound → Tended fd n (m n).2) m

omit [Kernel κ] in
theorem Tending.tended {m : Loop κ α} (hm : Tending fd m) (hs : n.reactor.registry.Sound) :
    Tended fd n (m n).2 :=
  Composed.along (R := fun n n' : Node κ => n.reactor.registry.Sound → Tended fd n n')
    (fun _ => .refl) (fun _ _ _ h h' hs => (h hs).trans (h' (h hs).sound)) hm
    (fun _ _ hb => hb) n hs

omit [Kernel κ] in
theorem tending_reactor : Tending fd (Loop.reactor : Loop κ Reactor) :=
  .basic fun _ => .refl

omit [Kernel κ] in
theorem tending_log (level : Log.Level) (text : String) :
    Tending fd (Loop.log level text : Loop κ Unit) :=
  .basic fun n hs => by
    have hpast : (n.world.write ⟨some level, text⟩).past = n.world.past := World.write_past _ _
    exact .of_alike hs (.refl _) rfl rfl rfl (hpast ▸ .refl _)

omit [Kernel κ] in
theorem tending_count {f : Tally → Tally} (haccepts : ∀ t, (f t).accepts = t.accepts)
    (hcloses : ∀ t, (f t).closes = t.closes) : Tending fd (Loop.count f : Loop κ Unit) :=
  .basic fun _ hs => .of_alike hs ⟨rfl, rfl, rfl, rfl⟩ rfl (haccepts _) (hcloses _) (.refl _)

theorem tending_exchange (t : Ticket) (entry : Entry Descriptor) (d : Direction) :
    Tending t.fd (exchange t entry d : Loop κ Interest) := by
  refine .basic fun n hs => ?_
  obtain ⟨session, hr⟩ : ∃ session, (exchange t entry d n).2.reactor =
      n.reactor.refile t fun e => { e with session } := ⟨_, rfl⟩
  refine .of_refile hs hr (fun _ => .inl rfl) ?_
  rcases exchange_world t entry d n with hw | ⟨c, hc, hw⟩
  · rw [hw]
    exact .refl _
  · rw [hw, World.call_past]
    refine .single fun listener (he : c = _) => ?_
    rw [he] at hc
    cases hc

theorem tending_keep (t : Ticket) (interest : Interest) :
    Tending t.fd (keep t interest : Loop κ Unit) := by
  unfold keep
  split
  · exact .basic fun _ hs => tended_hangUp hs t
  · rename_i hasks
    exact .basic fun _ hs =>
      .of_refile hs rfl (fun _ => .inr (Bool.not_eq_true _ ▸ hasks)) (.refl _)

omit [Kernel κ] in
theorem tending_countTraffic (t : Ticket) (old : Session) :
    Tending fd (countTraffic t old : Loop κ Unit) := by
  refine .bind tending_reactor fun r => ?_
  split
  · exact .pure ()
  · split
    · exact .stop _
    · exact tending_count (fun _ => rfl) fun _ => rfl

omit [Kernel κ] in
theorem tending_verdict (t : Ticket) (answer : Except Failure Interest) :
    Tending fd (verdict t answer : Loop κ Interest) := by
  cases answer with
  | ok interest => exact .pure interest
  | error why =>
    exact .bind (tending_log _ _) fun _ =>
      .bind (tending_count (fun _ => rfl) fun _ => rfl) fun _ => .pure _

theorem tending_serve (t : Ticket) (d : Direction) : Tending t.fd (serve t d : Loop κ Unit) := by
  refine .bind tending_reactor fun r => ?_
  split
  · exact .pure ()
  · exact .bind (.attempt (tending_exchange t _ d)) fun answer =>
      .bind (tending_countTraffic t _) fun _ => .bind (tending_verdict t answer) fun _ =>
        .bind (tending_log _ _) fun _ => tending_keep t _

/-- A ready connection is tended to, and nothing else. -/
theorem tended_dispatch {ready : Readiness} (hne : ready.fd ≠ n.reactor.listener)
    (hs : n.reactor.registry.Sound) : Tended ready.fd n (dispatch ready n).2 := by
  cases hf : n.reactor.registry.find? ready.fd with
  | none =>
    rw [dispatch_missing hne hf]
    exact .refl hs
  | some t =>
    rw [dispatch_found hne hf, ← Registry.fd_of_find? hf]
    have hboth : Tending t.fd (serveReady t ready : Loop κ Unit) :=
      .bind (.when (tending_serve t .receive)) fun _ => .when (tending_serve t .send)
    exact hboth.tended hs

omit [Kernel κ] in
theorem Tended.regular (h : Tended fd n n') (hne : fd ≠ n.reactor.listener)
    (hr : n.reactor.Regular) : n'.reactor.Regular where
  sound := h.sound
  asking := fun x entry' he => by
    obtain ⟨entry, hentry, hsame | ⟨-, hasks⟩⟩ := h.entries x entry' he
    · rw [hsame]
      exact hr.asking x entry hentry
    · exact hasks
  bounded := fun x entry' he => by
    obtain ⟨entry, hentry, -⟩ := h.entries x entry' he
    rw [h.highest]
    exact hr.bounded x entry hentry
  own := fun entry' he => by
    rw [h.steady.listener] at he
    obtain ⟨entry, hentry, hsame | ⟨hlistener, -⟩⟩ := h.entries _ entry' he
    · rw [hsame]
      exact hr.own entry hentry
    · exact absurd hlistener.symm hne
  balanced := by rw [h.accepts, h.live, hr.balanced]

/-! ## Steps -/

/-- What any step may make of a reactor. -/
structure Continued (n n' : Node κ) : Prop where
  steady : n.reactor.Steady n'.reactor
  highest : n.reactor.registry.highest ≤ n'.reactor.registry.highest
  regular : n'.reactor.Regular

omit [Kernel κ] in
theorem Continued.trans (h : Continued n n') (h' : Continued n' n'') : Continued n n'' :=
  ⟨h.steady.trans h'.steady, Int.le_trans h.highest h'.highest, h'.regular⟩

omit [Kernel κ] in
theorem Continued.of_alike (hr : n.reactor.Regular) (ha : n.reactor.Alike n'.reactor)
    (haccepts : n'.reactor.tally.accepts = n.reactor.tally.accepts)
    (hcloses : n'.reactor.tally.closes = n.reactor.tally.closes) : Continued n n' :=
  ⟨ha.steady, by rw [ha.registry], hr.alike ha haccepts hcloses⟩

omit [Kernel κ] in
theorem Idle.continued (h : Idle n n') (hr : n.reactor.Regular) : Continued n n' :=
  .of_alike hr h.alike (by rw [h.tally]) (by rw [h.tally])

theorem continued_await (plan : Plan) (hr : n.reactor.Regular) : Continued n (await plan n).2 := by
  obtain ⟨hcounts, halike, -⟩ := counts_await plan n
  exact .of_alike hr halike (by rw [hcounts.tally]; rfl) (by rw [hcounts.tally]; rfl)

theorem continued_wait (hr : n.reactor.Regular) : Continued n ((prepare >>= await) n).2 := by
  have hidle := (idling_prepare (κ := κ)).idle n
  obtain ⟨plan, n₁, hprepare⟩ := sure_prepare n
  rw [hprepare] at hidle
  have hfirst := hidle.continued hr
  rw [bind_of_ok hprepare]
  exact hfirst.trans (continued_await plan hfirst.regular)

omit [Kernel κ] in
theorem Noted.continued {past : List Event} {why : Failure} (h : Noted n.reactor past why n')
    (hr : n.reactor.Regular) : Continued n n' := by
  cases h with
  | passed _ reactor => exact .of_alike hr (reactor ▸ .refl _) (by rw [reactor]) (by rw [reactor])
  | counted _ reactor =>
    exact .of_alike hr (reactor ▸ ⟨rfl, rfl, rfl, rfl⟩) (by rw [reactor]; rfl)
      (by rw [reactor]; rfl)

omit [Kernel κ] in
theorem Reception.continued {e : Event} {o : Outcome Unit} (h : Reception n e o n')
    (hr : n.reactor.Regular) : Continued n n' := by
  cases h with
  | failed _ _ noted => exact noted.continued hr
  | unsealed _ _ _ noted => exact noted.continued hr
  | sealed _ _ enrolling =>
    cases enrolling with
    | blocking _ _ reactor =>
      exact .of_alike hr (reactor ▸ ⟨rfl, rfl, rfl, rfl⟩) (by rw [reactor]; rfl)
        (by rw [reactor]; rfl)
    | turnedAway _ _ _ _ reactor =>
      exact .of_alike hr (reactor ▸ .refl _) (by rw [reactor]) (by rw [reactor])
    | filed _ _ inserted reactor =>
      obtain ⟨t, hinserted⟩ := inserted
      obtain ⟨hregular, hhighest⟩ := hr.enrolled hinserted
      rw [← reactor] at hregular
      refine ⟨reactor ▸ ⟨rfl, rfl, rfl⟩, ?_, hregular⟩
      rw [reactor]
      exact (Int.le_max_left _ _).trans (Int.le_of_eq hhighest.symm)

theorem continued_dispatch (ready : Readiness) (hr : n.reactor.Regular) :
    Continued n (dispatch ready n).2 := by
  by_cases he : ready.fd = n.reactor.listener
  · rw [dispatch_listener he]
    cases ready.readable with
    | true => exact (reception_acceptOne n).continued hr
    | false => exact ⟨.refl _, Int.le_refl _, hr⟩
  · have htended := tended_dispatch he hr.sound
    exact ⟨htended.steady, Int.le_of_eq htended.highest.symm, htended.regular he hr⟩

theorem continued_dispatchAll (due : List Readiness) (hr : n.reactor.Regular) :
    Continued n (Reactor.dispatchAll due n).2 := by
  induction due generalizing n with
  | nil => exact ⟨.refl _, Int.le_refl _, hr⟩
  | cons ready due ih =>
    have hfirst := continued_dispatch ready hr
    rw [Reactor.dispatchAll, bind_apply]
    split <;> rename_i heq <;> rw [heq] at hfirst
    · exact hfirst.trans (ih hfirst.regular)
    · exact hfirst
    · exact hfirst

theorem continued_complete (plan : Plan) (hr : n.reactor.Regular) :
    Continued n (complete plan n).2 := by
  have hfirst := continued_await plan hr
  rw [complete, bind_apply]
  split <;> rename_i heq <;> rw [heq] at hfirst
  · rename_i ready n₁
    have hall := continued_dispatchAll ready hfirst.regular
    rw [bind_apply]
    split <;> rename_i hdue <;> rw [hdue] at hall <;> exact hfirst.trans hall
  · exact hfirst
  · exact hfirst

variable {n₀ : Node κ} {due : List Readiness}

/-- What is true whatever a kernel replies stays true. -/
theorem Reaches.continued (h : n₀.Reaches n due) (hr : n₀.reactor.Regular) : Continued n₀ n := by
  induction h with
  | here => exact ⟨.refl _, Int.le_refl _, hr⟩
  | start _ ih => exact ih.trans ((idling_start.idle _).continued ih.regular)
  | wait _ ih => exact ih.trans (continued_wait ih.regular)
  | dispatch _ ih => exact ih.trans (continued_dispatch _ ih.regular)
  | report _ last ih => exact ih.trans (((idling_report last).idle _).continued ih.regular)
  | finish _ ih => exact ih.trans ((idling_finish.idle _).continued ih.regular)

end Node

open Node

variable {κ : Type} [Kernel κ] {m : Multiplexor} {s : Settings} {n₀ n : Node κ}
  {due : List Readiness}

/-- A started reactor is regular in every state it comes to, whatever the kernel replies. -/
theorem Starting.regular_of_reaches (hstart : Starting m s n₀) (hreach : n₀.Reaches n due) :
    n.reactor.Regular := by
  obtain ⟨listener, hfresh, -⟩ := hstart.made
  exact (hreach.continued (hfresh ▸ regular_fresh listener m s)).regular

end SpanEcho

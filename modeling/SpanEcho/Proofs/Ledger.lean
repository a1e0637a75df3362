import SpanEcho.Proofs.Triple

/-!
# Who holds which descriptors

A `Ledger` says which descriptors are open, in the order in which somebody holds them, and what
passed over each. Every call has a rule that says how the ledger goes on; the functions on sockets
have the rules that follow. A function that opens a descriptor either hands it over to its caller
or has closed it again.
-/

namespace SpanEcho

/-- The descriptors that are open are exactly those held, with the traffic of each; no call named
another one, and no peer was ever sent anything but the beginning of its stream. -/
structure Ledger (held : List Descriptor) (traffic : Descriptor → Traffic) (past : List Event) :
    Prop where
  opens : (openAfter past).Perm held
  orderly : Orderly past
  truthful : ∀ earlier, earlier <:+ past → ∀ fd, (trafficOn fd earlier).Truthful
  traffic : ∀ fd ∈ held, trafficOn fd past = traffic fd

/-- There is a ledger with these descriptors. -/
def Holds (held : List Descriptor) (past : List Event) : Prop :=
  ∃ traffic, Ledger held traffic past

/-- The event opens and closes nothing, and no bytes move with it. -/
structure Event.Idle (e : Event) : Prop where
  opened : e.opened? = none
  closed : e.closed? = none
  still : ∀ fd, e.Still fd

namespace Event

variable {e : Event} {fd : Descriptor}

theorem idle_of_quiet (h : e.call.Quiet) : e.Idle := by
  obtain ⟨thread, call, reply, arrivals⟩ := e
  cases call <;>
    first
    | exact h.elim
    | exact ⟨rfl, rfl, fun x => ⟨(Option.some_ne_none x).symm, rfl, rfl, rfl, rfl⟩⟩

/-- A call that hands out descriptors moves no bytes, so it is idle when it handed out none. -/
theorem idle_of_unopened (hc : e.call = .socket ∨ ∃ listener, e.call = .accept listener)
    (ho : e.opened? = none) : e.Idle := by
  have hne : ∀ x, e.opened? ≠ some x := fun x => ho ▸ (Option.some_ne_none x).symm
  obtain ⟨thread, call, reply, arrivals⟩ := e
  obtain rfl | ⟨listener, rfl⟩ := hc
  · exact ⟨ho, rfl, fun x => ⟨hne x, rfl, rfl, rfl, rfl⟩⟩
  · exact ⟨ho, rfl, fun x => ⟨hne x, rfl, rfl, rfl, rfl⟩⟩

theorem still_of_closed (h : e.closed? = some fd) (x : Descriptor) : e.Still x := by
  obtain ⟨thread, call, reply, arrivals⟩ := e
  cases call <;> simp [closed?] at h
  exact ⟨(Option.some_ne_none x).symm, rfl, rfl, rfl, rfl⟩

theorem opened?_of_closed? (h : e.closed? = some fd) : e.opened? = none := by
  cases ho : e.opened? with
  | none => rfl
  | some x => exact absurd (closed?_of_opened? ho) (by simp [h])

/-- An event that hands out nothing is about the descriptors it names alone. -/
theorem still_of_names {x : Descriptor} (hx : x ∉ e.call.names) (ho : e.opened? ≠ some x) :
    e.Still x := by
  obtain ⟨thread, call, reply, arrivals⟩ := e
  cases call with
  | receive source room =>
    have hne : source ≠ x := fun he => hx (by simp [Call.names, he])
    have hasks : asks x ⟨thread, .receive source room, reply, arrivals⟩ = false := by
      simpa [asks] using hne
    cases reply with
    | ok bytes => exact ⟨(Option.some_ne_none x).symm, if_neg hne, rfl, hasks, by simp [ends, hne]⟩
    | failed errno => exact ⟨(Option.some_ne_none x).symm, rfl, rfl, hasks, rfl⟩
    | notOpen => exact ⟨(Option.some_ne_none x).symm, rfl, rfl, hasks, rfl⟩
  | send target bytes flags =>
    have hne : target ≠ x := fun he => hx (by simp [Call.names, he])
    cases reply with
    | ok count => exact ⟨(Option.some_ne_none x).symm, rfl, if_neg hne, rfl, rfl⟩
    | failed errno => exact ⟨(Option.some_ne_none x).symm, rfl, rfl, rfl, rfl⟩
    | notOpen => exact ⟨(Option.some_ne_none x).symm, rfl, rfl, rfl, rfl⟩
  | _ => exact ⟨ho, rfl, rfl, rfl, rfl⟩

/-- Nothing moves with an event that hands out a descriptor. -/
theorem still_of_opened (h : e.opened? = some fd) {x : Descriptor} (hx : x ≠ fd) : e.Still x := by
  have hne : e.opened? ≠ some x := fun he => hx (Option.some.inj (he.symm.trans h))
  obtain ⟨thread, call, reply, arrivals⟩ := e
  cases call <;>
    first
    | exact ⟨hne, rfl, rfl, rfl, rfl⟩
    | simp [opened?] at h

end Event

namespace Ledger

variable {held held' : List Descriptor} {traffic traffic' : Descriptor → Traffic}
  {past : List Event} {e : Event} {fd : Descriptor}

theorem empty (traffic : Descriptor → Traffic) : Ledger [] traffic [] where
  opens := List.Perm.refl _
  orderly := trivial
  truthful := by
    intro earlier hs fd
    rw [List.suffix_nil.mp hs]
    exact Traffic.truthful_empty
  traffic := by simp

theorem perm (h : Ledger held traffic past) (hp : held.Perm held') : Ledger held' traffic past :=
  { h with
    opens := h.opens.trans hp
    traffic := fun fd hfd => h.traffic fd (hp.mem_iff.mpr hfd) }

theorem congr (h : Ledger held traffic past) (ht : ∀ fd ∈ held, traffic fd = traffic' fd) :
    Ledger held traffic' past :=
  { h with traffic := fun fd hfd => (h.traffic fd hfd).trans (ht fd hfd) }

theorem mem_open (h : Ledger held traffic past) : fd ∈ openAfter past ↔ fd ∈ held :=
  h.opens.mem_iff

theorem nodup (h : Ledger held traffic past) (hlaw : Lawful past) : held.Nodup :=
  h.opens.nodup_iff.mp (nodup_openAfter hlaw)

theorem orderly_cons (h : Ledger held traffic past) (hn : ∀ fd ∈ e.call.names, fd ∈ held) :
    Orderly (e :: past) :=
  ⟨fun fd hfd => h.mem_open.mpr (hn fd hfd), h.orderly⟩

theorem truthful_cons (h : Ledger held traffic past)
    (ht : ∀ fd, (trafficOn fd (e :: past)).Truthful) :
    ∀ earlier, earlier <:+ e :: past → ∀ fd, (trafficOn fd earlier).Truthful := by
  intro earlier hs
  rcases List.suffix_cons_iff.mp hs with rfl | hs
  · exact ht
  · exact h.truthful earlier hs

theorem truthful_now (h : Ledger held traffic past) (fd : Descriptor) :
    (trafficOn fd past).Truthful :=
  h.truthful past List.suffix_rfl fd

theorem idle (h : Ledger held traffic past) (he : e.Idle) (hn : ∀ fd ∈ e.call.names, fd ∈ held) :
    Ledger held traffic (e :: past) where
  opens := by
    rw [openAfter_of_idle he.opened he.closed]
    exact h.opens
  orderly := h.orderly_cons hn
  truthful := h.truthful_cons fun fd => by
    rw [trafficOn_of_still (he.still fd)]
    exact h.truthful_now fd
  traffic := fun fd hfd => by
    rw [trafficOn_of_still (he.still fd)]
    exact h.traffic fd hfd

/-- A closed descriptor leaves the ledger. -/
theorem close (h : Ledger (fd :: held) traffic past) (hlaw : Lawful past)
    (hc : e.closed? = some fd) (hn : e.call.names = [fd]) : Ledger held traffic (e :: past) where
  opens := by
    have hfd : fd ∉ held := (List.nodup_cons.mp (h.nodup hlaw)).1
    have hrest : (fd :: held).filter (· ≠ fd) = held := by
      rw [List.filter_cons_of_neg (by simp), List.filter_eq_self]
      intro x hx
      have hne : x ≠ fd := fun he => hfd (he ▸ hx)
      simpa using hne
    rw [openAfter_of_closed (Event.opened?_of_closed? hc) hc, ← hrest]
    exact h.opens.filter _
  orderly := h.orderly_cons (by simp [hn])
  truthful := h.truthful_cons fun x => by
    rw [trafficOn_of_still (Event.still_of_closed hc x)]
    exact h.truthful_now x
  traffic := fun x hx => by
    rw [trafficOn_of_still (Event.still_of_closed hc x)]
    exact h.traffic x (List.mem_cons_of_mem fd hx)

/-- The traffic with `t` for what passed over `fd`. -/
def booked (traffic : Descriptor → Traffic) (fd : Descriptor) (t : Traffic) :
    Descriptor → Traffic :=
  fun x => if x = fd then t else traffic x

theorem booked_self (traffic : Descriptor → Traffic) (fd : Descriptor) (t : Traffic) :
    booked traffic fd t fd = t :=
  if_pos rfl

theorem booked_of_ne {x : Descriptor} (hx : x ≠ fd) (t : Traffic) :
    booked traffic fd t x = traffic x :=
  if_neg hx

/-- Once `fd` is gone, so is what was booked for it. -/
theorem unbooked {t : Traffic} (h : Ledger held (booked traffic fd t) past) (hfd : fd ∉ held) :
    Ledger held traffic past :=
  h.congr fun x hx => booked_of_ne (fun he : x = fd => hfd (he ▸ hx)) t

/-- An event about `fd` alone leaves the traffic of the others as it was. -/
theorem book (h : Ledger held traffic past) (hopens : (openAfter (e :: past)).Perm held')
    (hn : ∀ x ∈ e.call.names, x ∈ held) (hsub : ∀ x ∈ held', x = fd ∨ x ∈ held)
    (hother : ∀ x, x ≠ fd → e.Still x) (ht : (trafficOn fd (e :: past)).Truthful) :
    Ledger held' (booked traffic fd (trafficOn fd (e :: past))) (e :: past) where
  opens := hopens
  orderly := h.orderly_cons hn
  truthful := h.truthful_cons fun x => by
    by_cases hx : x = fd
    · rw [hx]
      exact ht
    · rw [trafficOn_of_still (hother x hx)]
      exact h.truthful_now x
  traffic := fun x hx => by
    by_cases hxf : x = fd
    · rw [hxf, booked_self]
    · rw [trafficOn_of_still (hother x hxf), booked_of_ne hxf]
      exact h.traffic x ((hsub x hx).resolve_left hxf)

/-- A descriptor that is handed out enters the ledger. -/
theorem handOut (h : Ledger held traffic past) (he : e.opened? = some fd)
    (hn : ∀ x ∈ e.call.names, x ∈ held) :
    Ledger (fd :: held) (booked traffic fd {}) (e :: past) := by
  have ht : trafficOn fd (e :: past) = {} := trafficOn_of_opened he
  have hopens : (openAfter (e :: past)).Perm (fd :: held) := by
    rw [openAfter_of_opened he]
    exact h.opens.cons fd
  have hb := h.book hopens hn (fun x hx => List.mem_cons.mp hx)
    (fun x hx => Event.still_of_opened he hx) (by rw [ht]; exact Traffic.truthful_empty)
  rwa [ht] at hb

end Ledger

/-! ## Calls and sockets -/

open SpanEcho.Action

theorem Sys.ends_ending {α : Type} {good : α → List Event → Prop} {bad : List Event → Prop}
    {operation : String} {answer : Answer α} {past : List Event}
    (hok : ∀ a, answer = .ok a → good a past) (hbad : (∀ a, answer ≠ .ok a) → bad past) :
    Outcome.Ends good bad (Sys.ending operation answer) past := by
  cases ho : Sys.ending operation answer with
  | ok a => exact hok a (Sys.ending_ok.mp ho)
  | failed e =>
    apply hbad
    intro a ha
    rw [Sys.ending_ok.mpr ha] at ho
    cases ho
  | defect d =>
    apply hbad
    intro a ha
    rw [Sys.ending_ok.mpr ha] at ho
    cases ho

variable {κ α : Type} [Kernel κ] {held : List Descriptor} {traffic : Descriptor → Traffic}

theorem Sys.keeps_ask {c : Call} {read : c.Reply → Answer α} (hq : c.Quiet)
    (hn : ∀ fd ∈ c.names, fd ∈ held) :
    Keeps (Ledger held traffic) (Sys.ask c read : Sys κ α) :=
  triple_ask fun _ _ _ _ h _ => h.idle (Event.idle_of_quiet hq) hn

theorem Sys.keeps_now : Keeps (Ledger held traffic) (Sys.now : Sys κ Duration) :=
  triple_call fun _ _ _ _ h _ => h.idle (Event.idle_of_quiet trivial) nofun

namespace Socket

theorem flawless_close (fd : Descriptor) : Flawless (Socket.close fd : Sys κ Unit) :=
  fun _ _ => nofun

theorem flawless_closeAll (fds : List Descriptor) :
    Flawless (Socket.closeAll fds : Sys κ Unit) := by
  induction fds with
  | nil => exact .pure ()
  | cons fd rest ih => exact .bind (flawless_close fd) fun _ => ih

theorem flawless_setCloseOnExec (fd : Descriptor) :
    Flawless (Socket.setCloseOnExec fd : Sys κ Unit) :=
  .bind (Sys.flawless_ask _ _) fun _ => Sys.flawless_ask _ _

theorem flawless_setNonBlocking (fd : Descriptor) :
    Flawless (Socket.setNonBlocking fd : Sys κ Unit) := by
  refine .bind (Sys.flawless_ask _ _) fun flags => ?_
  split
  · exact .pure ()
  · exact Sys.flawless_ask _ _

theorem flawless_accept (listener : Descriptor) :
    Flawless (Socket.accept listener : Sys κ (Descriptor × Option Endpoint)) := by
  refine .bind (Sys.flawless_ask _ _) fun accepted => Flawless.observe_bind ?_ ?_ ?_
  · exact .bind (flawless_setCloseOnExec _) fun _ => .pure _
  · exact fun a => .pure a
  · exact fun e => .bind (flawless_closeAll _) fun _ => .fail e

/-- To close is one call. -/
theorem triple_close_from (fd : Descriptor) (past : List Event) :
    Triple (fun now => now = past ∧ Ledger (fd :: held) traffic now) (Socket.close fd : Sys κ Unit)
      fun o now => o = .ok () ∧
        ∃ e : Event, e.call = .close fd ∧ now = e :: past ∧ Ledger held traffic now := by
  refine Triple.bind (Q := Outcome.Ends (fun _ now => ∃ e : Event, e.call = .close fd ∧
      now = e :: past ∧ Ledger held traffic now) fun _ => False)
    (Sys.triple_call ?_) (fun _ => Triple.pure fun _ _ h => ⟨rfl, h⟩) (fun _ _ h => h.elim)
    (fun _ _ h => h.elim)
  intro thread reply arrivals _ hs hlaw
  obtain ⟨rfl, h⟩ := hs
  exact ⟨_, rfl, rfl, h.close hlaw.2.2 rfl rfl⟩

theorem triple_close (fd : Descriptor) :
    Triple (Ledger (fd :: held) traffic) (Socket.close fd : Sys κ Unit)
      fun o past => o = .ok () ∧ Ledger held traffic past := by
  have hfrom : ∀ past, Triple (fun now => now = past ∧ Ledger (fd :: held) traffic now)
      (Socket.close fd : Sys κ Unit) _ := triple_close_from fd
  refine ⟨(hfrom []).grows, fun w h hlaw => ?_⟩
  obtain ⟨ho, _, _, _, hclosed⟩ := (hfrom w.past).ensures w ⟨rfl, h⟩ hlaw
  exact ⟨ho, hclosed⟩

theorem triple_closeAll (fds : List Descriptor) :
    Triple (Ledger (fds ++ held) traffic) (Socket.closeAll fds : Sys κ Unit)
      fun o past => o = .ok () ∧ Ledger held traffic past := by
  induction fds with
  | nil => exact Triple.pure fun _ _ h => ⟨rfl, h⟩
  | cons fd rest ih =>
    exact Triple.done_bind (triple_close fd) ih

/-- The descriptor that was booked last is closed, and its traffic forgotten. -/
theorem triple_close_booked (fd : Descriptor) (t : Traffic) :
    Triple (Ledger (fd :: held) (Ledger.booked traffic fd t)) (Socket.close fd : Sys κ Unit)
      fun o past => o = .ok () ∧ Ledger held traffic past := by
  have hclose : Triple (Ledger (fd :: held) (Ledger.booked traffic fd t))
      (Socket.close fd : Sys κ Unit)
      fun o past => o = .ok () ∧ Ledger held (Ledger.booked traffic fd t) past := triple_close fd
  refine (Triple.frame (φ := fd ∉ held) hclose).weaken (fun _ hlaw h => ?_) fun _ _ _ h => ?_
  · exact ⟨h, (List.nodup_cons.mp (h.nodup hlaw)).1⟩
  · exact ⟨h.1.1, h.1.2.unbooked h.2⟩

theorem triple_closeAll_booked (fd : Descriptor) (t : Traffic) :
    Triple (Ledger (fd :: held) (Ledger.booked traffic fd t)) (Socket.closeAll [fd] : Sys κ Unit)
      fun o past => o = .ok () ∧ Ledger held traffic past :=
  Triple.done_bind (triple_close_booked fd t) (Triple.pure fun _ _ h => ⟨rfl, h⟩)

theorem triple_closingOnFailure {fds : List Descriptor} {m : Sys κ α} {law : List Event → Prop}
    [Hereditary law] {P bad bad' : List Event → Prop} {good : α → List Event → Prop}
    (hm : Triple P m (Outcome.Ends good bad) law)
    (hclose : Triple bad (Socket.closeAll fds : Sys κ Unit) (fun o past => o = .ok () ∧ bad' past)
      law) :
    Triple P (Socket.closingOnFailure fds m) (Outcome.Ends good bad') law := by
  have hbad : ∀ o : Outcome α, (∀ a, o ≠ .ok a) → Triple bad (do
      Socket.closeAll fds
      Action.ofOutcome o : Sys κ α) (Outcome.Ends good bad') law := by
    intro o ho
    refine Triple.bind hclose (fun _ => ?_) (fun _ _ h => nomatch h.1) (fun _ _ h => nomatch h.1)
    apply Triple.ofOutcome
    intro _ _ h
    cases o with
    | ok a => exact absurd rfl (ho a)
    | failed e => exact h.2
    | defect d => exact h.2
  apply Triple.observe_bind hm
  intro o
  cases o with
  | ok a => exact Triple.pure fun _ _ h => h
  | failed e => exact hbad _ nofun
  | defect d => exact hbad _ nofun

theorem keeps_setCloseOnExec {fd : Descriptor} (hfd : fd ∈ held) :
    Keeps (Ledger held traffic) (Socket.setCloseOnExec fd : Sys κ Unit) :=
  Keeps.bind (Sys.keeps_ask trivial (by simpa [Call.names] using hfd)) fun _ =>
    Sys.keeps_ask trivial (by simpa [Call.names] using hfd)

theorem keeps_setNonBlocking {fd : Descriptor} (hfd : fd ∈ held) :
    Keeps (Ledger held traffic) (Socket.setNonBlocking fd : Sys κ Unit) := by
  refine Keeps.bind (Sys.keeps_ask trivial (by simpa [Call.names] using hfd)) fun flags => ?_
  split
  · exact Triple.pure fun _ _ h => h
  · exact Sys.keeps_ask trivial (by simpa [Call.names] using hfd)

theorem keeps_setOption {fd : Descriptor} {option : SocketOption} (hfd : fd ∈ held) :
    Keeps (Ledger held traffic) (Socket.setOption fd option : Sys κ Unit) :=
  Sys.keeps_ask trivial (by simpa [Call.names] using hfd)

theorem keeps_localAddress {fd : Descriptor} (hfd : fd ∈ held) :
    Keeps (Ledger held traffic) (Socket.localAddress fd : Sys κ Endpoint) := by
  refine Keeps.bind (Sys.keeps_ask trivial (by simpa [Call.names] using hfd)) fun name => ?_
  split
  · exact Triple.pure fun _ _ h => h
  · exact Triple.fail fun _ _ h => h

/-- A listening socket is handed over, or closed again. -/
theorem triple_listenOn (port : Nat) (backlog : Int) (reusePort : Bool) :
    Triple (Ledger held traffic) (Socket.listenOn port backlog reusePort : Sys κ Descriptor)
      (Outcome.Ends (fun fd => Ledger (fd :: held) (Ledger.booked traffic fd {}))
        (Ledger held traffic)) := by
  refine Triple.bind (Q := Outcome.Ends
      (fun number : Nat => Ledger ((number : Int) :: held) (Ledger.booked traffic number {}))
      (Ledger held traffic))
    (Sys.triple_ask fun thread reply arrivals past h hlaw => Sys.ends_ending ?_ ?_) fun number => ?_
  · rintro number rfl
    exact h.handOut rfl nofun
  · intro hno
    cases reply with
    | ok number => exact absurd rfl (hno number)
    | failed errno => exact h.idle (Event.idle_of_unopened (.inl rfl) rfl) nofun
    | notOpen => exact h.idle (Event.idle_of_unopened (.inl rfl) rfl) nofun
  · have hfd : (number : Int) ∈ (number : Int) :: held := List.mem_cons_self
    refine triple_closingOnFailure ?_ (triple_closeAll_booked number {})
    refine Triple.bind (keeps_setCloseOnExec hfd) (fun _ => ?_)
    refine Triple.bind (keeps_setOption hfd) (fun _ => ?_)
    refine Triple.bind (Triple.when (keeps_setOption hfd) fun _ _ h => h) (fun _ => ?_)
    refine Triple.bind (Sys.keeps_ask trivial (by simp [Call.names])) (fun _ => ?_)
    refine Triple.bind (Sys.keeps_ask trivial (by simp [Call.names])) (fun _ => ?_)
    exact Triple.pure fun _ _ h => h

/-- An accepted socket is handed over, or closed again. -/
theorem triple_accept {listener : Descriptor} (hl : listener ∈ held) :
    Triple (Ledger held traffic) (Socket.accept listener : Sys κ (Descriptor × Option Endpoint))
      (Outcome.Ends (fun accepted =>
          Ledger (accepted.1 :: held) (Ledger.booked traffic accepted.1 {}))
        (Ledger held traffic)) := by
  refine Triple.bind (Q := Outcome.Ends
      (fun a : Nat × SocketName => Ledger ((a.1 : Int) :: held) (Ledger.booked traffic a.1 {}))
      (Ledger held traffic))
    (Sys.triple_ask fun thread reply arrivals past h hlaw => Sys.ends_ending ?_ ?_) fun a => ?_
  · rintro ⟨number, name⟩ rfl
    exact h.handOut rfl (by simpa [Call.names] using hl)
  · intro hno
    have hn : ∀ x ∈ [listener], x ∈ held := by simpa using hl
    cases reply with
    | ok a => exact absurd rfl (hno a)
    | failed errno => exact h.idle (Event.idle_of_unopened (.inr ⟨listener, rfl⟩) rfl) hn
    | notOpen => exact h.idle (Event.idle_of_unopened (.inr ⟨listener, rfl⟩) rfl) hn
  · obtain ⟨number, name⟩ := a
    refine triple_closingOnFailure ?_ (triple_closeAll_booked number {})
    refine Triple.bind (keeps_setCloseOnExec List.mem_cons_self) (fun _ => ?_)
    exact Triple.pure fun _ _ h => h

/-! ### Whatever the traffic -/

omit [Kernel κ] in
theorem holds_keeps {m : Sys κ α} (h : ∀ traffic, Keeps (Ledger held traffic) m) :
    Keeps (Holds held) m :=
  Triple.ofExists fun traffic => (h traffic).weaken (fun _ _ h => h) fun _ _ _ h => ⟨traffic, h⟩

theorem holds_listenOn (port : Nat) (backlog : Int) (reusePort : Bool) :
    Triple (Holds held) (Socket.listenOn port backlog reusePort : Sys κ Descriptor)
      (Outcome.Ends (fun fd => Holds (fd :: held)) (Holds held)) := by
  refine Triple.ofExists fun traffic => (triple_listenOn port backlog reusePort).weaken
    (fun _ _ h => h) fun o _ _ h => ?_
  exact h.imp (fun fd h => ⟨_, h⟩) fun h => ⟨traffic, h⟩

theorem holds_closeAll (fds : List Descriptor) :
    Triple (Holds fds) (Socket.closeAll fds : Sys κ Unit) fun o past =>
      o = .ok () ∧ Holds [] past := by
  apply Triple.ofExists
  intro traffic
  have hclose : Triple (Ledger (fds ++ []) traffic) (Socket.closeAll fds : Sys κ Unit) _ :=
    triple_closeAll fds
  rw [List.append_nil] at hclose
  exact hclose.weaken (fun _ _ h => h) fun _ _ _ h => ⟨h.1, traffic, h.2⟩

omit [Kernel κ] in
theorem silent_reportPeer (peer : Option Endpoint) : Silent (reportPeer peer : Sys κ Unit) := by
  cases peer <;> exact Sys.silent_log _ _

end Socket

end SpanEcho

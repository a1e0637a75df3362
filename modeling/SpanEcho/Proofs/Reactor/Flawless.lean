import SpanEcho.Proofs.Reactor.Regular
import SpanEcho.Script.Kernel

/-!
# No defect

A defect is a broken assumption: an outbox out of bounds, more bytes than were asked for or offered,
a byte counter that went backwards, more connections removed than were counted. Each of them rests
on something kept elsewhere. `Intact` is all of it for a reactor: its registry is sound, and every
session stands where some traffic puts it.

Of the kernel it is asked only that it receives and sends no more than it was asked to. Which
descriptors it hands out does not matter, be they open or those of connections already. What is left
is a block of memory that no machine has, which the settings can ask for.
-/

namespace SpanEcho

open SpanEcho.Action Loop Reactor

/-- A receive asks for no more than a buffer of `chunk` bytes holds. -/
def Call.Fits (chunk : Nat) : Call → Prop
  | .receive _ room => room ≤ chunk
  | _ => True

theorem Call.fits_of_subject? {chunk : Nat} {c : Call} (h : c.subject? = none) : c.Fits chunk := by
  cases c <;> first | exact trivial | cases h

/-- There is no defect but that no block of memory has `size` bytes. -/
def Outcome.Sparing {α : Type} (size : Nat) (o : Outcome α) : Prop :=
  ∀ d, o = .defect d → d = .blockTooLarge size ∧ Memory.largestBlock < size

theorem Action.Flawless.sparing {σ α : Type} {size : Nat} {m : Action σ α} (h : Flawless m)
    (s : σ) : (m s).1.Sparing size :=
  fun d hd => absurd hd (h s d)

theorem Action.sparing_bind {σ α β : Type} {size : Nat} {m : Action σ α} {f : α → Action σ β}
    (hm : ∀ s, (m s).1.Sparing size) (hf : ∀ a s, (f a s).1.Sparing size) (s : σ) :
    ((m >>= f) s).1.Sparing size := by
  have hfirst := hm s
  rw [bind_apply]
  rcases hs : m s with ⟨o, s'⟩
  rw [hs] at hfirst
  cases o with
  | ok a => exact hf a s'
  | failed why => exact nofun
  | defect d =>
    rintro d' ⟨⟩
    exact hfirst d rfl

theorem Memory.sparing_reserve {σ : Type} (size : Nat) (s : σ) :
    (reserve size s : Outcome Unit × σ).1.Sparing size := by
  by_cases h : size ≤ largestBlock
  · simp only [reserve, refusal?, if_pos h]
    rintro _ ⟨⟩
  · simp only [reserve, refusal?, if_neg h]
    rintro d ⟨⟩
    exact ⟨rfl, Nat.lt_of_not_le h⟩

/-- The registry is sound, and every session stands where some traffic puts it. -/
structure Reactor.Intact (r : Reactor) : Prop where
  sound : r.registry.Sound
  connections : ∀ fd entry, r.registry.entryAt fd = some entry →
    entry.socket = fd ∧ entry.session.Carried r.settings.sendCapacity

namespace Reactor

variable {r r' : Reactor} {t : Ticket} {entry : Entry Descriptor}

theorem intact_fresh (listener : Descriptor) (m : Multiplexor) (s : Settings) :
    (fresh listener m s).Intact :=
  ⟨Registry.sound_empty _, nofun⟩

theorem Intact.same (h : r.Intact) (hregistry : r'.registry = r.registry)
    (hsettings : r'.settings = r.settings) : r'.Intact := by
  refine ⟨hregistry ▸ h.sound, fun fd entry he => ?_⟩
  rw [hregistry] at he
  rw [hsettings]
  exact h.connections fd entry he

/-- Newcomers begin with a session of their own, whatever their descriptor. -/
theorem Intact.enrolled (h : r.Intact) {fd : Descriptor}
    (hinserted : (Registry.insert fd (r.newcomer fd) r.registry).1 = .ok t) :
    (r.enrolled fd).Intact := by
  obtain ⟨hsound, -, hentryAt⟩ := Registry.insert_ok h.sound hinserted
  refine ⟨hsound, fun x entry hx => ?_⟩
  rw [Reactor.enrolled, hentryAt] at hx
  split at hx
  · rename_i hxfd
    obtain rfl := Option.some.inj hx
    exact ⟨hxfd.symm, [], [], Session.begin_carries _⟩
  · exact h.connections x entry hx

theorem Intact.refile (h : r.Intact) (t : Ticket) {f : Entry Descriptor → Entry Descriptor}
    (hsocket : ∀ entry, (f entry).socket = entry.socket)
    (hsession : ∀ entry, entry.session.Carried r.settings.sendCapacity →
      (f entry).session.Carried r.settings.sendCapacity) : (r.refile t f).Intact := by
  refine ⟨Registry.sound_modify h.sound t f, fun x entry' hx => ?_⟩
  obtain ⟨entry, hentry, hsame⟩ := Registry.entryAt_of_modify h.sound hx
  obtain ⟨hs, hcarried⟩ := h.connections x entry hentry
  rcases hsame with rfl | rfl
  · exact ⟨hs, hcarried⟩
  · exact ⟨(hsocket entry).trans hs, hsession entry hcarried⟩

theorem Intact.keeping (h : r.Intact) (hg : r.registry.get? t = some entry) (i : Interest) :
    (r.keeping t i).Intact := by
  unfold Reactor.keeping
  split
  · obtain ⟨-, -, hsound, -, hentryAt⟩ := Registry.remove?_of_get? h.sound hg
    refine ⟨hsound, fun x entry' hx => ?_⟩
    replace hx := (hentryAt x).symm.trans hx
    split at hx
    · cases hx
    · exact h.connections x entry' hx
  · exact h.refile t (fun _ => rfl) fun _ hcarried => hcarried

/-- Every outbox is in bounds, and as many connections are counted as there are. -/
theorem Intact.inBounds (h : r.Intact) :
    (∀ t entry, (t, entry) ∈ r.registry.toList → entry.session.outbox.InBounds) ∧
      r.registry.live = r.registry.toList.length := by
  refine ⟨fun t entry hmem => ?_, h.sound.live⟩
  obtain ⟨-, _, _, hcarries⟩ :=
    h.connections t.fd entry (Registry.entryAt_of_get? ((Registry.mem_toList h.sound).mp hmem))
  exact hcarries.inBounds

end Reactor

/-- A handler asks for no more than the receive buffer holds. -/
theorem Reactor.fits_of_handlerCalls {chunk : Nat} {entry : Entry Descriptor} {d : Direction}
    {c : Call} (h : c ∈ handlerCalls chunk entry d) : c.Fits chunk := by
  cases d with
  | receive =>
    simp only [handlerCalls] at h
    split at h
    · cases h
    · rw [List.mem_singleton.mp h]
      have hroom : entry.session.room chunk ≤ chunk := by
        unfold Session.room
        split
        · exact Nat.zero_le _
        · exact Nat.min_le_left _ _
      exact hroom
  | send =>
    simp only [handlerCalls] at h
    split at h
    · cases h
    · rw [List.mem_singleton.mp h]
      exact trivial

theorem Multiplexor.flawless_wait {κ : Type} [Kernel κ] (m : Multiplexor)
    (entries : List Registration) (highest : Descriptor) (limit : Option Duration) :
    Flawless (m.wait entries highest limit : Sys κ (List Readiness)) := by
  have hinterrupted : ∀ operation errno,
      Flawless (interruptedOr operation errno : Sys κ (List Readiness)) := fun operation errno => by
    unfold interruptedOr
    split
    · exact .pure _
    · exact .fail _
  have hcall : ∀ c, Flawless (Sys.call c : Sys κ c.Reply) := fun _ _ _ => nofun
  cases m with
  | select =>
    simp only [wait]
    split
    · exact .fail _
    · refine .bind (hcall _) fun reply => ?_
      split
      · exact hinterrupted _ _
      · exact .pure _
  | poll =>
    refine .bind (hcall _) fun reply => ?_
    split
    · exact hinterrupted _ _
    · exact .pure _
  | external name bound =>
    refine .bind (hcall _) fun reply => ?_
    cases reply with
    | ok ready => exact .pure _
    | failed errno => exact .fail _
    | notOpen => exact .fail _

namespace Node

variable {κ α β : Type} [Kernel κ] {n n' n'' : Node κ}

/-- What may come of an intact reactor. -/
structure Harmless (n : Node κ) (o : Outcome α) (n' : Node κ) : Prop where
  intact : n'.reactor.Intact
  sparing : o.Sparing n.reactor.settings.sendCapacity
  calls : Added (·.Fits n.reactor.settings.receiveChunk) n.world.past n'.world.past

omit [Kernel κ] in
theorem Harmless.refl (h : n.reactor.Intact) (a : α) : Harmless n (.ok a) n :=
  ⟨h, nofun, .refl _⟩

omit [Kernel κ] in
theorem Harmless.trans {o : Outcome α} {o' : Outcome β} (h : Harmless n o n')
    (hsettings : n'.reactor.settings = n.reactor.settings) (h' : Harmless n' o' n'') :
    Harmless n o' n'' := by
  refine ⟨h'.intact, ?_, h.calls.trans ?_⟩
  · rw [← hsettings]
    exact h'.sparing
  · rw [← hsettings]
    exact h'.calls

/-- An action that does an intact reactor no harm, if the kernel keeps within what it is
asked for. -/
structure Spares (m : Loop κ α) : Prop where
  tame : Loop.Tame m
  harmless : ∀ n, n.reactor.Intact → Modest (m n).2.world.past → Harmless n (m n).1 (m n).2

theorem spares_pure (a : α) : Spares (pure a : Loop κ α) :=
  ⟨.pure a, fun _ h _ => .refl h a⟩

theorem Spares.bind {m : Loop κ α} {f : α → Loop κ β} (hm : Spares m) (hf : ∀ a, Spares (f a)) :
    Spares (m >>= f) := by
  refine ⟨.bind hm.tame fun a => (hf a).tame, fun n h hmodest => ?_⟩
  have hgrows : (m n).2.world.past <:+ ((m >>= f) n).2.world.past :=
    grows_bind (fun a => (hf a).tame.grows.grows) n
  have hfirst := hm.harmless n h (hmodest.of_suffix hgrows)
  have hsettings := (hm.tame.along n).settings
  rw [bind_apply] at hmodest ⊢
  rcases hn : m n with ⟨o, n₁⟩
  rw [hn] at hfirst hsettings hmodest
  cases o with
  | ok a => exact hfirst.trans hsettings ((hf a).harmless n₁ hfirst.intact hmodest)
  | failed why => exact ⟨hfirst.intact, nofun, hfirst.calls⟩
  | defect d =>
    exact ⟨hfirst.intact, fun d' hd => hfirst.sparing d' (by cases hd; rfl), hfirst.calls⟩

theorem spares_when {m : Loop κ Unit} (hm : Spares m) (c : Bool) : Spares (Action.when c m) := by
  cases c with
  | true => exact hm
  | false => exact spares_pure ()

/-! ## Serving -/

theorem spares_serve (t : Ticket) (d : Direction) : Spares (serve t d : Loop κ Unit) := by
  refine ⟨tame_serve t d, fun n h hmodest => ?_⟩
  cases hg : n.reactor.registry.get? t with
  | none =>
    rw [serve_stale hg]
    exact .refl h ()
  | some entry =>
    obtain ⟨hsocket, _, _, hcarries⟩ := h.connections t.fd entry (Registry.entryAt_of_get? hg)
    obtain ⟨answer, session, moved, closing, n', hserve, hcalls, -, hr, hpast, hclosing,
      hcarried⟩ := serve_carries h.sound hg hsocket hcarries d hmodest
    obtain ⟨-, -, hg', -⟩ := Registry.modify_of_get? h.sound hg (fun e => { e with session }) rfl
    have hrefiled : (n.reactor.refile t fun e => { e with session }).Intact :=
      h.refile t (fun _ => rfl) fun _ _ => hcarried
    have hcounted :
        ((n.reactor.refile t fun e => { e with session }).counting moved answer).Intact :=
      hrefiled.same rfl rfl
    rw [hserve]
    refine ⟨hr ▸ hcounted.keeping hg' _, nofun, closing ++ moved, by rw [hpast, List.append_assoc],
      fun e he => ?_⟩
    rcases List.mem_append.mp he with he | he
    · have hclose : e.call ∈ closing.map (·.call) := List.mem_map_of_mem he
      rw [hclosing] at hclose
      split at hclose
      · rw [List.mem_singleton.mp hclose]
        exact trivial
      · cases hclose
    · have hmoved : e.call ∈ moved.map (·.call) := List.mem_map_of_mem he
      rw [hcalls] at hmoved
      exact fits_of_handlerCalls hmoved

/-! ## Accepting -/

omit [Kernel κ] in
theorem Noted.intact {r : Reactor} {past : List Event} {why : Failure} (h : Noted r past why n')
    (hr : r.Intact) : n'.reactor.Intact := by
  cases h with
  | passed _ reactor => exact reactor ▸ hr
  | counted _ reactor => exact hr.same (by rw [reactor]; rfl) (by rw [reactor]; rfl)

/-- Whatever descriptor is handed out, what becomes of it leaves the reactor intact. -/
theorem spares_acceptOne : Spares (acceptOne : Loop κ Unit) := by
  refine ⟨tame_acceptOne, fun n h _ => ?_⟩
  have hreception := reception_acceptOne n
  have hcalls : Added (·.Fits n.reactor.settings.receiveChunk) n.world.past
      (acceptOne n).2.world.past :=
    (Added.single (e := n.world.event (.accept n.reactor.listener)) trivial).trans
      (hreception.about.mono fun _ hc => Call.fits_of_subject? hc.1)
  revert hcalls
  generalize (acceptOne n).1 = o, (acceptOne n).2 = n' at hreception
  intro hcalls
  cases hreception with
  | failed _ _ noted => exact ⟨noted.intact h, nofun, hcalls⟩
  | unsealed _ _ _ noted => exact ⟨noted.intact h, nofun, hcalls⟩
  | sealed _ _ enrolling =>
    cases enrolling with
    | blocking _ _ reactor =>
      exact ⟨h.same (by rw [reactor]; rfl) (by rw [reactor]; rfl), nofun, hcalls⟩
    | turnedAway _ _ cause _ reactor =>
      refine ⟨reactor ▸ h, fun d hd => ?_, hcalls⟩
      rw [hd] at cause
      exact cause.2
    | filed _ _ inserted reactor =>
      obtain ⟨t, hinserted⟩ := inserted
      have henrolled := h.enrolled hinserted
      exact ⟨henrolled.same (by rw [reactor]; rfl) (by rw [reactor]; rfl), nofun, hcalls⟩

/-! ## Passes -/

theorem spares_dispatch (ready : Readiness) : Spares (dispatch ready : Loop κ Unit) := by
  refine ⟨tame_dispatch ready, fun n h hmodest => ?_⟩
  by_cases he : ready.fd = n.reactor.listener
  · rw [dispatch_listener he] at hmodest ⊢
    exact (spares_when spares_acceptOne ready.readable).harmless n h hmodest
  · cases hf : n.reactor.registry.find? ready.fd with
    | none =>
      rw [dispatch_missing he hf]
      exact .refl h ()
    | some t =>
      rw [dispatch_found he hf] at hmodest ⊢
      have hboth : Spares (serveReady t ready : Loop κ Unit) :=
        (spares_when (spares_serve t .receive) ready.readable).bind fun _ =>
          spares_when (spares_serve t .send) ready.writable
      exact hboth.harmless n h hmodest

theorem spares_dispatchAll (due : List Readiness) : Spares (dispatchAll due : Loop κ Unit) := by
  induction due with
  | nil => exact spares_pure ()
  | cons ready due ih => exact (spares_dispatch ready).bind fun _ => ih

theorem spares_prepare : Spares (prepare : Loop κ Plan) := by
  refine ⟨quiet_prepare.tame, fun n h _ => ?_⟩
  have halike := (quiet_prepare.along n).1
  obtain ⟨plan, n₁, hprepare⟩ := sure_prepare n
  have hcalls := calling_prepare.added n
  rw [hprepare] at halike hcalls ⊢
  exact ⟨h.same halike.registry halike.settings, nofun, hcalls.mono fun c hc => by rw [hc]; trivial⟩

theorem flawless_await (plan : Plan) : Flawless (await plan : Loop κ (List Readiness)) := by
  have hrest : ∀ r : Reactor, Flawless (do
      let ready ← Loop.sys (r.multiplexor.wait plan.entries plan.highest plan.limit)
      Loop.count fun t => { t with loops := t.loops + 1 }
      let loops := (← Loop.reactor).tally.loops
      Loop.log .debug s!"loop {loops}: {ready.length} ready of {plan.entries.length} registered"
      pure ready : Loop κ (List Readiness)) := fun r =>
    .bind (flawless_sys (r.multiplexor.flawless_wait _ _ _)) fun _ _ => nofun
  exact fun n => hrest n.reactor n

theorem spares_await (plan : Plan) : Spares (await plan : Loop κ (List Readiness)) := by
  refine ⟨(quiet_await plan).tame, fun n h _ => ?_⟩
  have halike := ((quiet_await plan).along n).1
  refine ⟨h.same halike.registry halike.settings,
    fun d hd => absurd hd (flawless_await plan n d), ?_⟩
  refine (added_await plan n).mono fun c hc => Call.fits_of_subject? ?_
  cases hm : n.reactor.multiplexor <;> rw [hm] at hc
  · rw [hc.2]
    rfl
  · rw [hc]
    rfl
  · rw [hc]
    rfl

theorem spares_pass : Spares (pass : Loop κ Nat) :=
  spares_prepare.bind fun plan => (spares_await plan).bind fun ready =>
    (spares_dispatchAll ready).bind fun _ => spares_pure _

variable {n₀ : Node κ} {due : List Readiness}

/-- Nothing that a reactor can come to is less intact than it was. -/
theorem Reaches.intact (h : n₀.Reaches n due) (h₀ : n₀.reactor.Intact)
    (hmodest : Modest n.world.past) : n.reactor.Intact := by
  have hquiet : ∀ {α : Type} {m : Loop κ α} {n : Node κ}, Quiet m → n.reactor.Intact →
      (m n).2.reactor.Intact := fun hm h => by
    obtain ⟨halike, -⟩ := hm.along _
    exact h.same halike.registry halike.settings
  induction h with
  | here => exact h₀
  | start _ ih => exact hquiet quiet_start (ih (hmodest.of_suffix (quiet_start.tame.grows.grows _)))
  | wait _ ih => exact hquiet quiet_wait (ih (hmodest.of_suffix (quiet_wait.tame.grows.grows _)))
  | @dispatch n ready due _ ih =>
    have hgrows := (tame_dispatch ready).grows.grows n
    exact ((spares_dispatch ready).harmless n (ih (hmodest.of_suffix hgrows)) hmodest).intact
  | report _ last ih =>
    exact hquiet (quiet_report last)
      (ih (hmodest.of_suffix ((quiet_report last).tame.grows.grows _)))
  | finish _ ih =>
    exact hquiet quiet_finish (ih (hmodest.of_suffix (quiet_finish.tame.grows.grows _)))

end Node

/-! ## Runs -/

variable {κ : Type} [Kernel κ]

theorem Socket.sparing_closingOnFailure {α : Type} {size : Nat} (fd : Descriptor) {m : Sys κ α}
    (hm : ∀ w, (m w).1.Sparing size) (w : World κ) :
    (closingOnFailure [fd] m w).1.Sparing size := by
  have hends := hm w
  rw [closingOnFailure_apply]
  split <;> rename_i heq <;> rw [heq] at hends <;> exact hends

/-- A reactor is made without a defect, unless its receive buffer is too large. -/
theorem Reactor.sparing_create (listener : Descriptor) (m : Multiplexor) (s : Settings)
    (w : World κ) : (create listener m s w).1.Sparing s.receiveChunk := by
  have hfailIf : ∀ failure, Flawless (Action.failIf failure : Sys κ Unit) := fun failure => by
    cases failure with
    | none => exact .pure ()
    | some why => exact .fail why
  exact Socket.sparing_closingOnFailure listener
    (sparing_bind (hfailIf _).sparing fun _ =>
      sparing_bind (Socket.flawless_setNonBlocking listener).sparing fun _ =>
        sparing_bind (hfailIf _).sparing fun _ =>
          sparing_bind (Memory.sparing_reserve _) fun _ => (Flawless.pure _).sparing) w

/-- **No defect is met.** Whatever descriptors a kernel hands out, as long as it receives and sends
no more than it is asked to: a reactor is made, and makes any number of passes, whether they fail or
not, without a defect other than that a buffer is larger than any block of memory. No receive asks
for more than the receive buffer holds, every outbox stays within its bounds, and as many
connections are counted as there are. -/
theorem defects_of_passes (listener : Descriptor) (m : Multiplexor) (s : Settings) (w : World κ) :
    (create listener m s w).1.Sparing s.receiveChunk ∧
      ∀ r w' n, create listener m s w = (.ok r, w') → Node.Reaches ⟨r, w'⟩ n [] →
        Modest (Reactor.pass n).2.world.past →
        (Reactor.pass n).1.Sparing s.sendCapacity ∧
          Added (·.Fits s.receiveChunk) n.world.past (Reactor.pass n).2.world.past ∧
          (∀ t entry, (t, entry) ∈ (Reactor.pass n).2.reactor.registry.toList →
            entry.session.outbox.InBounds) ∧
          (Reactor.pass n).2.reactor.registry.live =
            (Reactor.pass n).2.reactor.registry.toList.length := by
  refine ⟨sparing_create listener m s w, fun r w' n hmade hreach hmodest => ?_⟩
  obtain ⟨rfl, -⟩ := create_ok hmade
  have hsettings : n.reactor.settings = s :=
    (hreach.continued (regular_fresh listener m s)).steady.settings
  have hbefore : Modest n.world.past :=
    hmodest.of_suffix (Node.spares_pass.tame.grows.grows n)
  have hintact := hreach.intact (intact_fresh listener m s) hbefore
  have hpass := Node.spares_pass.harmless n hintact hmodest
  rw [← hsettings]
  exact ⟨hpass.sparing, hpass.calls, hpass.intact.inBounds.1, hpass.intact.inBounds.2⟩

namespace Doubled

/-- The second accept hands out the connection's own descriptor again, which is then closed. In the
third pass the connection is writable all the same. -/
def world : World Script :=
  let connection := Script.Arriving.connection (some 4) ⟨2, 16, ⟨.unspecified, 40001⟩⟩ true {}
  let listener : Descriptor × Condition := (3, { readable := true })
  { level := .off
    kernel :=
      { socketNumbers := [3]
        queues := [(3, [connection, connection])]
        waits := [(.main, [{ ready := [listener] }, { ready := [listener] },
          { ready := [(4, { readable := true, writable := true })] }])] } }

def settings : Settings := {}

def opened : World Script :=
  (Socket.listenOn 0 128 false world).2

def made : Node Script :=
  ⟨.fresh 3 .poll settings, (create 3 .poll settings opened).2⟩

@[irreducible] def node : Node Script :=
  (Reactor.pass (Reactor.run 1 made).2).2

theorem defects_of_doubled :
    (Reactor.pass (Reactor.run 1 made).2).1 = .failed (.invalidDescriptor 4) ∧
      ¬ Lawful node.world.past ∧ Modest (Reactor.pass node).2.world.past ∧
      (Reactor.pass node).1.Sparing 1024 ∧
      Added (·.Fits 1024) node.world.past (Reactor.pass node).2.world.past := by
  have hmade : create 3 .poll settings opened = (.ok (.fresh 3 .poll settings), made.world) :=
    Prod.ext (by decide +kernel) rfl
  have hreach : made.Reaches node [] := by
    rw [node]
    exact (Node.Reaches.here.run 1).pass
  have hfailed : (Reactor.pass (Reactor.run 1 made).2).1 = .failed (.invalidDescriptor 4) := by
    decide +kernel
  have hunlawful : ¬ Lawful node.world.past := by decide +kernel
  have hmodest : Modest (Reactor.pass node).2.world.past := by
    rw [Modest]
    decide +kernel
  obtain ⟨-, hpasses⟩ := defects_of_passes 3 .poll settings opened
  obtain ⟨hsparing, hfits, -⟩ := hpasses _ _ node hmade hreach hmodest
  exact ⟨hfailed, hunlawful, hmodest, hsparing, hfits⟩

end Doubled

end SpanEcho

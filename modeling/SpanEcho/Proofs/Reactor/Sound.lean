import SpanEcho.Proofs.Composed
import SpanEcho.Proofs.Multiplexor
import SpanEcho.Proofs.Registry
import SpanEcho.Proofs.Session

/-!
# Sound reactors

A reactor is sound in its world if it holds its listener and the sockets of its connections and
nothing else, and if every connection stands where the traffic over its socket puts it. Others may
live in the same world: what they hold is open besides, and what passed over it is theirs.

One event of interest changes what a reactor has under a single descriptor (`Altered`); whatever
else happens leaves it as it was, but for its counters and its pause (`Alike`).
-/

namespace SpanEcho

namespace Reactor

/-- What a reactor holds: its listener and the sockets of its connections. -/
def held (r : Reactor) : List Descriptor :=
  r.listener :: r.registry.sockets

theorem Alike.held_eq {r r' : Reactor} (h : r.Alike r') : r'.held = r.held := by
  rw [held, held, h.listener, h.registry]

/-- Every connection is filed under its socket. -/
structure Filed (r : Reactor) : Prop where
  registry : r.registry.Sound
  socket : ∀ fd entry, r.registry.entryAt fd = some entry → entry.socket = fd

/-- Every connection is filed under its socket, stands where the traffic over it puts it, and has
not heard the end of its peer's stream. -/
structure Accounts (r : Reactor) (traffic : Descriptor → Traffic) : Prop where
  registry : r.registry.Sound
  socket : ∀ fd entry, r.registry.entryAt fd = some entry → entry.socket = fd
  session : ∀ fd entry, r.registry.entryAt fd = some entry →
    entry.session.Carries r.settings.sendCapacity (traffic fd).received (traffic fd).delivered
  running : ∀ fd entry, r.registry.entryAt fd = some entry → (traffic fd).ended = false

variable {r r' : Reactor} {traffic traffic' : Descriptor → Traffic}

theorem Filed.alike (h : r.Filed) (ha : r.Alike r') : r'.Filed where
  registry := by rw [ha.registry]; exact h.registry
  socket := by rw [ha.registry]; exact h.socket

theorem Filed.mem_sockets (h : r.Filed) {fd : Descriptor} :
    fd ∈ r.registry.sockets ↔ ∃ entry, r.registry.entryAt fd = some entry := by
  rw [Registry.mem_sockets h.registry]
  constructor
  · intro h
    obtain ⟨x, entry, hx, rfl⟩ := h
    exact ⟨entry, by rwa [h.socket x entry hx]⟩
  · intro h
    obtain ⟨entry, hentry⟩ := h
    exact ⟨fd, entry, hentry, h.socket fd entry hentry⟩

theorem Filed.mem_held (h : r.Filed) {fd : Descriptor} {entry : Entry Descriptor}
    (hentry : r.registry.entryAt fd = some entry) : fd ∈ r.held :=
  List.mem_cons_of_mem _ (h.mem_sockets.mpr ⟨entry, hentry⟩)

theorem Accounts.filed (h : r.Accounts traffic) : r.Filed :=
  ⟨h.registry, h.socket⟩

theorem Accounts.alike (h : r.Accounts traffic) (ha : r.Alike r') : r'.Accounts traffic :=
  { h.filed.alike ha with
    session := by rw [ha.registry, ha.settings]; exact h.session
    running := by rw [ha.registry]; exact h.running }

theorem Accounts.congr (h : r.Accounts traffic) (ht : ∀ fd ∈ r.held, traffic fd = traffic' fd) :
    r.Accounts traffic' where
  registry := h.registry
  socket := h.socket
  session := fun fd entry hentry => by
    rw [← ht fd (h.filed.mem_held hentry)]
    exact h.session fd entry hentry
  running := fun fd entry hentry => by
    rw [← ht fd (h.filed.mem_held hentry)]
    exact h.running fd entry hentry

end Reactor

namespace Scene

/-- Reactor and past agree, in a world where others hold `others` with the traffic `theirs`. -/
def Sound (others : List Descriptor) (theirs : Descriptor → Traffic) (v : Scene) : Prop :=
  ∃ traffic, Ledger (v.reactor.held ++ others) traffic v.past ∧ v.reactor.Accounts traffic ∧
    ∀ fd ∈ others, traffic fd = theirs fd

/-- The reactor is `r`. -/
def On (r : Reactor) (A : List Event → Prop) (v : Scene) : Prop :=
  v.reactor = r ∧ A v.past

/-- The reactor is like `r`. -/
def Near (r : Reactor) (A : List Event → Prop) (v : Scene) : Prop :=
  r.Alike v.reactor ∧ A v.past

theorem On.near {r : Reactor} {A : List Event → Prop} {v : Scene} (h : v.On r A) : v.Near r A :=
  ⟨h.1 ▸ .refl r, h.2⟩

/-- The reactor is `r` but for what is filed under `fd`, which is now `found`. -/
structure Altered (r : Reactor) (others : List Descriptor) (traffic : Descriptor → Traffic)
    (fd : Descriptor) (found : Option (Entry Descriptor)) (v : Scene) : Prop where
  listener : v.reactor.listener = r.listener
  multiplexor : v.reactor.multiplexor = r.multiplexor
  settings : v.reactor.settings = r.settings
  registry : v.reactor.registry.Sound
  entryAt : ∀ x, v.reactor.registry.entryAt x = if x = fd then found else r.registry.entryAt x
  away : fd ∉ others
  stands : ∃ t, Ledger (v.reactor.held ++ others) (Ledger.booked traffic fd t) v.past ∧
    ∀ entry ∈ found, entry.socket = fd ∧
      entry.session.Carries r.settings.sendCapacity t.received t.delivered ∧ t.ended = false

variable {r : Reactor} {others : List Descriptor} {traffic theirs : Descriptor → Traffic}
  {fd : Descriptor} {found : Option (Entry Descriptor)} {v : Scene}

theorem Sound.of_near (ha : r.Accounts traffic) (hothers : ∀ x ∈ others, traffic x = theirs x)
    (h : v.Near r (Ledger (r.held ++ others) traffic)) : v.Sound others theirs := by
  refine ⟨traffic, ?_, ha.alike h.1, hothers⟩
  rw [h.1.held_eq]
  exact h.2

/-- A change under one descriptor leaves all other connections where they stood. -/
theorem Sound.of_altered (ha : r.Accounts traffic) (hothers : ∀ x ∈ others, traffic x = theirs x)
    (h : v.Altered r others traffic fd found) : v.Sound others theirs := by
  obtain ⟨t, hledger, hfound⟩ := h.stands
  have hentry : ∀ x entry, v.reactor.registry.entryAt x = some entry →
      entry.socket = x ∧
        entry.session.Carries r.settings.sendCapacity (Ledger.booked traffic fd t x).received
          (Ledger.booked traffic fd t x).delivered ∧
          (Ledger.booked traffic fd t x).ended = false := by
    intro x entry hx
    rw [h.entryAt] at hx
    by_cases hxf : x = fd
    · rw [if_pos hxf] at hx
      rw [hxf, Ledger.booked_self]
      exact hfound entry hx
    · rw [if_neg hxf] at hx
      rw [Ledger.booked_of_ne hxf]
      exact ⟨ha.socket x entry hx, ha.session x entry hx, ha.running x entry hx⟩
  refine ⟨_, hledger, ⟨h.registry, fun x entry hx => (hentry x entry hx).1, fun x entry hx => ?_,
    fun x entry hx => (hentry x entry hx).2.2⟩, fun x hx => ?_⟩
  · rw [h.settings]
    exact (hentry x entry hx).2.1
  · rw [Ledger.booked_of_ne fun he : x = fd => h.away (he ▸ hx)]
    exact hothers x hx

end Scene

open SpanEcho.Action Scene

namespace Loop

variable {κ α β : Type} {r : Reactor} {A : List Event → Prop} {B : Outcome α → List Event → Prop}
  {R : Outcome β → Scene → Prop}

theorem triple_on {m : Sys κ α} {law : List Event → Prop} (h : Triple A m B law) :
    Triple (On r A) (Loop.sys m) (fun o => On r (B o)) law :=
  triple_sys fun _ => ⟨h.grows, fun w hw hlaw => ⟨hw.1, h.ensures w hw.2 hlaw⟩⟩

theorem triple_near {m : Sys κ α} (h : Triple A m B) :
    Triple (Near r A) (Loop.sys m) fun o => Near r (B o) :=
  triple_sys fun _ => ⟨h.grows, fun w hw hlaw => ⟨hw.1, h.ensures w hw.2 hlaw⟩⟩

theorem flawless_sys {m : Sys κ α} (h : Flawless m) : Flawless (Loop.sys m) :=
  fun n d => h n.world d

theorem keeps_adjust {f : Reactor → Reactor} (h : ∀ r : Reactor, r.Alike (f r)) :
    Keeps (Near r A) (Loop.adjust f : Loop κ Unit) :=
  triple_adjust fun _ _ hv => ⟨hv.1.trans (h _), hv.2⟩

theorem keeps_count {f : Tally → Tally} : Keeps (Near r A) (Loop.count f : Loop κ Unit) :=
  keeps_adjust fun _ => ⟨rfl, rfl, rfl, rfl⟩

/-- Counting is the first step of more. -/
theorem count_bind {f : Tally → Tally} {g : Unit → Loop κ β} (h : Triple (Near r A) (g ()) R) :
    Triple (Near r A) (Loop.count f >>= g) R :=
  Triple.done_bind (A := Near r A)
    (triple_adjust fun _ _ hv => ⟨rfl, hv.1.trans ⟨rfl, rfl, rfl, rfl⟩, hv.2⟩) h

/-- A look at the reactor, whatever it is. -/
theorem triple_look_any {A : Reactor → List Event → Prop} {R : Reactor → Outcome β → Scene → Prop}
    {f : Reactor → Loop κ β} (h : ∀ r, Triple (On r (A r)) (f r) (R r)) {r : Reactor} :
    Triple (On r (A r)) (Loop.reactor >>= f) (R r) where
  grows := fun n => (h n.reactor).grows n
  ensures := by
    intro n h hlaw
    obtain ⟨rfl, hA⟩ := h
    exact (h n.reactor).ensures n ⟨rfl, hA⟩ hlaw

/-- A look at a reactor that is known. -/
theorem triple_look [Kernel κ] {f : Reactor → Loop κ β} (ht : Tame (Loop.reactor >>= f))
    (h : Triple (On r A) (f r) R) : Triple (On r A) (Loop.reactor >>= f) R where
  grows := ht.grows.grows
  ensures := by
    intro n h hlaw
    obtain ⟨rfl, hA⟩ := h
    exact h.ensures n ⟨rfl, hA⟩ hlaw

/-- A look at a reactor that is known but for its counters and its pause. -/
theorem triple_look_near [Kernel κ] {f : Reactor → Loop κ β} (ht : Tame (Loop.reactor >>= f))
    (h : ∀ r', r.Alike r' → Triple (On r' A) (f r') R) :
    Triple (Near r A) (Loop.reactor >>= f) R where
  grows := ht.grows.grows
  ensures := fun n hn hlaw => (h n.reactor hn.1).ensures n ⟨rfl, hn.2⟩ hlaw

end Loop

end SpanEcho

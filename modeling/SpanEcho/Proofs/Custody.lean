import Mathlib
import SpanEcho.Proofs.Calls
import SpanEcho.Proofs.Flags
import SpanEcho.Proofs.Ledger

/-!
# How descriptors are set up

A descriptor is handed out `bare`. It is `sealed` when it is closed on execution, and `ready` when
besides it does not block. Whoever holds descriptors knows how far each is set up, and uses only
those that are ready. When a flag cannot be looked at or set, the descriptor is doomed: it is held
no longer, and the next call closes it.
-/

namespace SpanEcho

/-- How far a descriptor is set up. -/
inductive Standing where
  | bare
  | sealed
  | ready
deriving DecidableEq, Repr

section

variable (born : List Event → Flags)

/-- The descriptor is open, was not used yet, and has the flags it was created with. -/
structure Pending (fd : Descriptor) (past : List Event) : Prop where
  opened : fd ∈ openAfter past
  unused : Unused fd past
  kept : (flagsOn born fd past).Extends (bornWith born fd past)

def Standing.Holds (fd : Descriptor) (past : List Event) : Standing → Prop
  | .bare => Pending born fd past
  | .sealed => Pending born fd past ∧
      Flags.Includes (flagsOn born fd past).descriptor Descriptor.closeOnExec
  | .ready => Guarded born fd past

/-- What is held stands as it is said to. Only what is doomed may be spoilt. -/
structure Custody (held : List (Descriptor × Standing)) (doomed : Option Descriptor)
    (past : List Event) : Prop where
  apart : (doomed.toList ++ held.map Prod.fst).Nodup
  stands : ∀ fd standing, (fd, standing) ∈ held → standing.Holds born fd past
  spoilt : ∀ fd, Spoilt fd past → doomed = some fd
  careful : Careful born past

end

/-- A call that opens, closes and flags nothing, and uses what is ready. -/
structure Call.Plain (held : List (Descriptor × Standing)) (c : Call) : Prop where
  idle : c.Quiet ∨ ∃ fd, c.carrier? = some fd
  unflagged : c.flagged? = none
  uses : ∀ fd ∈ c.uses, (fd, .ready) ∈ held

variable {born : List Event → Flags} {past earlier later : List Event} {e : Event} {fd : Descriptor}
  {standing : Standing} {held held' : List (Descriptor × Standing)} {doomed : Option Descriptor}

theorem Pending.pass (h : Pending born fd past) (hp : e.Passes fd) (hu : fd ∉ e.call.uses) :
    Pending born fd (e :: past) where
  opened := hp.mem_openAfter.mpr h.opened
  unused := .inr ⟨hu, h.unused⟩
  kept := by rw [hp.flagsOn_eq, hp.bornWith_eq]; exact h.kept

/-- A descriptor is as it was created when it is handed out. -/
theorem Pending.of_opened (ho : e.opened? = some fd) : Pending born fd (e :: past) where
  opened := mem_openAfter_cons.mpr (.inl ho)
  unused := .inl ho
  kept := by rw [flagsOn, bornWith, if_pos ho, if_pos ho]; exact .refl _

/-- A call about its flags leaves a descriptor open and unused. -/
theorem Pending.flagged (h : Pending born fd past) (hf : e.call.flagged? = some fd)
    (hkept : (flagsOn born fd (e :: past)).Extends (bornWith born fd past)) :
    Pending born fd (e :: past) := by
  obtain ⟨ho, hc⟩ := Event.idle_of_flagged hf
  refine ⟨?_, .inr ⟨?_, h.unused⟩, ?_⟩
  · rw [openAfter_of_idle ho hc]
    exact h.opened
  · rw [Call.uses_of_flagged hf]
    exact List.not_mem_nil
  · rw [bornWith, if_neg (by rw [ho]; exact nofun)]
    exact hkept

namespace Standing.Holds

theorem opened (h : standing.Holds born fd past) : fd ∈ openAfter past := by
  cases standing with
  | bare => exact Pending.opened h
  | sealed => exact h.1.opened
  | ready => exact Guarded.opened h

theorem unused (h : standing.Holds born fd past) (hs : standing ≠ .ready) : Unused fd past := by
  cases standing with
  | bare => exact Pending.unused h
  | sealed => exact h.1.unused
  | ready => exact absurd rfl hs

theorem pass (h : standing.Holds born fd past) (hp : e.Passes fd)
    (hu : fd ∈ e.call.uses → standing = .ready) : standing.Holds born fd (e :: past) := by
  cases standing with
  | bare => exact Pending.pass h hp fun hm => nomatch hu hm
  | sealed =>
    refine ⟨h.1.pass hp fun hm => (nomatch hu hm), ?_⟩
    rw [hp.flagsOn_eq]
    exact h.2
  | ready => exact hp.guarded h

/-- A look at its flags leaves a descriptor as it stands. -/
theorem looked (h : standing.Holds born fd past) (hf : e.call.flagged? = some fd)
    (hsame : flagsOn born fd (e :: past) = flagsOn born fd past) :
    standing.Holds born fd (e :: past) := by
  obtain ⟨ho, hc⟩ := Event.idle_of_flagged hf
  cases standing with
  | bare => exact Pending.flagged h hf (by rw [hsame]; exact h.kept)
  | sealed =>
    refine ⟨h.1.flagged hf (by rw [hsame]; exact h.1.kept), ?_⟩
    rw [hsame]
    exact h.2
  | ready =>
    refine ⟨?_, ?_, ?_, ?_⟩
    · rw [openAfter_of_idle ho hc]
      exact Guarded.opened h
    · rw [hsame]
      exact h.closes
    · rw [hsame]
      exact h.unblocked
    · rw [hsame, bornWith, if_neg (by rw [ho]; exact nofun)]
      exact h.kept

end Standing.Holds

theorem Call.Plain.still (h : e.call.Plain held) : e.opened? = none ∧ e.closed? = none := by
  obtain ⟨thread, call, reply, arrivals⟩ := e
  rcases h.idle with hq | ⟨fd, hc⟩
  · have hidle := Event.idle_of_quiet (e := ⟨thread, call, reply, arrivals⟩) hq
    exact ⟨hidle.opened, hidle.closed⟩
  · refine ⟨Option.eq_none_iff_forall_not_mem.mpr fun _ ho => ?_, Event.closed?_of_carrier hc⟩
    rw [(Event.not_quiet_of_opened? ho).2] at hc
    cases hc

/-- To move bytes over what is ready is to use what is ready. -/
theorem Direction.Moves.plain {d : Direction} {c : Call} (h : d.Moves fd c)
    (hready : (fd, .ready) ∈ held) : c.Plain held := by
  have hidle : c.Quiet ∨ ∃ fd, c.carrier? = some fd := .inr ⟨fd, h.carrier⟩
  unfold Direction.Moves at h
  split at h
  · exact ⟨hidle, rfl, by simpa [Call.uses, h] using hready⟩
  · exact ⟨hidle, rfl, by simpa [Call.uses, h] using hready⟩
  · exact h.elim

namespace Custody

theorem empty : Custody born [] none [] where
  apart := List.nodup_nil
  stands := nofun
  spoilt := nofun
  careful := trivial

theorem perm (h : Custody born held doomed past) (hp : held.Perm held') :
    Custody born held' doomed past :=
  { h with
    apart := (((hp.map Prod.fst).append_left _).nodup_iff).mp h.apart
    stands := fun fd standing hm => h.stands fd standing (hp.mem_iff.mpr hm) }

theorem nodup (h : Custody born held doomed past) : (held.map Prod.fst).Nodup :=
  (List.nodup_append.mp h.apart).2.1

/-- A descriptor stands in one way. -/
theorem standing_eq (h : Custody born held doomed past) {standing' : Standing}
    (hm : (fd, standing) ∈ held) (hm' : (fd, standing') ∈ held) : standing = standing' :=
  congrArg Prod.snd (List.inj_on_of_nodup_map h.nodup hm hm' rfl)

/-- What is held besides is another descriptor. -/
theorem ne_of_mem (h : Custody born ((fd, standing) :: held) doomed past) {x : Descriptor}
    {other : Standing} (hm : (x, other) ∈ held) : x ≠ fd := by
  have hfd : fd ∉ held.map Prod.fst := (List.nodup_cons.mp h.nodup).1
  exact fun hx => hfd (hx ▸ List.mem_map_of_mem hm)

/-- What is held may be given up. -/
theorem condemn (h : Custody born ((fd, standing) :: held) none past) :
    Custody born held (some fd) past :=
  { h with
    apart := h.apart
    stands := fun x other hm => h.stands x other (List.mem_cons_of_mem _ hm)
    spoilt := fun x hx => nomatch h.spoilt x hx }

/-- Where nothing is doomed, care is taken by calls on what is ready, and by looking at flags and
setting them before. -/
theorem careful_cons (h : Custody born held none past)
    (hu : ∀ fd ∈ e.call.uses, (fd, .ready) ∈ held)
    (hf : ∀ fd, e.call.flagged? = some fd → Unused fd past) : Careful born (e :: past) :=
  ⟨fun fd hfd => h.stands fd .ready (hu fd hfd), hf, fun fd hs => (nomatch h.spoilt fd hs),
    h.careful⟩

/-- An event that opens, closes and flags nothing. -/
theorem idle (h : Custody born held none past) (ho : e.opened? = none) (hc : e.closed? = none)
    (hf : e.call.flagged? = none) (hu : ∀ fd ∈ e.call.uses, (fd, .ready) ∈ held) :
    Custody born held none (e :: past) where
  apart := h.apart
  stands := fun fd standing hm => by
    refine (h.stands fd standing hm).pass ⟨?_, ?_, ?_⟩ fun hfd => h.standing_eq hm (hu fd hfd)
    · rw [ho]; exact nofun
    · rw [hc]; exact nofun
    · rw [hf]; exact nofun
  spoilt := fun fd hs => by
    have hflagged := Event.Spoils.flagged hs
    rw [hf] at hflagged
    cases hflagged
  careful := h.careful_cons hu fun fd hflagged => by
    rw [hf] at hflagged
    cases hflagged

theorem plain (h : Custody born held none past) (hp : e.call.Plain held) :
    Custody born held none (e :: past) :=
  h.idle hp.still.1 hp.still.2 hp.unflagged hp.uses

/-- Calls on what is ready change nothing. -/
theorem added (h : Custody born held none earlier) (ha : Added (Call.Plain held) earlier later) :
    Custody born held none later := by
  obtain ⟨moved, rfl, hmoved⟩ := ha
  induction moved with
  | nil => exact h
  | cons e moved ih =>
    exact (ih fun x hx => hmoved x (List.mem_cons_of_mem e hx)).plain (hmoved e List.mem_cons_self)

/-- What is handed out is held. -/
theorem handOut (h : Custody born held none past) (hfresh : fd ∉ openAfter past)
    (ho : e.opened? = some fd) (hu : ∀ x ∈ e.call.uses, (x, .ready) ∈ held) :
    Custody born ((fd, .bare) :: held) none (e :: past) := by
  have hf : e.call.flagged? = none := Option.eq_none_iff_forall_not_mem.mpr fun x hx => by
    rw [(Event.idle_of_flagged hx).1] at ho
    cases ho
  have hne : ∀ x standing, (x, standing) ∈ held → x ≠ fd := fun x standing hm hx =>
    hfresh (hx ▸ (h.stands x standing hm).opened)
  refine ⟨List.nodup_cons.mpr ⟨fun hm => ?_, h.nodup⟩, fun x standing hm => ?_, fun x hs => ?_,
    h.careful_cons hu fun x hflagged => nomatch hf.symm.trans hflagged⟩
  · obtain ⟨⟨x, standing⟩, hm, hx⟩ := List.mem_map.mp hm
    exact hne x standing hm hx
  · rcases List.mem_cons.mp hm with hm | hm
    · cases hm
      exact Pending.of_opened ho
    · refine (h.stands x standing hm).pass ⟨fun hx => ?_, ?_, ?_⟩ fun hx =>
        h.standing_eq hm (hu x hx)
      · exact hne x standing hm (Option.some.inj (ho.symm.trans hx)).symm
      · rw [Event.closed?_of_opened? ho]; exact nofun
      · rw [hf]; exact nofun
  · exact nomatch hf.symm.trans (Event.Spoils.flagged hs)

/-- A call about the flags of one descriptor leaves the others as they are. -/
theorem others_of_flagged (h : Custody born ((fd, standing) :: held) none past)
    (hf : e.call.flagged? = some fd) :
    ∀ x other, (x, other) ∈ held → other.Holds born x (e :: past) := by
  intro x other hm
  obtain ⟨ho, hc⟩ := Event.idle_of_flagged hf
  refine (h.stands x other (List.mem_cons_of_mem _ hm)).pass ⟨?_, ?_, fun hx => ?_⟩ ?_
  · rw [ho]; exact nofun
  · rw [hc]; exact nofun
  · exact h.ne_of_mem hm (Option.some.inj (hf.symm.trans hx)).symm
  · rw [Call.uses_of_flagged hf]
    exact nofun

theorem careful_of_flagged (h : Custody born held none past) (hf : e.call.flagged? = some fd)
    (hu : Unused fd past) : Careful born (e :: past) := by
  refine h.careful_cons (by rw [Call.uses_of_flagged hf]; exact nofun) fun x hx => ?_
  rwa [← Option.some.inj (hf.symm.trans hx)]

/-- A descriptor is set up further. -/
theorem flagged (h : Custody born ((fd, standing) :: held) none past)
    (hf : e.call.flagged? = some fd) (hu : Unused fd past) (hok : ¬ e.Spoils fd) {after : Standing}
    (hafter : after.Holds born fd (e :: past)) :
    Custody born ((fd, after) :: held) none (e :: past) where
  apart := h.apart
  stands := fun x other hm => by
    rcases List.mem_cons.mp hm with hm | hm
    · cases hm
      exact hafter
    · exact h.others_of_flagged hf x other hm
  spoilt := fun x hs => by
    obtain rfl := Option.some.inj (hf.symm.trans (Event.Spoils.flagged hs))
    exact absurd hs hok
  careful := h.careful_of_flagged hf hu

/-- How far a descriptor is set up may come to light without a call. -/
theorem raise (h : Custody born ((fd, standing) :: held) none past) {after : Standing}
    (hafter : after.Holds born fd past) : Custody born ((fd, after) :: held) none past where
  apart := h.apart
  stands := fun x other hm => by
    rcases List.mem_cons.mp hm with hm | hm
    · cases hm
      exact hafter
    · exact h.stands x other (List.mem_cons_of_mem _ hm)
  spoilt := h.spoilt
  careful := h.careful

/-- A sealed descriptor that does not block as it is, is ready. -/
theorem unblocked {told : Nat} (h : Custody born ((fd, .sealed) :: held) none past)
    (htold : told = (flagsOn born fd past).status) (hset : told &&& Descriptor.nonBlocking ≠ 0) :
    Custody born ((fd, .ready) :: held) none past := by
  obtain ⟨hpending, hsealed⟩ : Standing.Holds born fd past .sealed :=
    h.stands fd .sealed List.mem_cons_self
  rw [htold] at hset
  have hincludes : Flags.Includes (flagsOn born fd past).status (1 <<< 11) :=
    Flags.includes_of_and_ne_zero hset
  exact h.raise ⟨hpending.opened, hsealed, hincludes, hpending.kept⟩

/-- A descriptor whose flags were asked for in vain is doomed. -/
theorem doom (h : Custody born ((fd, standing) :: held) none past)
    (hf : e.call.flagged? = some fd) (hu : Unused fd past) :
    Custody born held (some fd) (e :: past) where
  apart := h.apart
  stands := h.others_of_flagged hf
  spoilt := fun _ hs => hf.symm.trans (Event.Spoils.flagged hs)
  careful := h.careful_of_flagged hf hu

/-- What is doomed is closed. -/
theorem close (h : Custody born held (some fd) past) (he : e.call = .close fd) :
    Custody born held none (e :: past) := by
  obtain ⟨thread, call, reply, arrivals⟩ := e
  obtain rfl : call = .close fd := he
  have hne : ∀ x standing, (x, standing) ∈ held → fd ≠ x := fun x standing hm =>
    (List.nodup_append.mp h.apart).2.2 fd (by simp) x (List.mem_map_of_mem hm)
  refine ⟨h.nodup, fun x standing hm => ?_, fun x hs => hs.elim,
    nofun, nofun, fun x hs => ?_, h.careful⟩
  · refine (h.stands x standing hm).pass ⟨nofun, fun hx => ?_, nofun⟩ nofun
    exact hne x standing hm (Option.some.inj hx)
  · rw [Option.some.inj (h.spoilt x hs)]

end Custody

/-! ## Calls and sockets -/

open SpanEcho.Action

variable {κ α : Type}

theorem Sys.custody_calling {m : Sys κ α} (hm : Sys.Calling (Call.Plain held) m) :
    Keeps (Custody born held none) m (Trusted born) where
  grows := fun w => (hm.added w).suffix
  ensures := fun w h _ => h.added (hm.added w)

/-- A descriptor is given up when one of the calls fails that are to set it up. -/
theorem Sys.custody_further {m : Sys κ α}
    (hm : Sys.Calling (Call.Plain ((fd, standing) :: held)) m) :
    Triple (Custody born ((fd, standing) :: held) none) m
      (Outcome.Ends (fun _ => Custody born ((fd, standing) :: held) none)
        (Custody born held (some fd)))
      (Trusted born) := by
  refine (Sys.custody_calling hm).weaken (fun _ _ h => h) fun o _ _ h => ?_
  cases o with
  | ok a => exact h
  | failed e => exact h.condemn
  | defect d => exact h.condemn

namespace Socket

variable [Kernel κ]

theorem custody_close (fd : Descriptor) :
    Triple (Custody born held (some fd)) (Socket.close fd : Sys κ Unit)
      (fun o past => o = .ok () ∧ Custody born held none past) (Trusted born) :=
  Triple.bind (Q := Outcome.Ends (fun _ => Custody born held none) fun _ => False)
    (Sys.triple_call fun _ _ _ _ h _ => h.close rfl) (fun _ => Triple.pure fun _ _ h => ⟨rfl, h⟩)
    (fun _ _ h => h.elim) (fun _ _ h => h.elim)

theorem custody_closeDoomed (fd : Descriptor) :
    Triple (Custody born held (some fd)) (Socket.closeAll [fd] : Sys κ Unit)
      (fun o past => o = .ok () ∧ Custody born held none past) (Trusted born) :=
  Triple.done_bind (custody_close fd) (Triple.pure fun _ _ h => ⟨rfl, h⟩)

theorem custody_closeAll (fds : List Descriptor) (standing : Standing) :
    Triple (Custody born (fds.map (·, standing) ++ held) none) (Socket.closeAll fds : Sys κ Unit)
      (fun o past => o = .ok () ∧ Custody born held none past) (Trusted born) := by
  induction fds with
  | nil => exact Triple.pure fun _ _ h => ⟨rfl, h⟩
  | cons fd rest ih =>
    exact Triple.done_bind ((custody_close fd).strengthen fun _ _ h => h.condemn) ih

/-- A call about the flags of a descriptor that is not ready yet sets it up further, or dooms it. -/
theorem custody_flagged (standing after : Standing) {c : Call} {read : c.Reply → Answer α}
    {P : List Event → Prop} {R : α → List Event → Prop} (hf : c.flagged? = some fd)
    (hs : standing ≠ .ready)
    (hafter : ∀ thread reply arrivals past a, read reply = .ok a →
      standing.Holds born fd past → P past → Trusted born (⟨thread, c, reply, arrivals⟩ :: past) →
      ¬ Event.Spoils fd ⟨thread, c, reply, arrivals⟩ ∧
        after.Holds born fd (⟨thread, c, reply, arrivals⟩ :: past) ∧
        R a (⟨thread, c, reply, arrivals⟩ :: past)) :
    Triple (fun past => Custody born ((fd, standing) :: held) none past ∧ P past)
      (Sys.ask c read : Sys κ α)
      (Outcome.Ends (fun a past => Custody born ((fd, after) :: held) none past ∧ R a past)
        (Custody born held (some fd))) (Trusted born) := by
  refine Sys.triple_ask fun thread reply arrivals past h hlaw => ?_
  obtain ⟨h, hp⟩ := h
  have hstands : standing.Holds born fd past := h.stands fd standing List.mem_cons_self
  have hunused : Unused fd past := hstands.unused hs
  refine Sys.ends_ending (fun a ha => ?_) fun _ => h.doom hf hunused
  obtain ⟨hok, hafter, hr⟩ := hafter thread reply arrivals past a ha hstands hp hlaw
  exact ⟨h.flagged hf hunused hok hafter, hr⟩

/-- What is told of its own flags is what they are. -/
theorem custody_descriptorFlags (fd : Descriptor) :
    Triple (Custody born ((fd, .bare) :: held) none)
      (Sys.ask (.descriptorFlags fd) id : Sys κ Nat)
      (Outcome.Ends (fun told past => Custody born ((fd, .bare) :: held) none past ∧
          told = (flagsOn born fd past).descriptor)
        (Custody born held (some fd))) (Trusted born) := by
  refine (custody_flagged .bare .bare (P := fun _ => True) rfl nofun ?_).strengthen
    fun _ _ h => ⟨h, trivial⟩
  rintro thread _ arrivals past told rfl hstands - hlaw
  have hflags : flagsOn born fd (⟨thread, .descriptorFlags fd, .ok told, arrivals⟩ :: past) =
      flagsOn born fd past := if_neg nofun
  rw [hflags]
  exact ⟨fun hs => hs.2 told rfl, hstands.looked rfl hflags, hlaw.candid.1 fd hstands.opened rfl⟩

theorem custody_setDescriptorFlags (fd : Descriptor) (told : Nat) :
    Triple (fun past => Custody born ((fd, .bare) :: held) none past ∧
        told = (flagsOn born fd past).descriptor)
      (Sys.ask (.setDescriptorFlags fd (told ||| Descriptor.closeOnExec)) id : Sys κ Unit)
      (Outcome.Ends (fun _ => Custody born ((fd, .sealed) :: held) none)
        (Custody born held (some fd))) (Trusted born) := by
  refine (custody_flagged .bare .sealed (R := fun _ _ => True) rfl nofun ?_).weaken
    (fun _ _ h => h) fun _ _ _ h => h.imp (fun _ h => h.1) fun h => h
  rintro thread _ arrivals past _ rfl hpending rfl -
  generalize hnew : (flagsOn born fd past).descriptor ||| Descriptor.closeOnExec = new
  have hflags : flagsOn born fd (⟨thread, .setDescriptorFlags fd new, .ok (), arrivals⟩ :: past) =
      { flagsOn born fd past with descriptor := new } := (if_neg nofun).trans (if_pos rfl)
  refine ⟨fun hs => hs.2 rfl, ⟨Pending.flagged hpending rfl ?_, ?_⟩, trivial⟩
  · rw [hflags, ← hnew]
    exact ⟨hpending.kept.descriptor.or _, hpending.kept.status⟩
  · rw [hflags, ← hnew]
    exact Flags.includes_or _ _

/-- A descriptor is sealed, or doomed. -/
theorem custody_setCloseOnExec (fd : Descriptor) :
    Triple (Custody born ((fd, .bare) :: held) none) (Socket.setCloseOnExec fd : Sys κ Unit)
      (Outcome.Ends (fun _ => Custody born ((fd, .sealed) :: held) none)
        (Custody born held (some fd))) (Trusted born) :=
  Triple.bind (custody_descriptorFlags fd) fun told => custody_setDescriptorFlags fd told

/-- What is told of its status flags is what they are. -/
theorem custody_statusFlags (fd : Descriptor) :
    Triple (Custody born ((fd, .sealed) :: held) none) (Sys.ask (.statusFlags fd) id : Sys κ Nat)
      (Outcome.Ends (fun told past => Custody born ((fd, .sealed) :: held) none past ∧
          told = (flagsOn born fd past).status) (Custody born held (some fd))) (Trusted born) := by
  refine (custody_flagged .sealed .sealed (P := fun _ => True) rfl nofun ?_).strengthen
    fun _ _ h => ⟨h, trivial⟩
  rintro thread _ arrivals past told rfl hstands - hlaw
  have hflags : flagsOn born fd (⟨thread, .statusFlags fd, .ok told, arrivals⟩ :: past) =
      flagsOn born fd past := if_neg nofun
  rw [hflags]
  exact ⟨fun hs => hs.2 told rfl, hstands.looked rfl hflags, hlaw.candid.1 fd hstands.opened rfl⟩

theorem custody_setStatusFlags (fd : Descriptor) (told : Nat) :
    Triple (fun past => Custody born ((fd, .sealed) :: held) none past ∧
        told = (flagsOn born fd past).status)
      (Sys.ask (.setStatusFlags fd (told ||| Descriptor.nonBlocking)) id : Sys κ Unit)
      (Outcome.Ends (fun _ => Custody born ((fd, .ready) :: held) none)
        (Custody born held (some fd))) (Trusted born) := by
  refine (custody_flagged .sealed .ready (R := fun _ _ => True) rfl nofun ?_).weaken
    (fun _ _ h => h) fun _ _ _ h => h.imp (fun _ h => h.1) fun h => h
  rintro thread _ arrivals past _ rfl ⟨hpending, hsealed⟩ rfl -
  generalize hnew : (flagsOn born fd past).status ||| Descriptor.nonBlocking = new
  have hflags : flagsOn born fd (⟨thread, .setStatusFlags fd new, .ok (), arrivals⟩ :: past) =
      { flagsOn born fd past with status := new } := (if_neg nofun).trans (if_pos rfl)
  have hafter : Pending born fd (⟨thread, .setStatusFlags fd new, .ok (), arrivals⟩ :: past) := by
    refine hpending.flagged rfl ?_
    rw [hflags, ← hnew]
    exact ⟨hpending.kept.descriptor, hpending.kept.status.or _⟩
  refine ⟨fun hs => hs.2 rfl, ⟨hafter.opened, ?_, ?_, hafter.kept⟩, trivial⟩
  · rw [hflags]
    exact hsealed
  · rw [hflags, ← hnew]
    exact Flags.includes_or _ _

/-- A descriptor becomes ready, or is doomed. -/
theorem custody_setNonBlocking (fd : Descriptor) :
    Triple (Custody born ((fd, .sealed) :: held) none) (Socket.setNonBlocking fd : Sys κ Unit)
      (Outcome.Ends (fun _ => Custody born ((fd, .ready) :: held) none)
        (Custody born held (some fd))) (Trusted born) := by
  refine Triple.bind (custody_statusFlags fd) fun told => ?_
  split
  · rename_i hset
    exact Triple.pure fun _ _ h => h.1.unblocked h.2 hset
  · exact custody_setStatusFlags fd told

/-- A listening socket is handed over sealed, or closed again. -/
theorem custody_listenOn (port : Nat) (backlog : Int) (reusePort : Bool) :
    Triple (Custody born held none) (Socket.listenOn port backlog reusePort : Sys κ Descriptor)
      (Outcome.Ends (fun fd => Custody born ((fd, .sealed) :: held) none) (Custody born held none))
      (Trusted born) := by
  refine Triple.bind (Q := Outcome.Ends
      (fun number : Nat => Custody born (((number : Int), .bare) :: held) none)
      (Custody born held none))
    (Sys.triple_ask fun thread reply arrivals past h hlaw => Sys.ends_ending ?_ ?_) fun number => ?_
  · rintro number rfl
    exact h.handOut (hlaw.fresh.1 number rfl) rfl nofun
  · intro hno
    cases reply with
    | ok number => exact absurd rfl (hno number)
    | failed errno => exact h.idle rfl rfl rfl nofun
    | notOpen => exact h.idle rfl rfl rfl nofun
  · refine triple_closingOnFailure ?_ (custody_closeDoomed number)
    have hask : ∀ {α : Type} {c : Call} {read : c.Reply → Answer α}, c.Quiet → c.flagged? = none →
        c.uses = [] → Triple (Custody born (((number : Int), .sealed) :: held) none)
          (Sys.ask c read : Sys κ α) _ (Trusted born) := fun hq hf hu =>
      Sys.custody_further (Sys.calling_ask ⟨.inl hq, hf, by rw [hu]; exact nofun⟩ _)
    refine Triple.bind (custody_setCloseOnExec number) fun _ => ?_
    refine Triple.bind (hask trivial rfl rfl) fun _ => ?_
    refine Triple.bind (Triple.when (hask trivial rfl rfl) fun _ _ h => h) fun _ => ?_
    refine Triple.bind (hask trivial rfl rfl) fun _ => ?_
    refine Triple.bind (hask trivial rfl rfl) fun _ => ?_
    exact Triple.pure fun _ _ h => h

/-- An accepted socket is handed over sealed, or closed again. -/
theorem custody_accept {listener : Descriptor} (hl : (listener, .ready) ∈ held) :
    Triple (Custody born held none)
      (Socket.accept listener : Sys κ (Descriptor × Option Endpoint))
      (Outcome.Ends (fun accepted => Custody born ((accepted.1, .sealed) :: held) none)
        (Custody born held none)) (Trusted born) := by
  refine Triple.bind (Q := Outcome.Ends
      (fun a : Nat × SocketName => Custody born (((a.1 : Int), .bare) :: held) none)
      (Custody born held none))
    (Sys.triple_ask fun thread reply arrivals past h hlaw => Sys.ends_ending ?_ ?_) fun a => ?_
  · rintro ⟨number, name⟩ rfl
    exact h.handOut (hlaw.fresh.1 number rfl) rfl (by simpa [Call.uses] using hl)
  · intro hno
    have hu : ∀ x ∈ [listener], (x, .ready) ∈ held := by simpa using hl
    cases reply with
    | ok a => exact absurd rfl (hno a)
    | failed errno => exact h.idle rfl rfl rfl hu
    | notOpen => exact h.idle rfl rfl rfl hu
  · obtain ⟨number, name⟩ := a
    refine triple_closingOnFailure ?_ (custody_closeDoomed number)
    refine Triple.bind (custody_setCloseOnExec number) fun _ => ?_
    exact Triple.pure fun _ _ h => h

end Socket

end SpanEcho

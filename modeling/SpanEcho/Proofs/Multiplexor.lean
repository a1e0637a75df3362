import SpanEcho.Multiplexor
import SpanEcho.Proofs.Ledger

/-!
# What a wait lists

A wait with `select` or `poll` lists only what was registered, in the order of registration, each at
most once and in no direction that was not asked for, whatever the kernel reports.
-/

namespace SpanEcho

/-- The ready ones are registered, in the order of registration, and ready in a direction that was
asked for. -/
structure Readiness.Within (entries : List Registration) (ready : List Readiness) : Prop where
  sublist : (ready.map (·.fd)).Sublist (entries.map (·.fd))
  asked : ∀ r ∈ ready, ∃ e ∈ entries, e.fd = r.fd ∧ (r.readable → e.interest.readable) ∧
    (r.writable → e.interest.writable)
  any : ∀ r ∈ ready, r.any

namespace Readiness.Within

variable {e : Registration} {entries : List Registration} {r : Readiness} {ready : List Readiness}

theorem nil (entries : List Registration) : Within entries [] :=
  ⟨List.nil_sublist _, nofun, nofun⟩

theorem skip (h : Within entries ready) : Within (e :: entries) ready where
  sublist := h.sublist.cons e.fd
  asked := fun r hr => by
    obtain ⟨e', he', hasked⟩ := h.asked r hr
    exact ⟨e', List.mem_cons_of_mem e he', hasked⟩
  any := h.any

theorem keep (h : Within entries ready) (hfd : e.fd = r.fd) (hr : r.readable → e.interest.readable)
    (hw : r.writable → e.interest.writable) (hany : r.any) :
    Within (e :: entries) (r :: ready) where
  sublist := by
    rw [List.map_cons, List.map_cons, hfd]
    exact h.sublist.cons_cons r.fd
  asked := fun x hx => by
    rcases List.mem_cons.mp hx with rfl | hx
    · exact ⟨e, List.mem_cons_self, hfd, hr, hw⟩
    · exact h.skip.asked x hx
  any := fun x hx => by
    rcases List.mem_cons.mp hx with rfl | hx
    · exact hany
    · exact h.any x hx

end Readiness.Within

open Readiness (Within)

theorem Polled.ready_within (entries : List Registration) (p : Polled) :
    Within entries (p.ready entries) := by
  unfold Polled.ready
  split
  · exact .nil entries
  · generalize p.conditions = conditions
    induction entries generalizing conditions with
    | nil => exact .nil []
    | cons e entries ih =>
      cases conditions with
      | nil => exact .nil _
      | cons c conditions =>
        rw [List.zipWith_cons_cons, List.filter_cons]
        split
        · rename_i hany
          exact (ih conditions).keep rfl (by simp [Condition.readiness]; exact fun h _ => h)
            (by simp [Condition.readiness]; exact fun h _ => h) hany
        · exact (ih conditions).skip

theorem Selected.scan_within (s : Selected) (left : Int) (entries : List Registration) :
    Within entries (s.scan left entries) := by
  induction entries generalizing left with
  | nil => exact .nil []
  | cons e entries ih =>
    rw [Selected.scan]
    split
    · exact .nil _
    · simp only
      split
      · rename_i hany
        exact (ih _).keep rfl (by simp [Selected.readiness]; exact fun h _ => h)
          (by simp [Selected.readiness]; exact fun h _ => h) hany
      · exact (ih _).skip

namespace Multiplexor

open SpanEcho.Action

variable {κ : Type} [Kernel κ] {held : List Descriptor} {traffic : Descriptor → Traffic}
  {entries : List Registration}

/-- What is promised of the list that a wait ends with. -/
def Lists (m : Multiplexor) (entries : List Registration) (ready : List Readiness) : Prop :=
  match m with
  | select | poll => Within entries ready
  | external _ _ => True

theorem lists_nil (m : Multiplexor) : m.Lists entries [] := by
  cases m <;> first | exact .nil entries | trivial

theorem mem_watched {direction : Interest → Bool} {fd : Descriptor}
    (h : fd ∈ watched direction entries) : fd ∈ entries.map (·.fd) := by
  obtain ⟨e, he, rfl⟩ := List.mem_map.mp h
  exact List.mem_map_of_mem (List.mem_filter.mp he).1

omit [Kernel κ] in
theorem triple_interruptedOr (operation : String) (errno : Errno) (m : Multiplexor) :
    Triple (Ledger held traffic) (interruptedOr operation errno : Sys κ (List Readiness))
      (Outcome.Ends (fun ready past => Ledger held traffic past ∧ m.Lists entries ready)
        (Ledger held traffic)) := by
  unfold interruptedOr
  split
  · exact Triple.pure fun _ _ h => ⟨h, m.lists_nil⟩
  · exact Triple.fail fun _ _ h => h

theorem triple_wait (m : Multiplexor) (highest : Descriptor) (limit : Option Duration)
    (hn : ∀ fd ∈ entries.map (·.fd), fd ∈ held) :
    Triple (Ledger held traffic) (m.wait entries highest limit : Sys κ (List Readiness))
      (Outcome.Ends (fun ready past => Ledger held traffic past ∧ m.Lists entries ready)
        (Ledger held traffic)) := by
  cases m with
  | select =>
    simp only [wait]
    split
    · exact Triple.fail fun _ _ h => h
    · refine Triple.bind (Q := fun _ => Ledger held traffic)
        (Sys.triple_call fun _ _ _ _ h _ => h.idle (Event.idle_of_quiet trivial) fun fd hfd => ?_)
        fun reply => ?_
      · rcases List.mem_append.mp hfd with hfd | hfd
        · exact hn fd (mem_watched hfd)
        · exact hn fd (mem_watched hfd)
      · split
        · exact triple_interruptedOr _ _ .select
        · exact Triple.pure fun _ _ h => ⟨h, reply.scan_within _ entries⟩
  | poll =>
    refine Triple.bind (Q := fun _ => Ledger held traffic)
      (Sys.triple_call fun _ _ _ _ h _ => h.idle (Event.idle_of_quiet trivial) hn) fun reply => ?_
    split
    · exact triple_interruptedOr _ _ .poll
    · exact Triple.pure fun _ _ h => ⟨h, reply.ready_within entries⟩
  | external name bound =>
    refine Triple.bind (Q := fun _ => Ledger held traffic)
      (Sys.triple_call fun _ _ _ _ h _ => h.idle (Event.idle_of_quiet trivial) hn) fun reply => ?_
    cases reply with
    | ok ready => exact Triple.pure fun _ _ h => ⟨h, trivial⟩
    | failed errno => exact Triple.fail fun _ _ h => h
    | notOpen => exact Triple.fail fun _ _ h => h

end Multiplexor

/-! ## Failing waits -/

/-- The wait failed, with `why`, and not because it was interrupted. -/
def Event.WaitFailed (why : Failure) : Event → Prop
  | ⟨_, .select _ _ _ _, reply, _⟩ =>
    reply.returned < 0 ∧ reply.errno ≠ .interrupted ∧ why = .system "select" reply.errno.recognized
  | ⟨_, .poll _ _, reply, _⟩ =>
    reply.returned < 0 ∧ reply.errno ≠ .interrupted ∧ why = .system "poll" reply.errno.recognized
  | ⟨_, .watch _ _ _, reply, _⟩ =>
    (∀ ready, reply ≠ .ok ready) ∧ ∃ name errno, why = .system name errno
  | _ => False

namespace Multiplexor

open SpanEcho.Action

variable {κ : Type} [Kernel κ] {entries : List Registration}

omit [Kernel κ] in
/-- What is made of a reply that is negative when the call failed. -/
theorem reply_cases (operation : String) (returned : Int) (errno : Errno) (listed : List Readiness)
    (w : World κ) :
    let ending : Sys κ (List Readiness) :=
      if returned < 0 then interruptedOr operation errno else pure listed
    (∃ ready, ending w = (.ok ready, w)) ∨ returned < 0 ∧ errno ≠ .interrupted ∧
      ending w = (.failed (.system operation errno.recognized), w) := by
  intro ending
  by_cases hneg : returned < 0
  · simp only [ending, if_pos hneg, interruptedOr]
    split
    · exact .inl ⟨_, rfl⟩
    · rename_i hne
      exact .inr ⟨hneg, hne, rfl⟩
  · simp only [ending, if_neg hneg]
    exact .inl ⟨_, rfl⟩

/-- Where every entry can be watched, nothing but a failing call makes a wait fail. -/
theorem wait_cases (m : Multiplexor) (h : ∀ e ∈ entries, m.refusal? e.fd = none)
    (highest : Descriptor) (limit : Option Duration) (w : World κ) :
    (∃ ready w', m.wait entries highest limit w = (.ok ready, w')) ∨
      ∃ why w' e, m.wait entries highest limit w = (.failed why, w') ∧ w'.past = e :: w.past ∧
        Event.WaitFailed why e := by
  cases m with
  | select =>
    let c := Call.select (highest + 1) (watched (·.readable) entries) (watched (·.writable) entries)
      (limit.map .ofDuration)
    have hnone : (entries.findSome? fun e => select.refusal? e.fd) = none :=
      List.findSome?_eq_none_iff.mpr h
    simp only [wait, hnone]
    rcases reply_cases "select" (w.call c).1.returned (w.call c).1.errno
      ((w.call c).1.ready entries) (w.call c).2 with ⟨ready, hready⟩ | ⟨hneg, hne, hfailed⟩
    · exact .inl ⟨ready, _, hready⟩
    · exact .inr ⟨_, _, _, hfailed, World.call_past _ _, hneg, hne, rfl⟩
  | poll =>
    let c := Call.poll entries (Polled.millis limit)
    rcases reply_cases "poll" (w.call c).1.returned (w.call c).1.errno ((w.call c).1.ready entries)
      (w.call c).2 with ⟨ready, hready⟩ | ⟨hneg, hne, hfailed⟩
    · exact .inl ⟨ready, _, hready⟩
    · exact .inr ⟨_, _, _, hfailed, World.call_past _ _, hneg, hne, rfl⟩
  | external name bound =>
    let c := Call.watch entries highest limit
    have hwait : (external name bound).wait entries highest limit w =
        (match (w.call c).1 with
          | .ok ready => pure ready
          | .failed errno => Action.fail (.system name errno)
          | .notOpen => Action.fail (.system name .badDescriptor) : Sys κ (List Readiness))
          (w.call c).2 := rfl
    rw [hwait]
    cases hreply : (w.call c).1 with
    | ok ready => exact .inl ⟨ready, _, rfl⟩
    | failed errno =>
      refine .inr ⟨_, _, _, rfl, World.call_past _ _, fun ready hok => ?_, name, errno, rfl⟩
      exact nomatch hreply.symm.trans hok
    | notOpen =>
      refine .inr ⟨_, _, _, rfl, World.call_past _ _, fun ready hok => ?_, name, _, rfl⟩
      exact nomatch hreply.symm.trans hok

end Multiplexor

end SpanEcho

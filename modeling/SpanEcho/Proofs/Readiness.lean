import Mathlib.Data.Finset.Card
import SpanEcho.Multiplexor
import SpanEcho.Script.Kernel

/-!
# What is listed is what is ready

`select` hands back two sets and the number of their members, `poll` a condition for each entry and
the number of those with something to report. Where both speak of the same readiness, both waits
list the same: every entry, in order, with the directions it was asked for and is ready in. The
members that nobody asked for are in the count of `select` too, so the count only ever
runs out late.
-/

namespace SpanEcho

/-- The directions in which an entry is ready, if the descriptors in `reads` are readable and those
in `writes` writable. -/
def Registration.readyIn (reads writes : Finset Descriptor) (e : Registration) : Readiness :=
  { fd := e.fd
    readable := e.interest.readable && decide (e.fd ∈ reads)
    writable := e.interest.writable && decide (e.fd ∈ writes) }

/-- The ready ones among the entries, in order. -/
def Registration.readyAmong (reads writes : Finset Descriptor) (entries : List Registration) :
    List Readiness :=
  (entries.map (·.readyIn reads writes)).filter (·.any)

/-- The condition says of a descriptor that it is readable or writable just as the sets do. One that
hung up, failed or is not open is in both. -/
def Condition.Shows (reads writes : Finset Descriptor) (fd : Descriptor) (c : Condition) : Prop :=
  if c.hangUp || c.error || c.invalid then fd ∈ reads ∧ fd ∈ writes
  else (c.readable = true ↔ fd ∈ reads) ∧ (c.writable = true ↔ fd ∈ writes)

/-- The reply is what `poll` makes of this readiness: a condition for each entry, and the number of
those that are not empty. -/
structure Polled.Shows (reads writes : Finset Descriptor) (entries : List Registration)
    (p : Polled) : Prop where
  conditions : List.Forall₂ (fun e c => c.Shows reads writes e.fd) entries p.conditions
  returned : p.returned = p.conditions.countP (·.any)

/-- The reply is what `select` makes of this readiness: the two sets, and how many members they have
together. -/
structure Selected.Shows (reads writes : Finset Descriptor) (s : Selected) : Prop where
  readable : ∀ fd, fd ∈ s.readable ↔ fd ∈ reads
  writable : ∀ fd, fd ∈ s.writable ↔ fd ∈ writes
  returned : s.returned = reads.card + writes.card

variable {reads writes : Finset Descriptor} {entries : List Registration}

/-! ## Conditions -/

theorem Condition.Shows.readiness {e : Registration} {c : Condition}
    (h : c.Shows reads writes e.fd) : c.readiness e.fd e.interest = e.readyIn reads writes := by
  unfold Shows at h
  split at h
  · rename_i hbroken
    simp [Condition.readiness, Registration.readyIn, hbroken, h.1, h.2]
  · rename_i hbroken
    simp [Condition.readiness, Registration.readyIn, hbroken, ← h.1, ← h.2]

/-- A condition that is not there is no reason to list the entry. -/
theorem Condition.not_any_readiness (c : Condition) (fd : Descriptor) (i : Interest)
    (h : c.any = false) : (c.readiness fd i).any = false := by
  simp only [Condition.any, Bool.or_eq_false_iff] at h
  simp [Condition.readiness, Readiness.any, h]

theorem Condition.zipWith_readiness {conditions : List Condition}
    (h : List.Forall₂ (fun e c => c.Shows reads writes e.fd) entries conditions) :
    entries.zipWith (fun e c => c.readiness e.fd e.interest) conditions =
      entries.map (·.readyIn reads writes) := by
  induction h with
  | nil => rfl
  | cons hc _ ih => rw [List.zipWith_cons_cons, List.map_cons, hc.readiness, ih]

/-- What `poll` lists is what is ready. -/
theorem Polled.Shows.ready {p : Polled} (h : p.Shows reads writes entries) :
    p.ready entries = Registration.readyAmong reads writes entries := by
  unfold Polled.ready Registration.readyAmong
  have hzip := Condition.zipWith_readiness h.conditions
  rw [← hzip]
  split
  · -- a count of zero is right: no condition has anything to report
    rename_i hzero
    have hnone : ∀ c ∈ p.conditions, c.any = false := by
      have hcount : p.conditions.countP (·.any) = 0 := by
        have := h.returned
        omega
      simpa using List.countP_eq_zero.mp hcount
    refine (List.filter_eq_nil_iff.mpr fun r hr => ?_).symm
    obtain ⟨i, hi, rfl⟩ := List.getElem_of_mem hr
    rw [List.getElem_zipWith, Bool.not_eq_true]
    exact Condition.not_any_readiness _ _ _ (hnone _ (List.getElem_mem _))
  · rfl

theorem Polled.Shows.returned_nonneg {p : Polled} (h : p.Shows reads writes entries) :
    ¬ p.returned < 0 := by
  have := h.returned
  omega

/-! ## Sets -/

theorem Selected.Shows.readiness {s : Selected} (h : s.Shows reads writes) (e : Registration) :
    s.readiness e = e.readyIn reads writes := by
  simp [Selected.readiness, Registration.readyIn, List.contains_eq_mem, h.readable, h.writable]

/-- While the count covers the ready directions, the scan passes over none of them. -/
theorem Selected.scan_eq (s : Selected) {left : Int}
    (h : (entries.countP fun e => (s.readiness e).readable : Int) +
      entries.countP (fun e => (s.readiness e).writable) ≤ left) :
    s.scan left entries = (entries.map s.readiness).filter (·.any) := by
  induction entries generalizing left with
  | nil => rfl
  | cons e entries ih =>
    rw [Selected.scan]
    split
    · -- the count has run out, so no direction is left over
      have hreadable : (e :: entries).countP (fun e => (s.readiness e).readable) = 0 := by omega
      have hwritable : (e :: entries).countP (fun e => (s.readiness e).writable) = 0 := by omega
      refine (List.filter_eq_nil_iff.mpr fun r hr => ?_).symm
      obtain ⟨e', he', rfl⟩ := List.mem_map.mp hr
      have hr := List.countP_eq_zero.mp hreadable e' he'
      have hw := List.countP_eq_zero.mp hwritable e' he'
      simp only [Readiness.any, hr, hw, Bool.or_self, Bool.false_eq_true, not_false_eq_true]
    · have hcount : (entries.countP fun e => (s.readiness e).readable : Int) +
          entries.countP (fun e => (s.readiness e).writable) ≤
            left - ((s.readiness e).readable.toNat + (s.readiness e).writable.toNat) := by
        simp only [List.countP_cons] at h
        cases hr : (s.readiness e).readable <;> cases hw : (s.readiness e).writable <;>
          simp [hr, hw] at h ⊢ <;> omega
      simp only [ih hcount, List.map_cons, List.filter_cons]

/-- Distinct descriptors in a set are not more than the set has members. -/
theorem Registration.countP_le_card (hdistinct : (entries.map (·.fd)).Nodup)
    (p : Registration → Bool) (members : Finset Descriptor) :
    entries.countP (fun e => p e && decide (e.fd ∈ members)) ≤ members.card := by
  let found := entries.filter fun e => p e && decide (e.fd ∈ members)
  have hnodup : (found.map (·.fd)).Nodup := hdistinct.sublist (List.filter_sublist.map _)
  have hsub : (found.map (·.fd)).toFinset ⊆ members := by
    intro fd hfd
    obtain ⟨e, he, rfl⟩ := List.mem_map.mp (List.mem_toFinset.mp hfd)
    have := (List.mem_filter.mp he).2
    simp only [Bool.and_eq_true, decide_eq_true_eq] at this
    exact this.2
  calc entries.countP _ = (found.map (·.fd)).length := by
        rw [List.length_map, List.countP_eq_length_filter]
    _ = (found.map (·.fd)).toFinset.card := (List.toFinset_card_of_nodup hnodup).symm
    _ ≤ members.card := Finset.card_le_card hsub

/-- What `select` lists is what is ready. -/
theorem Selected.Shows.ready {s : Selected} (h : s.Shows reads writes)
    (hdistinct : (entries.map (·.fd)).Nodup) :
    s.ready entries = Registration.readyAmong reads writes entries := by
  have hsame : s.readiness = Registration.readyIn reads writes := funext h.readiness
  have hcount : (entries.countP fun e => (s.readiness e).readable : Int) +
      entries.countP (fun e => (s.readiness e).writable) ≤ s.returned := by
    rw [hsame, h.returned]
    exact_mod_cast Nat.add_le_add (Registration.countP_le_card hdistinct _ reads)
      (Registration.countP_le_card hdistinct _ writes)
  rw [Selected.ready, s.scan_eq hcount, hsame, Registration.readyAmong]

theorem Selected.Shows.returned_nonneg {s : Selected} (h : s.Shows reads writes) :
    ¬ s.returned < 0 := by
  have := h.returned
  omega

namespace Multiplexor

variable {κ κ' : Type} [Kernel κ] [Kernel κ']

theorem select_wait_of_refusal (highest : Descriptor) (limit : Option Duration) (w : World κ)
    (hrange : ∀ e ∈ entries, 0 ≤ e.fd ∧ e.fd < Selected.setSize) :
    let selected := w.call (.select (highest + 1) (watched (·.readable) entries)
      (watched (·.writable) entries) (limit.map .ofDuration))
    select.wait entries highest limit w =
      (if selected.1.returned < 0 then interruptedOr "select" selected.1.errno
        else pure (selected.1.ready entries) : Sys κ (List Readiness)) selected.2 := by
  have hnone : (entries.findSome? fun e => select.refusal? e.fd) = none := by
    refine List.findSome?_eq_none_iff.mpr fun e he => ?_
    have hfd := hrange e he
    exact if_neg (not_or.mpr ⟨Int.not_lt.mpr hfd.1, Int.not_le.mpr hfd.2⟩)
  simp only [wait, hnone]
  rfl

omit [Kernel κ] in
/-- An interrupted wait and one that ran out of time list nothing. -/
theorem nothing_of_reply {operation : String} {returned : Int} {errno : Errno}
    {listed : List Readiness} {w : World κ} (hlisted : returned = 0 → listed = [])
    (h : returned = 0 ∨ returned < 0 ∧ errno = .interrupted) :
    (if returned < 0 then interruptedOr operation errno else pure listed :
      Sys κ (List Readiness)) w = (.ok [], w) := by
  rcases h with hzero | ⟨hneg, hinterrupted⟩
  · rw [if_neg (by omega), hlisted hzero]
    rfl
  · rw [if_pos hneg, interruptedOr, if_pos hinterrupted]
    rfl

/-- **Both waits list what is ready, and nothing is lost.** For entries in ascending order that a
set can hold, and whatever the kernel says is readable or writable, asked for or not, a wait with
`select` and one with `poll` end well with the same list: each entry in order with the directions it
was asked for and is ready in, those with none left out. A condition of hang-up, error or a
descriptor that is not open counts as both directions. Where the count is zero or the wait was
interrupted, the list is empty. Nothing else is in it, so what was ready at an earlier wait is
forgotten. -/
theorem same_of_waits (highest : Descriptor) (limit : Option Duration) (w : World κ) (w' : World κ')
    (hascending : entries.Pairwise (·.fd < ·.fd))
    (hrange : ∀ e ∈ entries, 0 ≤ e.fd ∧ e.fd < Selected.setSize) :
    let selected := w.call (.select (highest + 1) (watched (·.readable) entries)
      (watched (·.writable) entries) (limit.map .ofDuration))
    let polled := w'.call (.poll entries (Polled.millis limit))
    (∀ reads writes, selected.1.Shows reads writes → polled.1.Shows reads writes entries →
      select.wait entries highest limit w =
          (.ok (Registration.readyAmong reads writes entries), selected.2) ∧
        poll.wait entries highest limit w' =
          (.ok (Registration.readyAmong reads writes entries), polled.2)) ∧
      (selected.1.returned = 0 ∨ selected.1.returned < 0 ∧ selected.1.errno = .interrupted →
        select.wait entries highest limit w = (.ok [], selected.2)) ∧
      (polled.1.returned = 0 ∨ polled.1.returned < 0 ∧ polled.1.errno = .interrupted →
        poll.wait entries highest limit w' = (.ok [], polled.2)) := by
  intro selected polled
  have hselect := select_wait_of_refusal highest limit w hrange
  have hdistinct : (entries.map (·.fd)).Nodup :=
    (List.pairwise_map.mpr hascending).imp fun h => ne_of_lt h
  refine ⟨fun reads writes hselected hpolled => ⟨?_, ?_⟩, fun h => ?_, fun h => ?_⟩
  · rw [hselect, if_neg hselected.returned_nonneg, hselected.ready hdistinct]
    rfl
  · change (if polled.1.returned < 0 then interruptedOr "poll" polled.1.errno
      else pure (polled.1.ready entries) : Sys κ' (List Readiness)) polled.2 = _
    rw [if_neg hpolled.returned_nonneg, hpolled.ready]
    rfl
  · rw [hselect]
    refine nothing_of_reply (fun hzero => ?_) h
    change selected.1.ready entries = []
    rw [Selected.ready, hzero]
    cases entries <;> rfl
  · exact nothing_of_reply (fun hzero => if_pos hzero) h

/-! Descriptor 3 is writable but watched for reading only, 4 is readable, nothing happens to 5, 7
has hung up, and 9 is not watched. -/

namespace Agreement

def asked : List Registration :=
  [⟨3, .read⟩, ⟨4, .both⟩, ⟨5, .write⟩, ⟨7, .read⟩]

/-- A world in which a wait comes back with what happened to the descriptors, `seven` being what
happened to 7: a set knows no hang-up. -/
def world (seven : Condition) : World Script :=
  { kernel := Script.withWaits {} .main [{ ready :=
      [(3, { writable := true }), (4, { readable := true }), (7, seven),
        (9, { readable := true, writable := true })] }] }

def selected : Selected × World Script :=
  (world { readable := true, writable := true }).call
    (.select 8 (watched (·.readable) asked) (watched (·.writable) asked) none)

def polled : Polled × World Script :=
  (world { hangUp := true }).call (.poll asked (-1))

theorem selected_shows : selected.1.Shows {4, 7, 9} {3, 7, 9} := by
  have hreply : selected.1 = { returned := 6, readable := [4, 7, 9], writable := [3, 7, 9] } := by
    decide +kernel
  rw [hreply]
  exact ⟨fun fd => by simp, fun fd => by simp, rfl⟩

theorem polled_shows : polled.1.Shows {4, 7, 9} {3, 7, 9} asked := by
  have hreply : polled.1 =
      { returned := 3, conditions := [{ writable := true }, { readable := true }, {},
        { hangUp := true }] } := by decide +kernel
  rw [hreply]
  exact ⟨by simp [asked, Condition.Shows], rfl⟩

theorem same_of_hangUp :
    asked.Pairwise (·.fd < ·.fd) ∧ (∀ e ∈ asked, 0 ≤ e.fd ∧ e.fd < Selected.setSize) ∧
      select.wait asked 7 none (world { readable := true, writable := true }) =
        (.ok [⟨4, true, false⟩, ⟨7, true, false⟩], selected.2) ∧
      poll.wait asked 7 none (world { hangUp := true }) =
        (.ok [⟨4, true, false⟩, ⟨7, true, false⟩], polled.2) := by
  have hascending : asked.Pairwise (·.fd < ·.fd) := by decide
  have hrange : ∀ e ∈ asked, 0 ≤ e.fd ∧ e.fd < Selected.setSize := by decide
  exact ⟨hascending, hrange,
    (same_of_waits 7 none (world { readable := true, writable := true }) (world { hangUp := true })
      hascending hrange).1 _ _ selected_shows polled_shows⟩

end Agreement

end Multiplexor

end SpanEcho

import Mathlib
import SpanEcho.Proofs.Registry

/-!
# A registry is a bounded map

A registry answers every run of requests as a finite map from descriptors to connections would that
takes no more than `capacity` of them. The map is `contents`. What a request does to it follows from
what it does to the slots: a connection that is filed enters the map under its descriptor, one that
is removed leaves it, and a request that is refused or comes with a stale ticket changes nothing in
the registry at all.
-/

namespace SpanEcho.Registry

variable {σ : Type} {r : Registry σ} {fd : Descriptor} {t : Ticket} {entry : Entry σ}

/-- The live connections by descriptor. -/
def contents (r : Registry σ) : Finmap fun _ : Descriptor => Entry σ :=
  (r.toList.map fun (t, entry) => (⟨t.fd, entry⟩ : Sigma fun _ => Entry σ)).toFinmap

theorem toList_ascending (h : r.Sound) : r.toList.Pairwise fun a b => a.1.fd < b.1.fd := by
  refine h.ascending.filterMap _ fun a b hab x hx y hy => ?_
  obtain ⟨_, -, rfl⟩ := Option.map_eq_some_iff.mp hx
  obtain ⟨_, -, rfl⟩ := Option.map_eq_some_iff.mp hy
  exact hab

theorem toList_nodup (h : r.Sound) : (r.toList.map (·.1.fd)).Nodup :=
  List.pairwise_map.mpr ((toList_ascending h).imp Int.ne_of_lt)

theorem mem_toList_iff (h : r.Sound) :
    (∃ t, t.fd = fd ∧ (t, entry) ∈ r.toList) ↔ r.entryAt fd = some entry := by
  constructor
  · rintro ⟨t, rfl, hm⟩
    exact entryAt_of_get? ((mem_toList h).mp hm)
  · exact fun he => ⟨_, rfl, mem_toList_of_entryAt h he⟩

theorem lookup_contents (h : r.Sound) (fd : Descriptor) : r.contents.lookup fd = r.entryAt fd := by
  rw [contents, Finmap.dlookup_list_toFinmap]
  have hkeys : (r.toList.map fun (t, entry) =>
      (⟨t.fd, entry⟩ : Sigma fun _ : Descriptor => Entry σ)).NodupKeys := by
    rw [List.NodupKeys, List.keys, List.map_map]
    exact toList_nodup h
  refine Option.ext fun entry => ?_
  rw [← Option.mem_def, List.mem_dlookup_iff hkeys, ← mem_toList_iff h, List.mem_map]
  constructor
  · rintro ⟨⟨t, e⟩, hm, heq⟩
    cases heq
    exact ⟨t, rfl, hm⟩
  · rintro ⟨t, rfl, hm⟩
    exact ⟨(t, entry), hm, rfl⟩

theorem mem_contents (h : r.Sound) : fd ∈ r.contents ↔ (r.entryAt fd).isSome := by
  rw [← Finmap.lookup_isSome, lookup_contents h]

theorem card_contents (h : r.Sound) : r.contents.keys.card = r.live := by
  have hkeys : r.contents.keys = (r.toList.map (·.1.fd)).toFinset := by
    refine Finset.ext fun fd => ?_
    rw [Finmap.mem_keys, mem_contents h, Option.isSome_iff_exists, List.mem_toFinset, List.mem_map]
    simp only [← mem_toList_iff h]
    constructor
    · rintro ⟨entry, t, hfd, hm⟩
      exact ⟨(t, entry), hm, hfd⟩
    · rintro ⟨⟨t, entry⟩, hm, hfd⟩
      exact ⟨entry, t, hfd, hm⟩
  rw [hkeys, List.toFinset_card_of_nodup (toList_nodup h), List.length_map, h.live]

/-! ## What operations do to the map -/

theorem contents_insert (h : r.Sound) (ho : (insert fd entry r).1 = .ok t) :
    (insert fd entry r).2.contents = r.contents.insert fd entry := by
  obtain ⟨hs, -, hentryAt⟩ := insert_ok h ho
  refine Finmap.ext_lookup fun x => ?_
  rw [lookup_contents hs, hentryAt]
  by_cases hx : x = fd
  · rw [if_pos hx, hx, Finmap.lookup_insert]
  · rw [if_neg hx, Finmap.lookup_insert_of_ne _ hx, lookup_contents h]

theorem contents_modify (h : r.Sound) (hg : r.get? t = some entry) (f : Entry σ → Entry σ) :
    (r.modify t f).contents = r.contents.insert t.fd (f entry) := by
  refine Finmap.ext_lookup fun x => ?_
  rw [lookup_contents (sound_modify h t f), entryAt, slotAt_modify h hg]
  by_cases hx : x = t.fd
  · rw [if_pos hx, hx, Finmap.lookup_insert]
  · rw [if_neg hx, Finmap.lookup_insert_of_ne _ hx, lookup_contents h, entryAt]

theorem contents_remove? (h : r.Sound) (hg : r.get? t = some entry) :
    (r.remove? t).2.contents = r.contents.erase t.fd := by
  obtain ⟨-, -, hs, -, hentryAt⟩ := remove?_of_get? h hg
  refine Finmap.ext_lookup fun x => ?_
  rw [lookup_contents hs, hentryAt]
  by_cases hx : x = t.fd
  · rw [if_pos hx, hx, Finmap.lookup_erase]
  · rw [if_neg hx, Finmap.lookup_erase_ne hx, lookup_contents h]

/-- How an insertion ends, said of the map. -/
theorem insert_answer (h : r.Sound) (fd : Descriptor) (entry : Entry σ) :
    (insert fd entry r).1 =
      if fd < 0 then .failed (.invalidDescriptor fd)
      else if r.capacity ≤ r.contents.keys.card then .failed (.registryFull r.capacity)
      else if fd ∈ r.contents then .failed (.invalidDescriptor fd)
      else .ok ⟨fd, (r.slotAt fd).generation⟩ := by
  rw [card_contents h]
  simp only [mem_contents h, entryAt, insert]
  split
  · rfl
  · split
    · rfl
    · split <;> rfl

theorem get?_inserted (h : r.Sound) (ho : (insert fd entry r).1 = .ok t) :
    t.fd = fd ∧ (insert fd entry r).2.get? t = some entry := by
  obtain rfl : t = ⟨fd, (r.slotAt fd).generation⟩ := by
    rcases insert_cases fd entry r with ⟨e, he⟩ | ⟨-, he⟩
    · rw [he] at ho
      cases ho
    · rw [he] at ho
      exact (Outcome.ok.inj ho).symm
  refine ⟨rfl, get?_eq_some.mpr ?_⟩
  rw [entryAt, slotAt_insert h ho, if_pos rfl]
  exact ⟨rfl, rfl⟩

/-! ## Runs of requests -/

/-- What can be asked of a registry. -/
inductive Request (σ : Type) where
  | insert (fd : Descriptor) (entry : Entry σ)
  | find (fd : Descriptor)
  | get (t : Ticket)
  | modify (t : Ticket) (f : Entry σ → Entry σ)
  | remove (t : Ticket)

/-- The registry that a request leaves. -/
def after (r : Registry σ) : Request σ → Registry σ
  | .insert fd entry => (insert fd entry r).2
  | .find _ | .get _ => r
  | .modify t f => r.modify t f
  | .remove t => (r.remove? t).2

def afterAll (r : Registry σ) (requests : List (Request σ)) : Registry σ :=
  requests.foldl after r

/-- The descriptor under which a request files a connection. -/
def admits (r : Registry σ) : Request σ → Option Descriptor
  | .insert fd entry => if (insert fd entry r).1.isOk then some fd else none
  | _ => none

/-- The descriptors under which a run of requests has filed a connection, in order. -/
def admitted (r : Registry σ) : List (Request σ) → List Descriptor
  | [] => []
  | q :: rest => (r.admits q).toList ++ admitted (r.after q) rest

/-- A registry of which nothing but requests was asked. -/
structure Used (capacity : Nat) (r : Registry σ) : Prop where
  sound : r.Sound
  capacity_eq : r.capacity = capacity
  live_le : r.live ≤ capacity

variable {capacity : Nat}

theorem used_empty (capacity : Nat) : Used capacity ({ capacity } : Registry σ) :=
  ⟨sound_empty capacity, rfl, Nat.zero_le _⟩

theorem Used.insert (h : Used capacity r) (fd : Descriptor) (entry : Entry σ) :
    Used capacity (Registry.insert fd entry r).2 := by
  rcases insert_cases fd entry r with ⟨e, he⟩ | ⟨-, he⟩
  · rwa [he]
  · have ho : (Registry.insert fd entry r).1 = .ok ⟨fd, (r.slotAt fd).generation⟩ := by rw [he]
    have hroom : r.live < r.capacity := by
      rw [insert_answer h.sound, card_contents h.sound] at ho
      by_contra hfull
      rw [if_pos (Nat.not_lt.mp hfull)] at ho
      split at ho <;> cases ho
    refine ⟨(insert_ok h.sound ho).1, ?_, ?_⟩ <;> rw [he]
    · exact h.capacity_eq
    · exact Nat.le_trans hroom (Nat.le_of_eq h.capacity_eq)

theorem Used.modify (h : Used capacity r) (t : Ticket) (f : Entry σ → Entry σ) :
    Used capacity (r.modify t f) := by
  cases hg : r.get? t with
  | none => rwa [modify_of_stale hg]
  | some entry =>
    refine ⟨sound_modify h.sound t f, ?_, ?_⟩ <;> rw [Registry.modify, hg]
    · exact h.capacity_eq
    · exact h.live_le

theorem Used.remove? (h : Used capacity r) (t : Ticket) : Used capacity (r.remove? t).2 := by
  cases hg : r.get? t with
  | none => rwa [remove?_of_stale hg]
  | some entry =>
    refine ⟨(remove?_of_get? h.sound hg).2.2.1, ?_, ?_⟩ <;> rw [Registry.remove?, hg]
    · exact h.capacity_eq
    · exact Nat.le_trans (Nat.sub_le _ _) h.live_le

theorem Used.after (h : Used capacity r) (q : Request σ) : Used capacity (r.after q) := by
  cases q with
  | insert fd entry => exact h.insert fd entry
  | find fd => exact h
  | get t => exact h
  | modify t f => exact h.modify t f
  | remove t => exact h.remove? t

theorem Used.afterAll (h : Used capacity r) (requests : List (Request σ)) :
    Used capacity (r.afterAll requests) := by
  induction requests generalizing r with
  | nil => exact h
  | cons q rest ih => exact ih (h.after q)

/-- The highest descriptor goes up with what is filed, and never down. -/
theorem highest_after (r : Registry σ) (q : Request σ) :
    (r.after q).highest = (r.admits q).toList.foldl max r.highest := by
  cases q with
  | insert fd entry =>
    rcases insert_cases fd entry r with ⟨e, he⟩ | ⟨-, he⟩ <;> simp [after, admits, he, Outcome.isOk]
  | find fd => rfl
  | get t => rfl
  | modify t f =>
    rw [after, modify]
    split <;> rfl
  | remove t =>
    rw [after, remove?]
    split <;> rfl

theorem highest_afterAll (r : Registry σ) (requests : List (Request σ)) :
    (r.afterAll requests).highest = (r.admitted requests).foldl max r.highest := by
  induction requests generalizing r with
  | nil => rfl
  | cons q rest ih =>
    rw [admitted, List.foldl_append, ← highest_after]
    exact ih (r.after q)

/-- **A registry is a bounded map.** Whatever was asked of a new registry before, it answers every
request as the map of its live connections does: an insertion is refused under a negative
descriptor, when the map is full, or under a descriptor in use, in this order, and a refusal leaves
everything as it was; a ticket that is found is for the connection in the map, and is good for
reading, changing and removing it; a ticket that finds nothing changes nothing. The connections are
listed in ascending order, and the highest descriptor is the highest that was ever filed. -/
theorem requests_as_of_map (capacity : Nat) (requests : List (Request σ)) :
    let new : Registry σ := { capacity }
    let r := new.afterAll requests
    let m := r.contents
    new.contents = ∅ ∧ r.live = m.keys.card ∧ r.live ≤ capacity ∧
    r.highest = (new.admitted requests).foldl max (-1) ∧
    (∀ fd entry,
      (insert fd entry r).1 = (if fd < 0 then .failed (.invalidDescriptor fd)
        else if capacity ≤ m.keys.card then .failed (.registryFull capacity)
        else if fd ∈ m then .failed (.invalidDescriptor fd)
        else .ok ⟨fd, (r.slotAt fd).generation⟩) ∧
      ((∀ t, (insert fd entry r).1 ≠ .ok t) → (insert fd entry r).2 = r) ∧
      ∀ t, (insert fd entry r).1 = .ok t → (insert fd entry r).2.contents = m.insert fd entry ∧
        (insert fd entry r).2.get? t = some entry) ∧
    (∀ fd, ((r.find? fd).isSome ↔ fd ∈ m) ∧
      ∀ t, r.find? fd = some t → t.fd = fd ∧ ∃ entry, r.get? t = some entry) ∧
    (∀ t entry, r.get? t = some entry → m.lookup t.fd = some entry ∧
      (∀ f, (r.modify t f).contents = m.insert t.fd (f entry)) ∧
      (r.remove? t).1 = some entry ∧ (r.remove? t).2.contents = m.erase t.fd) ∧
    (∀ t, r.get? t = none → (∀ f, r.modify t f = r) ∧ r.remove? t = (none, r)) ∧
    r.toList.Pairwise (fun a b => a.1.fd < b.1.fd) ∧
    (∀ t entry, (t, entry) ∈ r.toList → r.get? t = some entry) ∧
    ∀ fd entry, m.lookup fd = some entry ↔ ∃ t, t.fd = fd ∧ (t, entry) ∈ r.toList := by
  intro new r m
  have hused : Used capacity r := (used_empty capacity).afterAll requests
  have hs : r.Sound := hused.sound
  have hinsert : ∀ fd entry, (insert fd entry r).1 = _ := insert_answer hs
  rw [hused.capacity_eq] at hinsert
  refine ⟨rfl, (card_contents hs).symm, hused.live_le, highest_afterAll new requests,
    fun fd entry => ⟨hinsert fd entry, insert_refused, fun t ho => ?_⟩,
    fun fd => ⟨?_, fun t hf => ?_⟩,
    fun t entry hg => ⟨?_, contents_modify hs hg, ?_, contents_remove? hs hg⟩,
    fun t hg => ⟨modify_of_stale hg, remove?_of_stale hg⟩, toList_ascending hs,
    fun t entry hm => (mem_toList hs).mp hm, fun fd entry => ?_⟩
  · exact ⟨contents_insert hs ho, (get?_inserted hs ho).2⟩
  · rw [mem_contents hs, find?, Option.isSome_map]
    rfl
  · obtain ⟨entry, hentry, rfl⟩ := find?_eq_some.mp hf
    exact ⟨rfl, entry, get?_eq_some.mpr ⟨rfl, hentry⟩⟩
  · rw [lookup_contents hs, entryAt_of_get? hg]
  · exact (remove?_of_get? hs hg).2.1
  · rw [lookup_contents hs, mem_toList_iff hs]

end SpanEcho.Registry

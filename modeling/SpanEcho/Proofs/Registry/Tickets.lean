import SpanEcho.Proofs.Registry.Requests

/-!
# Stale tickets

Of a descriptor a registry counts the removals, modulo the size of a word; nothing else moves its
generation. So a ticket is good exactly as long as a connection is live under its descriptor and a
multiple of 2 ^ 32 connections were removed from there since it was issued. Below that many removals
the only multiple is zero: the ticket finds the connection it was issued for or nothing.
-/

namespace SpanEcho.Registry

variable {σ : Type} {r r' : Registry σ} {fd : Descriptor} {t : Ticket} {entry : Entry σ}

/-- Whether a request removes a connection from under `fd`. -/
def removes (fd : Descriptor) (r : Registry σ) : Request σ → Bool
  | .remove t => t.fd = fd && (r.remove? t).1.isSome
  | _ => false

/-- How many connections a run of requests removes from under `fd`. -/
def removals (fd : Descriptor) (r : Registry σ) : List (Request σ) → Nat
  | [] => 0
  | q :: rest => (r.removes fd q).toNat + removals fd (r.after q) rest

/-- What a request through the ticket `t` makes of its connection. -/
def Request.edit (t : Ticket) (entry : Entry σ) : Request σ → Entry σ
  | .modify t' f => if t' = t then f entry else entry
  | _ => entry

/-- A ticket was issued by a request to `r`, which left the registry of the last argument. -/
inductive Issued (r : Registry σ) (t : Ticket) : Registry σ → Prop
  | inserted {fd : Descriptor} {entry : Entry σ} (h : (insert fd entry r).1 = .ok t) :
    Issued r t (insert fd entry r).2
  | found {fd : Descriptor} (h : r.find? fd = some t) : Issued r t r
  | listed {entry : Entry σ} (h : (t, entry) ∈ r.toList) : Issued r t r

theorem Issued.used {capacity : Nat} (h : Issued r t r') (hr : Used capacity r) :
    Used capacity r' := by
  cases h with
  | inserted h => exact hr.insert _ _
  | found h => exact hr
  | listed h => exact hr

/-- A ticket is good when it is issued. -/
theorem Issued.get? (h : Issued r t r') (hs : r.Sound) : ∃ entry, r'.get? t = some entry := by
  cases h with
  | inserted h => exact ⟨_, (get?_inserted hs h).2⟩
  | found h =>
    obtain ⟨entry, hentry, rfl⟩ := find?_eq_some.mp h
    exact ⟨entry, get?_eq_some.mpr ⟨rfl, hentry⟩⟩
  | listed h => exact ⟨_, (mem_toList hs).mp h⟩

/-! ## Generations -/

theorem get?_isSome_iff :
    (r.get? t).isSome ↔ (r.slotAt t.fd).generation = t.generation ∧ (r.find? t.fd).isSome := by
  rw [get?, find?, Option.isSome_map]
  by_cases h : (r.slotAt t.fd).generation = t.generation <;> simp [h]

theorem remove?_isSome (hs : r.Sound) : (r.remove? t).1.isSome ↔ (r.get? t).isSome := by
  cases hg : r.get? t with
  | none => rw [remove?_of_stale hg]
  | some entry => rw [(remove?_of_get? hs hg).2.1]

/-- A generation counts removals and nothing else. -/
theorem generation_after (hs : r.Sound) (fd : Descriptor) (q : Request σ) :
    ((r.after q).slotAt fd).generation =
      (r.slotAt fd).generation + UInt32.ofNat (r.removes fd q).toNat := by
  cases q with
  | insert fd' entry =>
    rcases insert_cases fd' entry r with ⟨e, he⟩ | ⟨-, he⟩
    · simp [after, he, removes]
    · have ho : (insert fd' entry r).1 = .ok ⟨fd', (r.slotAt fd').generation⟩ := by rw [he]
      rw [after, slotAt_insert hs ho]
      by_cases hfd : fd = fd' <;> simp [hfd, removes]
  | find fd' => simp [after, removes]
  | get t => simp [after, removes]
  | modify t f =>
    cases hg : r.get? t with
    | none => simp [after, modify_of_stale hg, removes]
    | some entry =>
      rw [after, slotAt_modify hs hg]
      by_cases hfd : fd = t.fd
      · simp [hfd, removes, (get?_eq_some.mp hg).1]
      · simp [hfd, removes]
  | remove t =>
    cases hg : r.get? t with
    | none => simp [after, remove?_of_stale hg, removes]
    | some entry =>
      rw [after, slotAt_remove? hs hg]
      have hsome : (r.remove? t).1.isSome := by rw [(remove?_of_get? hs hg).2.1]; rfl
      by_cases hfd : fd = t.fd
      · simp [hfd, removes, hsome, (get?_eq_some.mp hg).1]
      · simp [hfd, removes, Ne.symm hfd]

/-- To issue a ticket moves no generation. -/
theorem Issued.generation (h : Issued r t r') (hs : r.Sound) :
    (r.slotAt t.fd).generation = t.generation := by
  obtain ⟨entry, hg⟩ := h.get? hs
  rw [← (get?_eq_some.mp hg).1]
  cases h with
  | @inserted fd entry' h =>
    have hafter := generation_after hs t.fd (.insert fd entry')
    simpa [removes, after] using hafter.symm
  | found h => rfl
  | listed h => rfl

theorem generation_afterAll {capacity : Nat} (h : Used capacity r) (fd : Descriptor)
    (requests : List (Request σ)) : ((r.afterAll requests).slotAt fd).generation =
      (r.slotAt fd).generation + UInt32.ofNat (r.removals fd requests) := by
  induction requests generalizing r with
  | nil => simp [afterAll, removals]
  | cons q rest ih =>
    rw [removals, UInt32.ofNat_add, ← UInt32.add_assoc, ← generation_after h.sound]
    exact ih (h.after q)

/-- Generations come round after 2 ^ 32 removals. -/
theorem add_ofNat_eq_iff (g : UInt32) (k : Nat) : g + UInt32.ofNat k = g ↔ 2 ^ 32 ∣ k := by
  rw [← UInt32.toNat_inj, UInt32.toNat_add, UInt32.toNat_ofNat']
  have hg := g.toNat_lt
  omega

/-! ## The connection of a ticket -/

/-- A descriptor has one good ticket at most. -/
theorem eq_of_get? {t' : Ticket} {entry' : Entry σ} (hg : r.get? t = some entry)
    (hg' : r.get? t' = some entry') (hfd : t.fd = t'.fd) : t = t' := by
  have hgeneration : t.generation = t'.generation := by
    rw [← (get?_eq_some.mp hg).1, ← (get?_eq_some.mp hg').1, hfd]
  obtain ⟨fd, generation⟩ := t
  obtain ⟨fd', generation'⟩ := t'
  obtain rfl : fd = fd' := hfd
  obtain rfl : generation = generation' := hgeneration
  rfl

/-- A request that removes nothing from under a ticket leaves its connection there, as the request
edits it. -/
theorem get?_after (hs : r.Sound) (hg : r.get? t = some entry) {q : Request σ}
    (hq : r.removes t.fd q = false) : (r.after q).get? t = some (q.edit t entry) := by
  have hstays : (r.after q).slotAt t.fd = r.slotAt t.fd → (r.after q).get? t = some entry :=
    fun h => (get?_congr h).trans hg
  cases q with
  | insert fd entry' =>
    rcases insert_cases fd entry' r with ⟨e, he⟩ | ⟨hfree, he⟩
    · exact hstays (by rw [after, he])
    · have ho : (insert fd entry' r).1 = .ok ⟨fd, (r.slotAt fd).generation⟩ := by rw [he]
      have hfd : t.fd ≠ fd := by
        rintro rfl
        rw [entryAt_of_get? hg] at hfree
        cases hfree
      exact hstays (by rw [after, slotAt_insert hs ho, if_neg hfd])
  | find fd => exact hg
  | get t' => exact hg
  | modify t' f =>
    cases hg' : r.get? t' with
    | none =>
      have hne : t' ≠ t := by
        rintro rfl
        rw [hg] at hg'
        cases hg'
      rw [after, modify_of_stale hg', hg, Request.edit, if_neg hne]
    | some entry' =>
      by_cases hfd : t.fd = t'.fd
      · obtain rfl : t' = t := eq_of_get? hg' hg hfd.symm
        rw [hg] at hg'
        obtain rfl := Option.some.inj hg'
        rw [after, Request.edit, if_pos rfl, get?, slotAt_modify hs hg]
        simp
      · have hne : t' ≠ t := fun h => hfd (h ▸ rfl)
        rw [Request.edit, if_neg hne]
        exact hstays (by rw [after, slotAt_modify hs hg', if_neg hfd])
  | remove t' =>
    cases hg' : r.get? t' with
    | none => rwa [after, remove?_of_stale hg']
    | some entry' =>
      have hfd : t.fd ≠ t'.fd := by
        intro hfd
        rw [removes, (remove?_of_get? hs hg').2.1] at hq
        simp [hfd] at hq
      exact hstays (by rw [after, slotAt_remove? hs hg', if_neg hfd])

theorem get?_afterAll {capacity : Nat} (h : Used capacity r) (hg : r.get? t = some entry)
    {requests : List (Request σ)} (hnone : r.removals t.fd requests = 0) :
    (r.afterAll requests).get? t = some (requests.foldl (Request.edit t) entry) := by
  induction requests generalizing r entry with
  | nil => exact hg
  | cons q rest ih =>
    obtain ⟨hq, hrest⟩ := Nat.add_eq_zero_iff.mp hnone
    have hremoves : r.removes t.fd q = false := by simpa using hq
    exact ih (h.after q) (get?_after h.sound hg hremoves) hrest

/-- **A ticket is good up to the wrap of its generation.** After any further requests it finds, and
removes, a connection exactly when one is live under its descriptor and the number of connections
removed from there since the ticket was issued is a multiple of 2 ^ 32. While it finds none, nothing
that is done through it changes anything. Below 2 ^ 32 removals it finds the connection that it was
issued for, with what was changed through it since, if there were none; and if there were any it
finds nothing, and no ticket issued now for the descriptor is equal to it. -/
theorem ticket_good_iff (capacity : Nat) (before : List (Request σ))
    (hissued : Issued (afterAll { capacity } before) t r) (later : List (Request σ)) :
    let now := r.afterAll later
    let removed := r.removals t.fd later
    ((now.get? t).isSome ↔ (now.find? t.fd).isSome ∧ 2 ^ 32 ∣ removed) ∧
    ((now.remove? t).1.isSome ↔ (now.find? t.fd).isSome ∧ 2 ^ 32 ∣ removed) ∧
    (∀ entry, now.get? t = some entry → ∀ f, (now.modify t f).get? t = some (f entry)) ∧
    (now.get? t = none → (∀ f, now.modify t f = now) ∧ now.remove? t = (none, now)) ∧
    (removed < 2 ^ 32 →
      (removed = 0 → ∃ entry, r.get? t = some entry ∧
        now.get? t = some (later.foldl (Request.edit t) entry)) ∧
      (removed ≠ 0 → now.get? t = none ∧
        ∀ t' now', Issued now t' now' → t'.fd = t.fd → t' ≠ t)) := by
  intro now removed
  have hbefore := (used_empty capacity).afterAll before
  have hused : Used capacity r := hissued.used hbefore
  obtain ⟨entry, hg⟩ := hissued.get? hbefore.sound
  have hnow : now.Sound := (hused.afterAll later).sound
  have hgeneration : (now.slotAt t.fd).generation = t.generation ↔ 2 ^ 32 ∣ removed := by
    rw [generation_afterAll hused, (get?_eq_some.mp hg).1, add_ofNat_eq_iff]
  have hgood : (now.get? t).isSome ↔ (now.find? t.fd).isSome ∧ 2 ^ 32 ∣ removed := by
    rw [get?_isSome_iff, hgeneration, and_comm]
  refine ⟨hgood, (remove?_isSome hnow).trans hgood, fun entry hentry f => ?_,
    fun hstale => ⟨modify_of_stale hstale, remove?_of_stale hstale⟩,
    fun hless => ⟨fun hzero => ⟨entry, hg, get?_afterAll hused hg hzero⟩, fun hne => ?_⟩⟩
  · rw [get?, slotAt_modify hnow hentry]
    simp
  · have hdvd : ¬ 2 ^ 32 ∣ removed := fun hdvd =>
      absurd (Nat.le_of_dvd (Nat.pos_of_ne_zero hne) hdvd) (Nat.not_le.mpr hless)
    have hstale : now.get? t = none := by
      rw [← Option.not_isSome_iff_eq_none, hgood]
      exact fun h => hdvd h.2
    refine ⟨hstale, fun t' now' hissued' hfd => ?_⟩
    rintro rfl
    exact hdvd (hgeneration.mp (hissued'.generation hnow))

namespace Reused

def newcomer : Entry Unit :=
  ⟨(), (Session.begin 16).1, .write⟩

def first : Registry Unit :=
  (insert 5 newcomer { capacity := 4 }).2

/-- The connection is removed, and its descriptor used again. -/
def later : List (Request Unit) :=
  [.remove ⟨5, 0⟩, .insert 5 newcomer]

theorem ticket_good_of_first :
    Issued (afterAll { capacity := 4 } []) ⟨5, 0⟩ first ∧
      ((first.afterAll later).find? 5).isSome ∧ (first.afterAll later).get? ⟨5, 0⟩ = none ∧
      ∀ t now, Issued (first.afterAll later) t now → t.fd = 5 → t ≠ ⟨5, 0⟩ := by
  have hfiled : (insert 5 newcomer { capacity := 4 }).1 = .ok ⟨5, 0⟩ := by decide +kernel
  have hissued : Issued (afterAll { capacity := 4 } []) ⟨5, 0⟩ first := .inserted hfiled
  have hremoved : first.removals 5 later = 1 := by decide +kernel
  have hless : first.removals 5 later < 2 ^ 32 := by rw [hremoved]; decide
  have hne : first.removals 5 later ≠ 0 := by rw [hremoved]; decide
  obtain ⟨-, -, -, -, hbelow⟩ := ticket_good_iff 4 [] hissued later
  obtain ⟨-, hstale⟩ := hbelow hless
  obtain ⟨hnone, hunequal⟩ := hstale hne
  exact ⟨hissued, by decide +kernel, hnone, hunequal⟩

end Reused

end SpanEcho.Registry

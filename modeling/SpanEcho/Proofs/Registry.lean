import SpanEcho.Registry

/-!
# The registry as a map

A sound registry keeps its slots in ascending order and counts its live connections right. Then a
slot is found under its number, and filing one changes what is found under that number and nothing
else. The rest of the development speaks of `entryAt`, the connection under a descriptor, and of
`sockets`, the sockets of all connections.
-/

namespace SpanEcho

variable {σ : Type}

/-- What a slot adds to the list of connections. -/
def Slot.listed (slot : Slot σ) : Option (Ticket × Entry σ) :=
  slot.entry.map fun entry => (⟨slot.fd, slot.generation⟩, entry)

/-- Filing a slot replaces the one of the same number, if there is one. -/
theorem Slot.file_split (slot : Slot σ) {slots : List (Slot σ)}
    (h : slots.Pairwise fun a b => a.fd < b.fd) :
    ∃ front old back, slots = front ++ (Option.toList old ++ back) ∧
      slot.file slots = front ++ slot :: back ∧ (∀ s ∈ front, s.fd < slot.fd) ∧
      (∀ s ∈ old, s.fd = slot.fd) ∧ ∀ s ∈ back, slot.fd < s.fd := by
  induction slots with
  | nil => exact ⟨[], none, [], rfl, rfl, nofun, nofun, nofun⟩
  | cons s rest ih =>
    obtain ⟨hs, hrest⟩ := List.pairwise_cons.mp h
    simp only [Slot.file]
    split
    · rename_i hlt
      refine ⟨[], none, s :: rest, rfl, rfl, nofun, nofun, fun x hx => ?_⟩
      rcases List.mem_cons.mp hx with rfl | hx
      · exact hlt
      · exact Int.lt_trans hlt (hs x hx)
    · rename_i hle
      split
      · rename_i heq
        exact ⟨[], some s, rest, rfl, rfl, nofun, fun x hx => by simp_all,
          fun x hx => heq ▸ hs x hx⟩
      · rename_i hne
        obtain ⟨front, old, back, hslots, hfile, hfront, hold, hback⟩ := ih hrest
        refine ⟨s :: front, old, back, by rw [hslots, List.cons_append],
          by rw [hfile, List.cons_append], fun x hx => ?_, hold, hback⟩
        rcases List.mem_cons.mp hx with rfl | hx
        · exact Int.lt_iff_le_and_ne.mpr ⟨Int.not_lt.mp hle, Ne.symm hne⟩
        · exact hfront x hx

namespace Registry

/-- The live connection under a descriptor. -/
def entryAt (r : Registry σ) (fd : Descriptor) : Option (Entry σ) :=
  (r.slotAt fd).entry

/-- The sockets of the live connections. -/
def sockets (r : Registry σ) : List σ :=
  r.toList.map (·.2.socket)

structure Sound (r : Registry σ) : Prop where
  ascending : r.slots.Pairwise fun a b => a.fd < b.fd
  live : r.live = r.toList.length

theorem sound_empty (capacity : Nat) : ({ capacity } : Registry σ).Sound :=
  ⟨List.Pairwise.nil, rfl⟩

theorem slotAt_fd (r : Registry σ) (fd : Descriptor) : (r.slotAt fd).fd = fd := by
  unfold slotAt
  cases h : r.slots.find? fun s => s.fd = fd with
  | none => rfl
  | some s => simpa using List.find?_some h

theorem find_of_lt {fd : Descriptor} {slots : List (Slot σ)} (h : ∀ s ∈ slots, s.fd ≠ fd) :
    (slots.find? fun s => s.fd = fd) = none := by
  simpa [List.find?_eq_none] using h

variable {r : Registry σ}

/-- Filing a slot puts it in the place of the one found under its number. -/
theorem put_split (h : r.slots.Pairwise fun a b => a.fd < b.fd) (slot : Slot σ) :
    ∃ front back, r.toList = front ++ ((r.slotAt slot.fd).listed.toList ++ back) ∧
      (r.put slot).toList = front ++ (slot.listed.toList ++ back) := by
  obtain ⟨front, old, back, hslots, hfile, hfront, hold, hback⟩ := slot.file_split h
  refine ⟨front.filterMap Slot.listed, back.filterMap Slot.listed, ?_, ?_⟩
  · have hnone := find_of_lt fun s hs => Int.ne_of_lt (hfront s hs)
    have hback' := find_of_lt fun s hs => (Int.ne_of_lt (hback s hs)).symm
    have hslot : r.slotAt slot.fd = old.getD { fd := slot.fd } := by
      unfold slotAt
      rw [hslots, List.find?_append, List.find?_append, hnone, hback']
      cases old with
      | none => rfl
      | some s => simp [hold s rfl]
    change r.slots.filterMap Slot.listed = _
    rw [hslots, hslot, List.filterMap_append, List.filterMap_append]
    cases old with
    | none => rfl
    | some s =>
      rw [Option.toList_some, Option.getD_some, List.filterMap_cons]
      cases s.listed <;> rfl
  · change (slot.file r.slots).filterMap Slot.listed = _
    rw [hfile, List.filterMap_append, List.filterMap_cons]
    cases slot.listed <;> rfl

theorem slotAt_put (h : r.slots.Pairwise fun a b => a.fd < b.fd) (slot : Slot σ) (fd : Descriptor) :
    (r.put slot).slotAt fd = if fd = slot.fd then slot else r.slotAt fd := by
  obtain ⟨front, old, back, hslots, hfile, hfront, hold, hback⟩ := slot.file_split h
  change ((slot.file r.slots).find? fun s => s.fd = fd).getD { fd } = _
  rw [hfile, List.find?_append]
  by_cases hfd : fd = slot.fd
  · have hnone : (front.find? fun s => s.fd = fd) = none :=
      find_of_lt fun s hs => hfd ▸ Int.ne_of_lt (hfront s hs)
    rw [if_pos hfd, hnone, List.find?_cons_of_pos (by simp [hfd])]
    rfl
  · have hold' : (old.toList.find? fun s => s.fd = fd) = none :=
      find_of_lt fun s hs => by
        rw [hold s (Option.mem_toList.mp hs)]
        exact Ne.symm hfd
    rw [if_neg hfd, List.find?_cons_of_neg (by simpa using Ne.symm hfd), slotAt, hslots,
      List.find?_append, List.find?_append, hold', Option.none_or]

theorem ascending_put (h : r.slots.Pairwise fun a b => a.fd < b.fd) (slot : Slot σ) :
    (r.put slot).slots.Pairwise fun a b => a.fd < b.fd := by
  obtain ⟨front, old, back, hslots, hfile, hfront, -, hback⟩ := slot.file_split h
  rw [hslots] at h
  obtain ⟨hf, hrest, -⟩ := List.pairwise_append.mp h
  change (slot.file r.slots).Pairwise _
  rw [hfile, List.pairwise_append, List.pairwise_cons]
  refine ⟨hf, ⟨hback, (List.pairwise_append.mp hrest).2.1⟩, fun a ha b hb => ?_⟩
  rcases List.mem_cons.mp hb with rfl | hb
  · exact hfront a ha
  · exact Int.lt_trans (hfront a ha) (hback b hb)

/-! ## Operations -/

variable {fd : Descriptor} {t : Ticket} {entry : Entry σ}

theorem get?_eq_some :
    r.get? t = some entry ↔
      (r.slotAt t.fd).generation = t.generation ∧ r.entryAt t.fd = some entry := by
  by_cases h : (r.slotAt t.fd).generation = t.generation <;> simp [get?, entryAt, h]

theorem entryAt_of_get? (h : r.get? t = some entry) : r.entryAt t.fd = some entry :=
  (get?_eq_some.mp h).2

theorem get?_of_entryAt_none (h : r.entryAt t.fd = none) : r.get? t = none := by
  refine Option.eq_none_iff_forall_not_mem.mpr fun entry hget => ?_
  rw [entryAt_of_get? hget] at h
  cases h

/-- What a ticket finds depends on its slot alone. -/
theorem get?_congr {r' : Registry σ} (h : r'.slotAt t.fd = r.slotAt t.fd) :
    r'.get? t = r.get? t := by
  rw [get?, get?, h]

theorem find?_eq_some :
    r.find? fd = some t ↔
      ∃ entry, r.entryAt fd = some entry ∧ t = ⟨fd, (r.slotAt fd).generation⟩ := by
  simp only [find?, Option.map_eq_some_iff, entryAt]
  exact exists_congr fun _ => and_congr_right fun _ => eq_comm

theorem fd_of_find? (h : r.find? fd = some t) : t.fd = fd := by
  obtain ⟨_, -, rfl⟩ := find?_eq_some.mp h
  rfl

theorem entryAt_put (h : r.Sound) (slot : Slot σ) (fd : Descriptor) :
    (r.put slot).entryAt fd = if fd = slot.fd then slot.entry else r.entryAt fd := by
  rw [entryAt, slotAt_put h.ascending]
  split <;> rfl

theorem listed_slotAt (h : r.get? t = some entry) : (r.slotAt t.fd).listed = some (t, entry) := by
  obtain ⟨hgen, hentry⟩ := get?_eq_some.mp h
  have hentry' : (r.slotAt t.fd).entry = some entry := hentry
  rw [Slot.listed, hentry', slotAt_fd, hgen]
  rfl

theorem mem_toList (h : r.Sound) : (t, entry) ∈ r.toList ↔ r.get? t = some entry := by
  constructor
  · intro hm
    obtain ⟨slot, hslot, hlisted⟩ := List.mem_filterMap.mp hm
    obtain ⟨e, he, heq⟩ := Option.map_eq_some_iff.mp hlisted
    cases heq
    have hfind : r.slotAt slot.fd = slot := by
      obtain ⟨front, back, hslots⟩ := List.append_of_mem hslot
      have hasc := h.ascending
      rw [hslots] at hasc
      have hfront := find_of_lt fun s hs =>
        Int.ne_of_lt ((List.pairwise_append.mp hasc).2.2 s hs slot List.mem_cons_self)
      rw [slotAt, hslots, List.find?_append, hfront]
      simp
    exact get?_eq_some.mpr ⟨by rw [hfind], by rw [entryAt, hfind, he]⟩
  · intro hg
    obtain ⟨front, back, hlist, -⟩ := put_split h.ascending (r.slotAt t.fd)
    rw [slotAt_fd, listed_slotAt hg] at hlist
    rw [hlist]
    simp

theorem mem_toList_of_entryAt (h : r.Sound) (he : r.entryAt fd = some entry) :
    (⟨fd, (r.slotAt fd).generation⟩, entry) ∈ r.toList :=
  (mem_toList h).mpr (get?_eq_some.mpr ⟨rfl, he⟩)

theorem mem_sockets (h : r.Sound) {socket : σ} :
    socket ∈ r.sockets ↔ ∃ fd entry, r.entryAt fd = some entry ∧ entry.socket = socket := by
  constructor
  · intro hm
    obtain ⟨⟨t, entry⟩, hmem, rfl⟩ := List.mem_map.mp hm
    exact ⟨t.fd, entry, entryAt_of_get? ((mem_toList h).mp hmem), rfl⟩
  · intro h
    obtain ⟨fd, entry, hentry, rfl⟩ := h
    exact List.mem_map.mpr ⟨_, mem_toList_of_entryAt h hentry, rfl⟩

/-- A connection is refused, and the registry stays as it is, or it is filed under a number that was
free. -/
theorem insert_cases (fd : Descriptor) (entry : Entry σ) (r : Registry σ) :
    (∃ e, insert fd entry r = (.failed e, r)) ∨
      r.entryAt fd = none ∧ insert fd entry r = (.ok ⟨fd, (r.slotAt fd).generation⟩,
        { r.put { r.slotAt fd with entry := some entry } with
          live := r.live + 1, highest := max r.highest fd }) := by
  unfold insert entryAt
  simp only
  by_cases hneg : fd < 0
  · exact .inl ⟨_, if_pos hneg⟩
  rw [if_neg hneg]
  by_cases hfull : r.capacity ≤ r.live
  · exact .inl ⟨_, if_pos hfull⟩
  rw [if_neg hfull]
  cases hslot : (r.slotAt fd).entry with
  | some e => exact .inl ⟨_, rfl⟩
  | none => exact .inr ⟨rfl, rfl⟩

/-- What a successful insertion does. -/
theorem insert_ok (h : r.Sound) (ho : (insert fd entry r).1 = .ok t) :
    (insert fd entry r).2.Sound ∧
      (insert fd entry r).2.sockets.Perm (entry.socket :: r.sockets) ∧
      ∀ x, (insert fd entry r).2.entryAt x = if x = fd then some entry else r.entryAt x := by
  rcases insert_cases fd entry r with ⟨e, he⟩ | ⟨hnone, he⟩
  · rw [he] at ho
    cases ho
  have hlisted : (r.slotAt fd).listed = none := by
    rw [entryAt] at hnone
    rw [Slot.listed, hnone, Option.map_none]
  obtain ⟨front, back, hlist, hput⟩ :=
    put_split h.ascending { r.slotAt fd with entry := some entry }
  simp only [slotAt_fd, hlisted, Option.toList_none, List.nil_append] at hlist
  simp only [Slot.listed, Option.map_some, Option.toList_some, List.singleton_append] at hput
  rw [he]
  refine ⟨⟨ascending_put h.ascending _, ?_⟩, ?_, fun x => ?_⟩
  · change r.live + 1 = (r.put _).toList.length
    rw [hput, h.live, hlist]
    simp only [List.length_append, List.length_cons]
    omega
  · change ((r.put _).toList.map (·.2.socket)).Perm (entry.socket :: r.toList.map (·.2.socket))
    rw [hput, hlist, List.map_append, List.map_append, List.map_cons]
    exact List.perm_middle
  · change (r.put _).entryAt x = _
    rw [entryAt_put h, slotAt_fd]

/-- A refused connection leaves the registry as it is. -/
theorem insert_refused (ho : ∀ t, (insert fd entry r).1 ≠ .ok t) : (insert fd entry r).2 = r := by
  rcases insert_cases fd entry r with ⟨e, he⟩ | ⟨-, he⟩
  · rw [he]
  · rw [he] at ho
    exact absurd rfl (ho _)

theorem slotAt_insert (h : r.Sound) (ho : (insert fd entry r).1 = .ok t) (x : Descriptor) :
    (insert fd entry r).2.slotAt x =
      if x = fd then { r.slotAt fd with entry := some entry } else r.slotAt x := by
  rcases insert_cases fd entry r with ⟨e, he⟩ | ⟨-, he⟩
  · rw [he] at ho
    cases ho
  · rw [he]
    refine (slotAt_put h.ascending _ x).trans ?_
    rw [slotAt_fd]

/-- A ticket that finds nothing changes nothing. -/
theorem modify_of_stale (hg : r.get? t = none) (f : Entry σ → Entry σ) : r.modify t f = r := by
  rw [modify, hg]

theorem remove?_of_stale (hg : r.get? t = none) : r.remove? t = (none, r) := by
  rw [remove?, hg]

theorem slotAt_modify (h : r.Sound) (hg : r.get? t = some entry) (f : Entry σ → Entry σ)
    (x : Descriptor) : (r.modify t f).slotAt x =
      if x = t.fd then ⟨t.fd, t.generation, some (f entry)⟩ else r.slotAt x := by
  rw [modify, hg]
  exact slotAt_put h.ascending _ x

theorem slotAt_remove? (h : r.Sound) (hg : r.get? t = some entry) (x : Descriptor) :
    (r.remove? t).2.slotAt x =
      if x = t.fd then ⟨t.fd, t.generation + 1, none⟩ else r.slotAt x := by
  rw [remove?, hg]
  exact slotAt_put h.ascending _ x

/-- A ticket is for one descriptor, and what is under the others stays. -/
theorem slotAt_modify_of_ne (h : r.Sound) (t : Ticket) (f : Entry σ → Entry σ) {x : Descriptor}
    (hx : x ≠ t.fd) : (r.modify t f).slotAt x = r.slotAt x := by
  cases hg : r.get? t with
  | none => rw [modify_of_stale hg]
  | some entry => rw [slotAt_modify h hg, if_neg hx]

theorem slotAt_remove?_of_ne (h : r.Sound) (t : Ticket) {x : Descriptor} (hx : x ≠ t.fd) :
    (r.remove? t).2.slotAt x = r.slotAt x := by
  cases hg : r.get? t with
  | none => rw [remove?_of_stale hg]
  | some entry => rw [slotAt_remove? h hg, if_neg hx]

/-- Where a connection is after a modification there was one before. -/
theorem entryAt_of_modify (h : r.Sound) {t : Ticket} {f : Entry σ → Entry σ} {x : Descriptor}
    {entry' : Entry σ} (he : (r.modify t f).entryAt x = some entry') :
    ∃ entry, r.entryAt x = some entry ∧ (entry' = entry ∨ entry' = f entry) := by
  cases hg : r.get? t with
  | none =>
    rw [modify_of_stale hg] at he
    exact ⟨entry', he, .inl rfl⟩
  | some entry =>
    rw [entryAt, slotAt_modify h hg] at he
    split at he
    · rename_i hx
      exact ⟨entry, hx ▸ entryAt_of_get? hg, .inr (Option.some.inj he).symm⟩
    · exact ⟨entry', he, .inl rfl⟩

theorem sound_modify (h : r.Sound) (t : Ticket) (f : Entry σ → Entry σ) : (r.modify t f).Sound := by
  cases hg : r.get? t with
  | none => rwa [modify_of_stale hg]
  | some entry =>
    obtain ⟨front, back, hlist, hput⟩ := put_split h.ascending ⟨t.fd, t.generation, some (f entry)⟩
    rw [listed_slotAt hg] at hlist
    simp only [Slot.listed, Option.map_some, Option.toList_some,
      List.singleton_append] at hlist hput
    rw [modify, hg]
    refine ⟨ascending_put h.ascending _, ?_⟩
    change r.live = (r.put _).toList.length
    rw [hput, h.live, hlist]
    simp

/-- What a modification does to a live connection. -/
theorem modify_of_get? (h : r.Sound) (hg : r.get? t = some entry) (f : Entry σ → Entry σ)
    (hsocket : (f entry).socket = entry.socket) :
    (r.modify t f).Sound ∧ (r.modify t f).sockets = r.sockets ∧
      (r.modify t f).get? t = some (f entry) ∧
      ∀ x, (r.modify t f).entryAt x = if x = t.fd then some (f entry) else r.entryAt x := by
  obtain ⟨front, back, hlist, hput⟩ := put_split h.ascending ⟨t.fd, t.generation, some (f entry)⟩
  rw [listed_slotAt hg] at hlist
  simp only [Slot.listed, Option.map_some, Option.toList_some, List.singleton_append] at hlist hput
  refine ⟨sound_modify h t f, ?_⟩
  rw [modify, hg]
  refine ⟨?_, ?_, fun x => entryAt_put h _ x⟩
  · change (r.put _).toList.map (·.2.socket) = r.toList.map (·.2.socket)
    rw [hput, hlist]
    simp [hsocket]
  · rw [get?_eq_some, entryAt_put h, slotAt_put h.ascending]
    simp

/-- What a removal does to a live connection. -/
theorem remove?_of_get? (h : r.Sound) (hg : r.get? t = some entry) :
    0 < r.live ∧ (r.remove? t).1 = some entry ∧ (r.remove? t).2.Sound ∧
      r.sockets.Perm (entry.socket :: (r.remove? t).2.sockets) ∧
      ∀ x, (r.remove? t).2.entryAt x = if x = t.fd then none else r.entryAt x := by
  obtain ⟨front, back, hlist, hput⟩ := put_split h.ascending ⟨t.fd, t.generation + 1, none⟩
  rw [listed_slotAt hg] at hlist
  simp only [Slot.listed, Option.map_none, Option.toList_some, Option.toList_none, List.nil_append,
    List.singleton_append] at hlist hput
  have hlive : r.live = front.length + back.length + 1 := by
    rw [h.live, hlist]
    simp only [List.length_append, List.length_cons]
    omega
  rw [remove?, hg]
  refine ⟨by omega, rfl, ⟨ascending_put h.ascending _, ?_⟩, ?_, fun x => entryAt_put h _ x⟩
  · change r.live - 1 = (r.put _).toList.length
    rw [hput, hlive, List.length_append]
    omega
  · change (r.toList.map (·.2.socket)).Perm (entry.socket :: (r.put _).toList.map (·.2.socket))
    rw [hput, hlist, List.map_append, List.map_cons, List.map_append]
    exact List.perm_middle

end Registry

end SpanEcho

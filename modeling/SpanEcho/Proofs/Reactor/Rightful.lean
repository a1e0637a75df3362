import SpanEcho.Proofs.Reactor.Admission
import SpanEcho.Proofs.Reactor.Reaches
import SpanEcho.Script.Kernel

/-!
# Readiness reaches the right connection

A descriptor that is reported ready is looked up when its turn comes, by its number alone. It is
still the connection that was registered: whatever was served before it left it alone, and no other
can have taken its number, because the number was never free. Of the kernel only that is asked, and
of the multiplexor that it reports registered descriptors and each of them once, in whatever order.
-/

namespace SpanEcho

open SpanEcho.Action Scene Loop Reactor

/-! ## Reactors stay tidy -/

section

variable {κ : Type} [Kernel κ] {m : Multiplexor} {s : Settings} {n₀ n : Node κ}
  {due : List Readiness}

/-- What is closed on failure and ends with a value ends as it would without. -/
theorem Socket.closingOnFailure_ok {α : Type} {fds : List Descriptor} {m : Sys κ α} {w w' : World κ}
    {a : α} (h : closingOnFailure fds m w = (.ok a, w')) : m w = (.ok a, w') := by
  simp only [closingOnFailure, bind_apply, observe] at h
  rcases hm : m w with ⟨o, w₁⟩
  rw [hm] at h
  cases o with
  | ok b => exact h
  | failed e =>
    obtain ⟨_, _, -, h⟩ := bind_eq_ok.mp h
    cases h
  | defect d =>
    obtain ⟨_, _, -, h⟩ := bind_eq_ok.mp h
    cases h

/-- A reactor is made only if its multiplexor can watch its listener. -/
theorem Reactor.create_ok {listener : Descriptor} {w w' : World κ} {r : Reactor}
    (h : create listener m s w = (.ok r, w')) :
    r = fresh listener m s ∧ m.refusal? listener = none := by
  have hmade := Socket.closingOnFailure_ok h
  obtain ⟨_, _, -, hmade⟩ := bind_eq_ok.mp hmade
  obtain ⟨_, w₁, -, hmade⟩ := bind_eq_ok.mp hmade
  obtain ⟨_, _, hcheck, hmade⟩ := bind_eq_ok.mp hmade
  obtain ⟨_, _, -, hmade⟩ := bind_eq_ok.mp hmade
  refine ⟨(Outcome.ok.inj (congrArg Prod.fst hmade)).symm, ?_⟩
  rw [Multiplexor.check] at hcheck
  cases hrefusal : m.refusal? listener with
  | none => rfl
  | some e =>
    rw [hrefusal] at hcheck
    cases hcheck

theorem Starting.made (h : Starting m s n₀) :
    ∃ listener, n₀.reactor = fresh listener m s ∧ m.refusal? listener = none := by
  cases h with
  | created past opened made => exact ⟨_, create_ok made⟩
  | launched past method made =>
    obtain ⟨listener, _, -, made⟩ := bind_eq_ok.mp made
    obtain ⟨_, _, -, made⟩ := bind_eq_ok.mp made
    obtain ⟨_, _, -, made⟩ := bind_eq_ok.mp made
    rw [method]
    exact ⟨listener, create_ok made⟩

theorem Starting.tidy (h : Starting m s n₀) : n₀.Tidy := by
  obtain ⟨listener, hr, hwatch⟩ := h.made
  rw [Node.Tidy, hr]
  exact ⟨Registry.used_empty _, hwatch, nofun⟩

theorem Node.Tidy.quiet {α : Type} {a : Loop κ α} (ha : Quiet a) (h : n.Tidy) : (a n).2.Tidy := by
  obtain ⟨halike, hadded⟩ := ha.along n
  exact h.alike halike (hadded.openAfter_eq fun _ _ => openAfter_of_quiet)

/-- A started reactor is tidy in every state it comes to. -/
theorem Starting.tidy_of_reaches (hstart : Starting m s n₀) (hreach : n₀.Reaches n due)
    (hfresh : Fresh n.world.past) : n.Tidy := by
  induction hreach with
  | here => exact hstart.tidy
  | start _ ih => exact (ih (hfresh.of_suffix (quiet_start.tame.grows.grows _))).quiet quiet_start
  | wait _ ih =>
    exact (ih (hfresh.of_suffix (Node.quiet_wait.tame.grows.grows _))).quiet Node.quiet_wait
  | dispatch _ ih =>
    have ht := ih (hfresh.of_suffix ((tame_dispatch _).grows.grows _))
    exact (Node.dispatched_dispatch _ ht hfresh).tidy
  | report _ last ih =>
    exact (ih (hfresh.of_suffix ((quiet_report last).tame.grows.grows _))).quiet (quiet_report last)
  | finish _ ih =>
    exact (ih (hfresh.of_suffix (quiet_finish.tame.grows.grows _))).quiet quiet_finish

end

/-! ## Passes -/

/-- Registered descriptors are reported and no others, each once. -/
structure Plan.Reported (plan : Plan) (ready : List Readiness) : Prop where
  registered : ∀ x ∈ ready, x.fd ∈ plan.entries.map (·.fd)
  once : (ready.map (·.fd)).Nodup

namespace Node

variable {κ : Type} [Kernel κ] {n n₁ n₂ n' : Node κ} {due front back : List Readiness}
  {ready : Readiness} {r : Registry Descriptor}

/-- What is registered is the listener or a live connection. -/
theorem prepare_registered {plan : Plan} (h : prepare n = (.ok plan, n₁))
    (hs : n.reactor.registry.Sound) {e : Registration} (he : e ∈ plan.entries) :
    e.fd = n.reactor.listener ∨
      ∃ entry, n.reactor.registry.entryAt e.fd = some entry ∧ entry.interest = e.interest := by
  obtain ⟨_, n₂, hresume, h⟩ := bind_eq_ok.mp h
  obtain ⟨r', n₃, hr, h⟩ := bind_eq_ok.mp h
  obtain ⟨_, _, -, h⟩ := bind_eq_ok.mp h
  obtain rfl : n₂.reactor = r' := Outcome.ok.inj (congrArg Prod.fst hr)
  obtain ⟨halike, -⟩ := quiet_resumeAccepting.along n
  rw [hresume] at halike
  have hentries : plan.entries = n₂.reactor.registrations :=
    (congrArg Plan.entries (Outcome.ok.inj (congrArg Prod.fst h))).symm
  rw [hentries] at he
  rcases mem_registrations he with rfl | he
  · exact .inl halike.listener
  · obtain ⟨entry, hentry, hinterest⟩ := mem_interests (by rw [halike.registry]; exact hs) he
    rw [halike.registry] at hentry
    exact .inr ⟨entry, hentry, hinterest⟩

/-- The connections among `due` are as `r` has them. -/
def Untouched (r : Registry Descriptor) (due : List Readiness) (n : Node κ) : Prop :=
  ∀ x ∈ due, x.fd ≠ n.reactor.listener →
    (∃ entry, r.entryAt x.fd = some entry) ∧ n.reactor.registry.slotAt x.fd = r.slotAt x.fd

omit [Kernel κ] in
theorem Untouched.entryAt {x : Readiness} (h : Untouched r due n) (hx : x ∈ due)
    (hne : x.fd ≠ n.reactor.listener) : ∃ entry, n.reactor.registry.entryAt x.fd = some entry := by
  obtain ⟨⟨entry, hentry⟩, hslot⟩ := h x hx hne
  exact ⟨entry, by rw [Registry.entryAt, hslot]; exact hentry⟩

omit [Kernel κ] in
/-- One turn leaves the others untouched. -/
theorem Untouched.dispatched (h : Untouched r (ready :: due) n) (hd : Dispatched ready.fd n n')
    (hfd : ready.fd ∉ due.map (·.fd)) : Untouched r due n' := by
  intro x hx hne
  rw [hd.steady.listener] at hne
  have hx' : x ∈ ready :: due := List.mem_cons_of_mem ready hx
  have hother : x.fd ≠ ready.fd := fun he => hfd (he ▸ List.mem_map_of_mem hx)
  obtain ⟨entry, hentry⟩ := h.entryAt hx' hne
  obtain ⟨hlive, hslot⟩ := h x hx' hne
  exact ⟨hlive, (hd.others x.fd entry hother hentry).trans hslot⟩

theorem dispatchAll_grows (due : List Readiness) (n : Node κ) :
    n.world.past <:+ (dispatchAll due n).2.world.past :=
  (tame_dispatchAll due).grows.grows n

theorem dispatchAll_append (hfront : dispatchAll front n = (.ok (), n')) :
    dispatchAll (front ++ back) n = dispatchAll back n' := by
  induction front generalizing n with
  | nil =>
    obtain rfl : n = n' := congrArg Prod.snd hfront
    rfl
  | cons x front ih =>
    obtain ⟨_, n₁, hx, hfront⟩ := bind_eq_ok.mp hfront
    rw [List.cons_append, dispatchAll, bind_apply, hx]
    exact ih hfront

/-- What is served before leaves what is still due untouched. -/
theorem Untouched.dispatchAll (h : Untouched r (front ++ back) n)
    (hnodup : ((front ++ back).map (·.fd)).Nodup) (ht : n.Tidy)
    (hfront : Reactor.dispatchAll front n = (.ok (), n')) (hfresh : Fresh n'.world.past) :
    n'.Tidy ∧ n.reactor.Steady n'.reactor ∧ Untouched r back n' := by
  induction front generalizing n with
  | nil =>
    obtain rfl : n = n' := congrArg Prod.snd hfront
    exact ⟨ht, .refl _, h⟩
  | cons x front ih =>
    obtain ⟨_, n₁, hx, hfront⟩ := bind_eq_ok.mp hfront
    obtain ⟨hfd, hrest⟩ := List.nodup_cons.mp hnodup
    have hgrows : n₁.world.past <:+ n'.world.past := by
      have hg := dispatchAll_grows front n₁
      rwa [hfront] at hg
    have hd : Dispatched x.fd n n₁ := by
      have hd := dispatched_dispatch x ht
      rw [hx] at hd
      exact hd (hfresh.of_suffix hgrows)
    obtain ⟨ht', hsteady, hback⟩ := ih (h.dispatched hd hfd) hrest hd.tidy hfront
    exact ⟨ht', hd.steady.trans hsteady, hback⟩

omit [Kernel κ] in
/-- One turn moves bytes over its own connection, or brings a descriptor, but not both. -/
theorem Dispatched.moved {fd : Descriptor} (h : Dispatched fd n n') :
    ∃ moved, n'.world.past = moved ++ n.world.past ∧
      (∀ e ∈ moved, ∀ x, Call.carrier? (Event.call e) = some x → x = fd ∧ fd ≠ n.reactor.listener) ∧
      (∀ e ∈ moved, ∀ x, e.opened? = some x → x ∉ openAfter n.world.past) ∧
      moved.Pairwise fun later e => ∀ x, e.opened? = some x → later.call.carrier? ≠ some x := by
  obtain ⟨moved, hpast, hmoved⟩ := h.calls
  refine ⟨moved, hpast, fun e he x => (hmoved e he x).1,
    fun e he x ho => ((hmoved e he x).2 ho).2, ?_⟩
  refine List.pairwise_of_forall_mem_list fun later hlater e he x ho hc => ?_
  exact ((hmoved later hlater x).1 hc).2 ((hmoved e he x).2 ho).1

/-- Bytes move over due connections only, none of which was handed out meanwhile. -/
theorem Untouched.moved (h : Untouched r due n) (hnodup : (due.map (·.fd)).Nodup) (ht : n.Tidy)
    (hfresh : Fresh (Reactor.dispatchAll due n).2.world.past) :
    ∃ moved, (Reactor.dispatchAll due n).2.world.past = moved ++ n.world.past ∧
      (∀ e ∈ moved, ∀ fd, e.call.carrier? = some fd →
        (∃ x ∈ due, x.fd = fd) ∧ fd ≠ n.reactor.listener) ∧
      moved.Pairwise fun later e => ∀ fd, e.opened? = some fd → later.call.carrier? ≠ some fd := by
  induction due generalizing n with
  | nil => exact ⟨[], rfl, List.forall_mem_nil _, .nil⟩
  | cons x due ih =>
    obtain ⟨hfd, hrest⟩ := List.nodup_cons.mp hnodup
    have hd : Fresh (dispatch x n).2.world.past → Dispatched x.fd n (dispatch x n).2 :=
      dispatched_dispatch x ht
    have halone : Dispatched x.fd n (dispatch x n).2 → ∃ moved,
        (dispatch x n).2.world.past = moved ++ n.world.past ∧
        (∀ e ∈ moved, ∀ fd, e.call.carrier? = some fd →
          (∃ y ∈ x :: due, y.fd = fd) ∧ fd ≠ n.reactor.listener) ∧
        moved.Pairwise fun later e => ∀ fd, e.opened? = some fd →
          later.call.carrier? ≠ some fd := by
      intro hd
      obtain ⟨moved, hpast, hcarried, -, hpairs⟩ := hd.moved
      refine ⟨moved, hpast, fun e he fd hc => ?_, hpairs⟩
      obtain ⟨rfl, hne⟩ := hcarried e he fd hc
      exact ⟨⟨x, List.mem_cons_self, rfl⟩, hne⟩
    rw [Reactor.dispatchAll, bind_apply] at hfresh ⊢
    rcases hx : dispatch x n with ⟨o, n₁⟩
    rw [hx] at hd halone hfresh
    cases o with
    | failed e => exact halone (hd hfresh)
    | defect d => exact halone (hd hfresh)
    | ok _ =>
      replace hd := hd (hfresh.of_suffix (dispatchAll_grows due n₁))
      obtain ⟨before, hbefore, hcarried, hopened, hpairs⟩ := hd.moved
      obtain ⟨after, hafter, hcarried', hpairs'⟩ := ih (h.dispatched hd hfd) hrest hd.tidy hfresh
      rw [hd.steady.listener] at hcarried'
      refine ⟨after ++ before, by rw [hafter, hbefore, List.append_assoc], fun e he fd hc => ?_,
        List.pairwise_append.mpr ⟨hpairs', hpairs, fun later hlater e he fd ho hc => ?_⟩⟩
      · rcases List.mem_append.mp he with he | he
        · obtain ⟨⟨y, hy, rfl⟩, hne⟩ := hcarried' e he fd hc
          exact ⟨⟨y, List.mem_cons_of_mem x hy, rfl⟩, hne⟩
        · obtain ⟨rfl, hne⟩ := hcarried e he fd hc
          exact ⟨⟨x, List.mem_cons_self, rfl⟩, hne⟩
      · -- The connection was open before the turn, so its descriptor was not free.
        obtain ⟨⟨y, hy, rfl⟩, hne⟩ := hcarried' later hlater fd hc
        obtain ⟨entry, hentry⟩ := h.entryAt (List.mem_cons_of_mem x hy) hne
        exact hopened e he y.fd ho (ht.filed y.fd entry hentry).2.1

/-- A pass is its wait and what is served after it. -/
theorem pass_apply {plan : Plan} (hprepare : prepare n = (.ok plan, n₁))
    (hawait : await plan n₁ = (.ok due, n₂)) :
    Reactor.pass n = (Reactor.dispatchAll due >>= fun _ => pure due.length : Loop κ Nat) n₂ := by
  rw [Reactor.pass, bind_of_ok hprepare, Reactor.complete, bind_of_ok hawait]

theorem pass_state {plan : Plan} (hprepare : prepare n = (.ok plan, n₁))
    (hawait : await plan n₁ = (.ok due, n₂)) :
    (Reactor.pass n).2 = (Reactor.dispatchAll due n₂).2 := by
  rw [pass_apply hprepare hawait, bind_apply]
  split <;> rename_i heq <;> rw [heq]
  rfl

/-- Up to the end of the wait nothing happens to any connection. -/
theorem wait_along {plan : Plan} (hprepare : prepare n = (.ok plan, n₁))
    (hawait : await plan n₁ = (.ok due, n₂)) :
    n.reactor.Alike n₂.reactor ∧ Added Call.Quiet n.world.past n₂.world.past := by
  have hfirst := quiet_prepare.along n
  have hsecond := (quiet_await plan).along n₁
  rw [hprepare] at hfirst
  rw [hawait] at hsecond
  exact ⟨hfirst.1.trans hsecond.1, hfirst.2.trans hsecond.2⟩

end Node

open Node

variable {κ : Type} [Kernel κ] {m : Multiplexor} {s : Settings} {n₀ n n₁ n₂ : Node κ} {plan : Plan}
  {ready : List Readiness}

/-- **Readiness reaches the connection it is for.** In a pass whose multiplexor reports registered
descriptors only and each once, every dispatch serves the very connection that was registered when
the pass began, in the same generation and as it was; and over a descriptor that is handed out in
the pass nothing is received or sent in it. -/
theorem rightful_of_pass (hstart : Starting m s n₀) (hreach : n₀.Reaches n [])
    (hprepare : prepare n = (.ok plan, n₁)) (hawait : await plan n₁ = (.ok ready, n₂))
    (hreported : plan.Reported ready) (hfresh : Fresh (Reactor.pass n).2.world.past) :
    (∀ front x back n', ready = front ++ x :: back →
      Reactor.dispatchAll front n₂ = (.ok (), n') → x.fd ≠ n.reactor.listener →
      ∃ t entry, (t, entry) ∈ n.reactor.registry.toList ∧ t.fd = x.fd ∧
        ⟨x.fd, entry.interest⟩ ∈ plan.entries ∧ n'.reactor.registry.get? t = some entry ∧
        dispatch x n' = serveReady t x n') ∧
    ∃ moved, (Reactor.pass n).2.world.trace = n.world.trace ++ moved ∧
      (∀ e ∈ moved, ∀ fd, e.call.carrier? = some fd →
        ∃ t entry, (t, entry) ∈ n.reactor.registry.toList ∧ entry.socket = fd) ∧
      moved.Pairwise fun e later => ∀ fd, e.opened? = some fd → later.call.carrier? ≠ some fd := by
  rw [pass_state hprepare hawait] at hfresh ⊢
  obtain ⟨halike, hwait⟩ := wait_along hprepare hawait
  have hfresh₂ : Fresh n₂.world.past := hfresh.of_suffix (dispatchAll_grows ready n₂)
  have ht : n.Tidy := hstart.tidy_of_reaches hreach (hfresh₂.of_suffix hwait.suffix)
  have ht₂ : n₂.Tidy := ht.alike halike (hwait.openAfter_eq fun _ _ => openAfter_of_quiet)
  have hregistered : ∀ x ∈ ready, x.fd ≠ n.reactor.listener → ∃ entry,
      n.reactor.registry.entryAt x.fd = some entry ∧ ⟨x.fd, entry.interest⟩ ∈ plan.entries := by
    intro x hx hne
    obtain ⟨e, he, hfd⟩ := List.mem_map.mp (hreported.registered x hx)
    rw [← hfd] at hne ⊢
    obtain ⟨entry, hentry, hinterest⟩ := (prepare_registered hprepare ht.sound he).resolve_left hne
    exact ⟨entry, hentry, hinterest ▸ he⟩
  have huntouched : Untouched n.reactor.registry ready n₂ := by
    intro x hx hne
    rw [halike.listener] at hne
    obtain ⟨entry, hentry, -⟩ := hregistered x hx hne
    exact ⟨⟨entry, hentry⟩, by rw [halike.registry]⟩
  constructor
  · rintro front x back n' rfl hfront hne
    have hmem : x ∈ front ++ x :: back := by simp
    have hfresh' : Fresh n'.world.past := by
      rw [dispatchAll_append hfront] at hfresh
      exact hfresh.of_suffix (dispatchAll_grows _ n')
    obtain ⟨-, hsteady, hback⟩ := huntouched.dispatchAll hreported.once ht₂ hfront hfresh'
    have hlistener : n'.reactor.listener = n.reactor.listener :=
      hsteady.listener.trans halike.listener
    obtain ⟨-, hslot⟩ := hback x List.mem_cons_self (by rwa [hlistener])
    obtain ⟨entry, hentry, hplan⟩ := hregistered x hmem hne
    have hentry' : n'.reactor.registry.entryAt x.fd = some entry := by
      rw [Registry.entryAt, hslot]
      exact hentry
    refine ⟨⟨x.fd, (n.reactor.registry.slotAt x.fd).generation⟩, entry,
      Registry.mem_toList_of_entryAt ht.sound hentry, rfl, hplan, ?_, ?_⟩
    · exact Registry.get?_eq_some.mpr ⟨by rw [hslot], hentry'⟩
    · exact dispatch_found (by rwa [hlistener])
        (Registry.find?_eq_some.mpr ⟨entry, hentry', by rw [hslot]⟩)
  · obtain ⟨moved, hmoved, hcarried, hpairs⟩ := huntouched.moved hreported.once ht₂ hfresh
    obtain ⟨waited, hwaited, hquiet⟩ := hwait
    refine ⟨(moved ++ waited).reverse, ?_, fun e he fd hc => ?_, ?_⟩
    · rw [World.trace, World.trace, hmoved, hwaited, ← List.append_assoc, List.reverse_append]
    · rcases List.mem_append.mp (List.mem_reverse.mp he) with he | he
      · obtain ⟨⟨x, hx, rfl⟩, hne⟩ := hcarried e he fd hc
        rw [halike.listener] at hne
        obtain ⟨entry, hentry, -⟩ := hregistered x hx hne
        exact ⟨_, entry, Registry.mem_toList_of_entryAt ht.sound hentry,
          (ht.filed x.fd entry hentry).1⟩
      · rw [Call.carrier?_of_quiet (hquiet e he)] at hc
        cases hc
    · rw [List.pairwise_reverse]
      refine List.pairwise_append.mpr ⟨hpairs, ?_, fun later _ e he fd ho => ?_⟩
      · refine List.pairwise_of_forall_mem_list fun later _ e he fd ho => ?_
        rw [Event.opened?_of_quiet (hquiet e he)] at ho
        cases ho
      · rw [Event.opened?_of_quiet (hquiet e he)] at ho
        cases ho

namespace Reopened

/-- The listener has a higher descriptor than its connection. In the third pass the connection comes
to its end, and the next one gets its descriptor. -/
def world : World Script :=
  let connection := Script.Arriving.connection (some 4) ⟨2, 16, ⟨.unspecified, 40001⟩⟩ true
  let listener : Descriptor × Condition := (7, { readable := true })
  { level := .off
    kernel :=
      { socketNumbers := [7]
        queues := [(7, [connection { giving := [.bytes []] }, connection {}])]
        waits := [(.main, [
          { ready := [listener] },
          { ready := [(4, { writable := true })] },
          { ready := [(4, { readable := true }), listener] }])] } }

def settings : Settings := {}

def launched : Node Script :=
  ⟨.fresh 7 .poll settings, (Serving.launch settings world).2⟩

@[irreducible] def node : Node Script :=
  (Reactor.run 2 launched).2

def planned : Plan :=
  { entries := [⟨4, .read⟩, ⟨7, .read⟩], highest := 7, limit := none }

def listed : List Readiness :=
  [⟨4, true, false⟩, ⟨7, true, false⟩]

def woken : Node Script :=
  (await planned (prepare node).2).2

theorem rightful_of_reopened :
    planned.Reported listed ∧ Fresh (Reactor.pass node).2.world.past ∧
      (∃ t entry, (t, entry) ∈ node.reactor.registry.toList ∧ t.fd = 4 ∧
        woken.reactor.registry.get? t = some entry ∧
        dispatch ⟨4, true, false⟩ woken = serveReady t ⟨4, true, false⟩ woken) ∧
      ∃ moved, (Reactor.pass node).2.world.trace = node.world.trace ++ moved ∧
        moved.Pairwise fun e later => ∀ fd, e.opened? = some fd →
          later.call.carrier? ≠ some fd := by
  have hmade : Serving.launch settings world = (.ok (.fresh 7 .poll settings), launched.world) :=
    Prod.ext (by decide +kernel) rfl
  have hstart : Starting .poll settings launched := .launched rfl rfl hmade
  have hreach : launched.Reaches node [] := by
    rw [node]
    exact Node.Reaches.here.run 2
  have hprepare : prepare node = (.ok planned, (prepare node).2) := Prod.ext (by decide +kernel) rfl
  have hawait : await planned (prepare node).2 = (.ok listed, woken) :=
    Prod.ext (by decide +kernel) rfl
  have hreported : planned.Reported listed := ⟨by decide +kernel, by decide +kernel⟩
  have hlaw : Lawful (Reactor.pass node).2.world.past := by decide +kernel
  have hne : (4 : Descriptor) ≠ node.reactor.listener := by decide +kernel
  obtain ⟨hserved, moved, htrace, -, hpairs⟩ :=
    rightful_of_pass hstart hreach hprepare hawait hreported hlaw.fresh
  obtain ⟨t, entry, hmem, hfd, -, hget, hdispatch⟩ :=
    hserved [] ⟨4, true, false⟩ _ woken rfl rfl hne
  exact ⟨hreported, hlaw.fresh, ⟨t, entry, hmem, hfd, hget, hdispatch⟩, moved, htrace, hpairs⟩

end Reopened

end SpanEcho

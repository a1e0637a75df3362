import SpanEcho.Proofs.Calls
import SpanEcho.Proofs.Reactor.Isolation
import SpanEcho.Script.Kernel

/-!
# The order of the calls of a pass

What is ready is served one descriptor after the other, each in the directions in which it was
reported, receiving before sending. So if the descriptors are listed in ascending order, the calls
that accept, receive and send come in that order too, and none of them is made twice. `InOrder` says
it of a list of events and what was listed; it holds of one turn, and passes from turn to turn.

A descriptor whose turn it is not is not named by any call, unless it was handed out meanwhile. So a
connection that a receive has severed is closed by the next call, and left alone from then on; and a
failure that ends the pass leaves alone what is listed after it.
-/

namespace SpanEcho

open SpanEcho.Action Scene Loop Reactor

/-! ## Calls in order -/

/-- One call accepts, receives or sends before another: on a lower descriptor, or on the same one by
receiving before sending. -/
def Call.Before (c later : Call) : Prop :=
  ∀ fd fd', c.subject? = some fd → later.subject? = some fd' →
    fd < fd' ∨ fd = fd' ∧ Direction.receive.Moves fd c ∧ Direction.send.Moves fd later

/-- The listener is accepted on and connections receive and send, each only when reported ready in
that direction. -/
def Readiness.Reports (x : Readiness) (listener : Descriptor) : Call → Prop
  | .accept fd => fd = x.fd ∧ fd = listener ∧ x.readable
  | .receive fd _ => fd = x.fd ∧ fd ≠ listener ∧ x.readable
  | .send fd _ _ => fd = x.fd ∧ fd ≠ listener ∧ x.writable
  | _ => True

/-- Events, the earliest first, that may follow when `due` is listed as ready. -/
structure InOrder (listener : Descriptor) (due : List Readiness) (moved : List Event) : Prop where
  reported : ∀ e ∈ moved, ∀ fd, e.call.subject? = some fd → ∃ x ∈ due, x.Reports listener e.call
  ascending : moved.Pairwise fun e later => e.call.Before later.call
  /-- What a receive has severed is closed by the next call, and not named again before it is handed
  out again. -/
  severed : ∀ front e back fd room, moved = front ++ e :: back → e.call = .receive fd room →
    e.severs fd = true → ∃ closing rest, back = closing :: rest ∧ closing.call = .close fd ∧
      ∀ x ∈ lifetime fd rest, fd ∉ x.call.names
  /-- What is not listed is not named unless it is handed out. -/
  apart : ∀ fd, (∀ x ∈ due, x.fd ≠ fd) → ∀ e ∈ lifetime fd moved, fd ∉ e.call.names

variable {listener fd : Descriptor} {due front back : List Readiness} {x : Readiness} {e : Event}
  {moved moved' : List Event}

/-- A lifetime that goes on beyond some events goes on in what follows them. -/
theorem mem_lifetime_append (h : e ∈ lifetime fd (moved ++ moved')) :
    e ∈ lifetime fd moved ∨ e ∈ lifetime fd moved' := by
  induction moved with
  | nil => exact .inr h
  | cons y moved ih =>
    rw [List.cons_append, lifetime, List.takeWhile_cons] at h
    rw [lifetime, List.takeWhile_cons]
    split at h
    · rename_i hy
      rw [if_pos hy]
      rcases List.mem_cons.mp h with rfl | h
      · exact .inl List.mem_cons_self
      · exact (ih h).imp_left (List.mem_cons_of_mem y)
    · cases h

/-- Of events that exclude each other there is one at most. -/
theorem countP_le_one {p : Event → Bool} (h : moved.Pairwise fun e later => p e → p later → False) :
    moved.countP p ≤ 1 := by
  induction moved with
  | nil => exact Nat.zero_le 1
  | cons y moved ih =>
    obtain ⟨hy, hrest⟩ := List.pairwise_cons.mp h
    rw [List.countP_cons]
    split
    · rename_i hpy
      have hnone : moved.countP p = 0 := List.countP_eq_zero.mpr fun z hz hpz => hy z hz hpy hpz
      omega
    · exact ih hrest

theorem Readiness.Reports.fd_eq (h : x.Reports listener e.call) (hs : e.call.subject? = some fd) :
    x.fd = fd := by
  cases hc : e.call <;> rw [hc] at h hs <;> cases hs <;> exact h.1.symm

namespace InOrder

theorem nil (listener : Descriptor) (due : List Readiness) : InOrder listener due [] :=
  ⟨List.forall_mem_nil _, .nil, fun front e back _ _ h => by simp at h,
    fun _ _ => List.forall_mem_nil _⟩

/-- More may be listed than was served. -/
theorem mono (h : InOrder listener front moved) (hsub : ∀ x ∈ front, x ∈ due) :
    InOrder listener due moved where
  reported := fun e he fd hs =>
    let ⟨x, hx, hreports⟩ := h.reported e he fd hs
    ⟨x, hsub x hx, hreports⟩
  ascending := h.ascending
  severed := h.severed
  apart := fun fd hfd => h.apart fd fun x hx => hfd x (hsub x hx)

/-- The events of what is listed first come first. -/
theorem append (h : InOrder listener front moved) (h' : InOrder listener back moved')
    (hlt : ∀ x ∈ front, ∀ y ∈ back, x.fd < y.fd) :
    InOrder listener (front ++ back) (moved ++ moved') where
  reported := fun e he fd hs => by
    rcases List.mem_append.mp he with he | he
    · obtain ⟨x, hx, hreports⟩ := h.reported e he fd hs
      exact ⟨x, List.mem_append_left _ hx, hreports⟩
    · obtain ⟨x, hx, hreports⟩ := h'.reported e he fd hs
      exact ⟨x, List.mem_append_right _ hx, hreports⟩
  ascending := by
    refine List.pairwise_append.mpr ⟨h.ascending, h'.ascending,
      fun e he later hlater fd fd' hs hs' => ?_⟩
    obtain ⟨x, hx, hreports⟩ := h.reported e he fd hs
    obtain ⟨y, hy, hreports'⟩ := h'.reported later hlater fd' hs'
    rw [← hreports.fd_eq hs, ← hreports'.fd_eq hs']
    exact .inl (hlt x hx y hy)
  severed := fun before e after fd room hsplit hcall hsevers => by
    rcases List.append_eq_append_iff.mp hsplit with ⟨rest, hbefore, hrest⟩ | ⟨rest, hmoved, hrest⟩
    · exact h'.severed rest e after fd room hrest hcall hsevers
    · rcases rest with _ | ⟨y, rest⟩
      · exact h'.severed [] e after fd room hrest.symm hcall hsevers
      · obtain ⟨rfl, rfl⟩ := List.cons.inj hrest
        obtain ⟨closing, rest', rfl, hclose, hquiet⟩ :=
          h.severed before e rest fd room hmoved hcall hsevers
        refine ⟨closing, rest' ++ moved', rfl, hclose, fun y hy => ?_⟩
        rcases mem_lifetime_append hy with hy | hy
        · exact hquiet y hy
        · -- The descriptor was listed before, so it is not listed again.
          have he : e ∈ moved := hmoved ▸ List.mem_append_right _ List.mem_cons_self
          have hs : e.call.subject? = some fd := by rw [hcall]; rfl
          obtain ⟨x, hx, hreports⟩ := h.reported e he fd hs
          refine h'.apart fd (fun z hz hzfd => ?_) y hy
          have hlt' := hlt x hx z hz
          rw [hreports.fd_eq hs, hzfd] at hlt'
          exact absurd hlt' (Int.lt_irrefl fd)
  apart := fun fd hfd e he => by
    rcases mem_lifetime_append he with he | he
    · exact h.apart fd (fun x hx => hfd x (List.mem_append_left _ hx)) e he
    · exact h'.apart fd (fun x hx => hfd x (List.mem_append_right _ hx)) e he

/-! ### How often -/

/-- One connection is accepted at most. -/
theorem accepts_le (h : InOrder listener due moved) :
    moved.countP (fun e => e.call = .accept listener) ≤ 1 := by
  refine countP_le_one (h.ascending.imp fun {e later} hbefore he hlater => ?_)
  have hcall : e.call = .accept listener := by simpa using he
  have hcall' : later.call = .accept listener := by simpa using hlater
  rcases hbefore listener listener (by rw [hcall]; rfl) (by rw [hcall']; rfl) with
    hlt | ⟨-, hreceive, -⟩
  · exact Int.lt_irrefl _ hlt
  · rw [hcall] at hreceive
    exact hreceive

/-- In either direction bytes are moved over a descriptor by one call at most. -/
theorem moves_le (h : InOrder listener due moved) (fd : Descriptor) (d : Direction) :
    moved.countP (fun e => d.Moves fd e.call) ≤ 1 := by
  refine countP_le_one (h.ascending.imp fun {e later} hbefore he hlater => ?_)
  have hmoves : d.Moves fd e.call := by simpa using he
  have hmoves' : d.Moves fd later.call := by simpa using hlater
  rcases hbefore fd fd hmoves.subject hmoves'.subject with hlt | ⟨-, hreceive, hsend⟩
  · exact Int.lt_irrefl _ hlt
  · exact nomatch (hmoves.direction_eq hreceive).symm.trans (hmoves'.direction_eq hsend)

end InOrder

/-! ## Serving a connection -/

/-- Bytes are moved as reported if the descriptor is ready in their direction. -/
theorem Direction.Moves.reports {d : Direction} {c : Call} (h : d.Moves x.fd c)
    (hne : x.fd ≠ listener)
    (hreadable : d = .receive → x.readable = true) (hwritable : d = .send → x.writable = true) :
    x.Reports listener c := by
  unfold Direction.Moves at h
  split at h
  · exact ⟨h, h ▸ hne, hreadable rfl⟩
  · exact ⟨h, h ▸ hne, hwritable rfl⟩
  · exact h.elim

/-- The events, the earliest first, by which a connection is served in one direction: none, or one
call after which it stays, or one that severs it and the one that closes it. -/
inductive Direction.Serves (fd : Descriptor) (d : Direction) : List Event → Prop
  | nothing : d.Serves fd []
  | stays {e : Event} (moves : d.Moves fd e.call) (stays : e.severs fd = false) : d.Serves fd [e]
  | goes {e closing : Event} (moves : d.Moves fd e.call) (severs : e.severs fd = true)
      (close : closing.call = .close fd) : d.Serves fd [e, closing]

namespace Direction.Serves

variable {d : Direction} {fd' : Descriptor}

theorem moves (h : d.Serves fd moved) (he : e ∈ moved) (hs : e.call.subject? = some fd') :
    d.Moves fd e.call := by
  cases h with
  | nothing => cases he
  | stays moves _ => rwa [List.mem_singleton.mp he]
  | goes moves _ close =>
    rcases List.mem_cons.mp he with rfl | he
    · exact moves
    · rw [List.mem_singleton.mp he, close] at hs
      cases hs

theorem names (h : d.Serves fd moved) (he : e ∈ moved) : e.call.names = [fd] := by
  have hmoves : ∀ {c : Call}, d.Moves fd c → c.names = [fd] := fun {c} hc => by
    unfold Moves at hc
    split at hc
    · rw [← hc]; rfl
    · rw [← hc]; rfl
    · exact hc.elim
  cases h with
  | nothing => cases he
  | stays moves _ => rw [List.mem_singleton.mp he, hmoves moves]
  | goes moves _ close =>
    rcases List.mem_cons.mp he with rfl | he
    · exact hmoves moves
    · rw [List.mem_singleton.mp he, close]
      rfl

theorem ascending (h : d.Serves fd moved) :
    moved.Pairwise fun e later => e.call.Before later.call := by
  cases h with
  | nothing => exact .nil
  | stays _ _ => exact List.pairwise_singleton _ _
  | goes _ _ close =>
    refine List.pairwise_pair.mpr fun _ _ _ hs => ?_
    rw [close] at hs
    cases hs

/-- A call that severs is followed by the one that closes, and by no other. -/
theorem severed {before after : List Event} (h : d.Serves fd moved)
    (hsplit : moved = before ++ e :: after) (hs : e.call.subject? = some fd')
    (hsevers : e.severs fd = true) : ∃ closing, after = [closing] ∧ closing.call = .close fd := by
  have he : e ∈ moved := hsplit ▸ List.mem_append_right before List.mem_cons_self
  cases h with
  | nothing => cases he
  | stays _ stays =>
    rw [List.mem_singleton.mp he, stays] at hsevers
    cases hsevers
  | goes _ _ close =>
    rcases before with _ | ⟨y, before⟩
    · obtain ⟨rfl, rfl⟩ := List.cons.inj hsplit
      exact ⟨_, rfl, close⟩
    · obtain ⟨-, hrest⟩ := List.cons.inj hsplit
      rcases before with _ | ⟨z, before⟩
      · obtain ⟨rfl, -⟩ := List.cons.inj hrest
        rw [close] at hs
        cases hs
      · simp at hrest

/-- A connection that receives and then sends, unless it was severed before. -/
theorem inOrder (h : Direction.receive.Serves x.fd moved) (h' : Direction.send.Serves x.fd moved')
    (hne : x.fd ≠ listener) (hreadable : moved ≠ [] → x.readable = true)
    (hwritable : moved' ≠ [] → x.writable = true)
    (hstop : moved.any (·.severs x.fd) = true → moved' = []) :
    InOrder listener [x] (moved ++ moved') where
  reported := fun e he fd hs => by
    refine ⟨x, List.mem_singleton_self x, ?_⟩
    rcases List.mem_append.mp he with he | he
    · exact (h.moves he hs).reports hne (fun _ => hreadable (List.ne_nil_of_mem he)) nofun
    · exact (h'.moves he hs).reports hne nofun fun _ => hwritable (List.ne_nil_of_mem he)
  ascending := by
    refine List.pairwise_append.mpr ⟨h.ascending, h'.ascending,
      fun e he later hlater fd fd' hs hs' => ?_⟩
    have hreceive := h.moves he hs
    have hsend := h'.moves hlater hs'
    obtain rfl := Option.some.inj (hreceive.subject.symm.trans hs)
    obtain rfl := Option.some.inj (hsend.subject.symm.trans hs')
    exact .inr ⟨rfl, hreceive, hsend⟩
  severed := fun front e back fd room hsplit hcall hsevers => by
    have hs : e.call.subject? = some fd := by rw [hcall]; rfl
    have he : e ∈ moved := by
      have hmem : e ∈ moved ++ moved' := hsplit ▸ List.mem_append_right _ List.mem_cons_self
      refine (List.mem_append.mp hmem).resolve_right fun he => ?_
      have hsend := h'.moves he hs
      rw [hcall] at hsend
      exact hsend
    obtain rfl := Option.some.inj ((h.moves he hs).subject.symm.trans hs)
    obtain rfl := hstop (List.any_eq_true.mpr ⟨e, he, hsevers⟩)
    rw [List.append_nil] at hsplit
    obtain ⟨closing, rfl, hclose⟩ := h.severed hsplit hs hsevers
    exact ⟨closing, [], rfl, hclose, List.forall_mem_nil _⟩
  apart := fun fd hfd e he hnamed => by
    have hmem : e ∈ moved ++ moved' := (List.takeWhile_prefix _).subset he
    have hnames : e.call.names = [x.fd] :=
      (List.mem_append.mp hmem).elim h.names h'.names
    rw [hnames, List.mem_singleton] at hnamed
    exact hfd x (List.mem_singleton_self x) hnamed.symm

end Direction.Serves

namespace Node

variable {κ : Type} [Kernel κ] {n n' n₀ : Node κ} {others : List Descriptor}
  {theirs : Descriptor → Traffic} {t : Ticket} {entry : Entry Descriptor} {m : Multiplexor}
  {s : Settings}

/-- To serve a connection in one direction is to serve it so. -/
theorem serves_serve (hsound : Scene.Sound others theirs (Viewed.view n))
    (hg : n.reactor.registry.get? t = some entry) (d : Direction)
    (hlaw : Lawful (serve t d n).2.world.past) :
    ∃ moved, (serve t d n).2.world.past = moved.reverse ++ n.world.past ∧ d.Serves t.fd moved ∧
      (moved.any (·.severs t.fd) = true →
        (serve t d n).2.reactor.registry.entryAt t.fd = none) := by
  have hcalls := (calling_serve t d).added n
  obtain ⟨answer, session, moved, closing, n', hserve, hlength, htells, hr, hpast, hclosing⟩ :=
    serve_apply hsound hg d hlaw
  obtain ⟨_, -, ha, -⟩ := hsound
  obtain ⟨hs, -, hg', -⟩ := Registry.modify_of_get? ha.registry hg (fun e => { e with session }) rfl
  rw [hserve] at hcalls ⊢
  obtain ⟨made, hmade, hdirection⟩ := hcalls
  rw [hpast, ← List.append_assoc] at hmade
  obtain rfl := List.append_cancel_right hmade
  -- The handler's call is over the connection's own descriptor, and in its direction.
  have hmoves : ∀ e ∈ moved, d.Moves t.fd e.call := fun e he => by
    have hcarrier := htells.carried e he
    obtain ⟨fd, hmoves | hclose⟩ := hdirection e (List.mem_append_right _ he)
    · obtain rfl := Option.some.inj (hmoves.carrier.symm.trans hcarrier)
      exact hmoves
    · rw [hclose] at hcarrier
      cases hcarrier
  have hsevered := htells.severed
  have hgone : (interestAfter answer).isEmpty = true → n'.reactor.registry.entryAt t.fd = none :=
    fun hempty => by
      rw [hr]
      exact Reactor.keeping_gone hs hg' hempty
  rcases moved with _ | ⟨e, _ | ⟨e', rest⟩⟩
  · rw [hsevered, List.any_nil, if_neg Bool.false_ne_true] at hclosing
    obtain rfl := List.map_eq_nil_iff.mp hclosing
    exact ⟨[], hpast, .nothing, nofun⟩
  · have he : d.Moves t.fd e.call := hmoves e List.mem_cons_self
    rw [List.any_cons, List.any_nil, Bool.or_false] at hsevered
    rw [hsevered] at hclosing hgone
    cases hsevers : e.severs t.fd with
    | false =>
      rw [hsevers, if_neg Bool.false_ne_true] at hclosing
      obtain rfl := List.map_eq_nil_iff.mp hclosing
      exact ⟨[e], hpast, .stays he hsevers, fun h => by simp [hsevers] at h⟩
    | true =>
      rw [hsevers, if_pos rfl] at hclosing
      obtain ⟨close, rfl, hclose⟩ := List.map_eq_singleton_iff.mp hclosing
      exact ⟨[e, close], hpast, .goes he hsevers hclose, fun _ => hgone hsevers⟩
  · simp only [List.length_cons] at hlength
    omega

theorem serves_when (hsound : Scene.Sound others theirs (Viewed.view n))
    (hg : n.reactor.registry.get? t = some entry) (c : Bool) (d : Direction)
    (hlaw : Lawful (Action.when c (serve t d) n).2.world.past) :
    ∃ moved, (Action.when c (serve t d) n).2.world.past = moved.reverse ++ n.world.past ∧
      d.Serves t.fd moved ∧ (moved ≠ [] → c = true) ∧ (moved.any (·.severs t.fd) = true →
        (Action.when c (serve t d) n).2.reactor.registry.entryAt t.fd = none) := by
  cases c with
  | true =>
    obtain ⟨moved, hpast, hserves, hgone⟩ := serves_serve hsound hg d hlaw
    exact ⟨moved, hpast, hserves, fun _ => rfl, hgone⟩
  | false => exact ⟨[], rfl, .nothing, nofun, nofun⟩

/-- The turn of a connection is in order. -/
theorem inOrder_serveReady (hsound : Scene.Sound others theirs (Viewed.view n))
    (hg : n.reactor.registry.get? t = some entry) {ready : Readiness} (hfd : t.fd = ready.fd)
    (hne : ready.fd ≠ listener) (hlaw : Lawful (serveReady t ready n).2.world.past) :
    ∃ moved, (serveReady t ready n).2.world.past = moved.reverse ++ n.world.past ∧
      InOrder listener [ready] moved := by
  have hkeeps : Keeps (Scene.Sound others theirs)
      (Action.when ready.readable (serve t .receive) : Loop κ Unit) :=
    Triple.when (sound_serve t .receive) fun _ _ h => h
  have htame : Loop.Tame (Action.when ready.writable (serve t .send) : Loop κ Unit) :=
    .when (tame_serve t .send)
  have hlaw₁ : Lawful (Action.when ready.readable (serve t .receive) n).2.world.past :=
    hlaw.of_suffix (grows_bind (fun _ => htame.grows.grows) n)
  have hsound₁ := hkeeps.ensures n hsound hlaw₁
  obtain ⟨ho, -⟩ := fate_when hsound hg ready.readable .receive hlaw₁
  obtain ⟨moved, hpast, hserves, hreadable, hgone⟩ :=
    serves_when hsound hg ready.readable .receive hlaw₁
  rcases hfirst : Action.when ready.readable (serve t .receive) n with ⟨o, n₁⟩
  rw [hfirst] at ho hpast hgone hsound₁
  obtain rfl : o = .ok () := ho
  rw [serveReady, bind_of_ok hfirst] at hlaw ⊢
  rw [hfd] at hserves hgone
  cases hg₁ : n₁.reactor.registry.get? t with
  | none =>
    rw [when_stale hg₁]
    refine ⟨moved, hpast, ?_⟩
    have hin : InOrder listener [ready] (moved ++ []) :=
      hserves.inOrder .nothing hne hreadable (fun hmoved => absurd rfl hmoved) fun _ => rfl
    rwa [List.append_nil] at hin
  | some entry₁ =>
    obtain ⟨moved', hpast', hserves', hwritable, -⟩ :=
      serves_when hsound₁ hg₁ ready.writable .send hlaw
    rw [hfd] at hserves'
    refine ⟨moved ++ moved', ?_, hserves.inOrder hserves' hne hreadable hwritable fun hany => ?_⟩
    · rw [hpast', hpast, List.reverse_append, List.append_assoc]
    · rw [← hfd] at hgone
      rw [Registry.get?_of_entryAt_none (hgone (hfd ▸ hany))] at hg₁
      cases hg₁

/-! ## Accepting -/

/-- The turn of the listener is in order. -/
theorem inOrder_acceptOne {ready : Readiness} (hfd : ready.fd = n.reactor.listener)
    (hreadable : ready.readable = true) :
    ∃ moved, (acceptOne n).2.world.past = moved.reverse ++ n.world.past ∧
      InOrder n.reactor.listener [ready] moved := by
  obtain ⟨later, hpast, hlater⟩ := (reception_acceptOne n).about
  have hcall : (n.world.event (.accept n.reactor.listener)).call = .accept n.reactor.listener := rfl
  generalize n.world.event (.accept n.reactor.listener) = e at hpast hlater hcall
  have hnone : ∀ x ∈ later.reverse, x.call.subject? = none := fun x hx =>
    (hlater x (List.mem_reverse.mp hx)).1
  refine ⟨e :: later.reverse, by simp [hpast], ?_, ?_, ?_, ?_⟩
  · intro x hx fd hs
    rcases List.mem_cons.mp hx with rfl | hx
    · refine ⟨ready, List.mem_singleton_self ready, ?_⟩
      rw [hcall]
      exact ⟨hfd.symm, rfl, hreadable⟩
    · rw [hnone x hx] at hs
      cases hs
  · refine List.pairwise_cons.mpr ⟨fun x hx _ _ _ hs => ?_, List.pairwise_of_forall_mem_list
      fun _ _ x hx _ _ _ hs => ?_⟩ <;>
    · rw [hnone x hx] at hs
      cases hs
  · intro front x back fd room hsplit hreceive _
    have hx : x ∈ e :: later.reverse := hsplit ▸ List.mem_append_right _ List.mem_cons_self
    rcases List.mem_cons.mp hx with rfl | hx
    · rw [hcall] at hreceive
      cases hreceive
    · have hs := hnone x hx
      rw [hreceive] at hs
      cases hs
  · intro fd hne x hx hnamed
    rw [lifetime, List.takeWhile_cons] at hx
    split at hx
    · rename_i hopened
      rcases List.mem_cons.mp hx with rfl | hx
      · rw [hcall] at hnamed
        exact hne ready (List.mem_singleton_self ready)
          (hfd.trans (List.mem_singleton.mp hnamed).symm)
      · have hx' : x ∈ later := List.mem_reverse.mp ((List.takeWhile_prefix _).subset hx)
        simp [(hlater x hx').2 fd hnamed] at hopened
    · cases hx

/-! ## Turns -/

/-- Every turn is in order. -/
theorem inOrder_dispatch (hsound : Scene.Sound others theirs (Viewed.view n)) (ready : Readiness)
    (hlaw : Lawful (dispatch ready n).2.world.past) :
    ∃ moved, (dispatch ready n).2.world.past = moved.reverse ++ n.world.past ∧
      InOrder n.reactor.listener [ready] moved := by
  by_cases he : ready.fd = n.reactor.listener
  · rw [dispatch_listener he]
    cases hr : ready.readable with
    | true => exact inOrder_acceptOne he hr
    | false => exact ⟨[], rfl, .nil _ _⟩
  · cases hf : n.reactor.registry.find? ready.fd with
    | none =>
      rw [dispatch_missing he hf]
      exact ⟨[], rfl, .nil _ _⟩
    | some t =>
      obtain ⟨entry, hentry, rfl⟩ := Registry.find?_eq_some.mp hf
      rw [dispatch_found he hf] at hlaw ⊢
      exact inOrder_serveReady hsound (Registry.get?_eq_some.mpr ⟨rfl, hentry⟩) rfl he hlaw

variable {front back : List Readiness}

/-- Turns of descriptors in ascending order are in order together. -/
theorem Turns.inOrder (h : Turns n front n') (hstart : Starting m s n₀)
    (hreach : n₀.Reaches n (front ++ back)) (hascending : front.Pairwise (·.fd < ·.fd))
    (hlaw : Lawful n'.world.past) :
    n'.reactor.listener = n.reactor.listener ∧
      ∃ moved, n'.world.past = moved.reverse ++ n.world.past ∧
        InOrder n.reactor.listener front moved := by
  induction h with
  | done => exact ⟨rfl, [], rfl, .nil _ _⟩
  | @next ready due n n₁ n' turn contained rest ih =>
    obtain ⟨hlt, hrest⟩ := List.pairwise_cons.mp hascending
    have hreach₁ : n₀.Reaches n₁ (due ++ back) := by
      have hnext := hreach.dispatch
      rwa [turn] at hnext
    obtain ⟨hlistener, later, hlater, hin⟩ := ih hreach₁ hrest hlaw
    have hlaw₁ : Lawful n₁.world.past := hlaw.of_suffix (hlater ▸ List.suffix_append _ _)
    have hlaw₀ : Lawful n.world.past := by
      have hgrows := (tame_dispatch ready).grows.grows n
      rw [turn] at hgrows
      exact hlaw₁.of_suffix hgrows
    have hfirst := inOrder_dispatch (hstart.sound_of_reaches hreach hlaw₀) ready
    have hd := dispatched_dispatch ready (hstart.tidy_of_reaches hreach hlaw₀.fresh)
    rw [turn] at hfirst hd
    obtain ⟨moved, hmoved, hone⟩ := hfirst hlaw₁
    have hsame : n₁.reactor.listener = n.reactor.listener := (hd hlaw₁.fresh).steady.listener
    rw [hsame] at hlistener hin
    refine ⟨hlistener, moved ++ later, by rw [hlater, hmoved]; simp, hone.append hin ?_⟩
    exact fun x hx y hy => List.mem_singleton.mp hx ▸ hlt y hy

/-- Turns leave alone the connections whose turn does not come. -/
theorem Turns.spares (h : Turns n front n') (hne : ∀ x ∈ front, t.fd ≠ x.fd)
    (hg : n.reactor.registry.get? t = some entry) : n'.reactor.registry.get? t = some entry := by
  induction h with
  | done => exact hg
  | next turn contained rest ih =>
    refine ih (fun x hx => hne x (List.mem_cons_of_mem _ hx)) ?_
    exact contained.others t entry (hne _ List.mem_cons_self) hg

theorem Turns.dispatchAll (h : Turns n front n') : Reactor.dispatchAll front n = (.ok (), n') := by
  induction h with
  | done => rfl
  | next turn contained rest ih => exact (bind_of_ok turn).trans ih

/-- What is listed under `fd` is left alone: no call names it unless it is handed out, and its
connection stays as it was. -/
structure Spared (fd : Descriptor) (n n' : Node κ) (moved : List Event) : Prop where
  calls : ∀ e ∈ lifetime fd moved, fd ∉ e.call.names
  connection : ∀ t entry, t.fd = fd → n.reactor.registry.get? t = some entry →
    n'.reactor.registry.get? t = some entry

/-- How a pass is cut short after the wait: one turn ends it, and what was listed after
is spared. -/
inductive CutShort (ready : List Readiness) (woken n' : Node κ) (moved : List Event) : Prop
  | turn {front back : List Readiness} {x : Readiness} {n₁ : Node κ}
      (listed : ready = front ++ x :: back)
      (before : Reactor.dispatchAll front woken = (.ok (), n₁)) (ends : (dispatch x n₁).1 ≠ .ok ())
      (last : (dispatch x n₁).2 = n') (after : ∀ y ∈ back, Spared y.fd woken n' moved)

/-- What is listed in ascending order is served in order, and spared after a turn that
ends the pass. -/
theorem inOrder_dispatchAll {ready : List Readiness} (hstart : Starting m s n₀)
    (hreach : n₀.Reaches n ready) (hascending : ready.Pairwise (·.fd < ·.fd))
    (hlaw : Lawful (Reactor.dispatchAll ready n).2.world.past) :
    ∃ moved, (Reactor.dispatchAll ready n).2.world.past = moved.reverse ++ n.world.past ∧
      InOrder n.reactor.listener ready moved ∧ ((Reactor.dispatchAll ready n).1 ≠ .ok () →
        CutShort ready n (Reactor.dispatchAll ready n).2 moved) := by
  rcases turns_dispatchAll hstart hreach hlaw with
    ⟨ho, hturns⟩ | ⟨front, x, back, n₁, rfl, hturns, hreach₁, hlast, hbad⟩
  · have hreach' : n₀.Reaches n (ready ++ []) := by rwa [List.append_nil]
    obtain ⟨-, moved, hpast, hin⟩ := hturns.inOrder hstart hreach' hascending hlaw
    exact ⟨moved, hpast, hin, fun hne => absurd ho hne⟩
  · rw [← hlast] at hlaw ⊢
    obtain ⟨hfront, hback, hcross⟩ := List.pairwise_append.mp hascending
    obtain ⟨hx, -⟩ := List.pairwise_cons.mp hback
    have hlaw₁ : Lawful n₁.world.past := hlaw.of_suffix ((tame_dispatch x).grows.grows n₁)
    obtain ⟨hlistener, moved, hpast, hin⟩ := hturns.inOrder hstart hreach hfront hlaw₁
    obtain ⟨moved', hpast', hin'⟩ :=
      inOrder_dispatch (hstart.sound_of_reaches hreach₁ hlaw₁) x hlaw
    rw [hlistener] at hin'
    have hlt : ∀ z ∈ front ++ [x], ∀ y ∈ back, z.fd < y.fd := fun z hz y hy => by
      rcases List.mem_append.mp hz with hz | hz
      · exact hcross z hz y (List.mem_cons_of_mem x hy)
      · exact List.mem_singleton.mp hz ▸ hx y hy
    have hserved : InOrder n.reactor.listener (front ++ [x]) (moved ++ moved') :=
      hin.append hin' fun z hz y hy => List.mem_singleton.mp hy ▸ hcross z hz x List.mem_cons_self
    refine ⟨moved ++ moved', by rw [hpast', hpast]; simp, hserved.mono fun z hz => ?_, fun _ =>
      .turn rfl hturns.dispatchAll hbad rfl fun y hy => ⟨?_, fun t entry ht hg => ?_⟩⟩
    · rcases List.mem_append.mp hz with hz | hz
      · exact List.mem_append_left _ hz
      · exact List.mem_append_right _ (List.mem_singleton.mp hz ▸ List.mem_cons_self)
    · exact hserved.apart y.fd fun z hz => Int.ne_of_lt (hlt z hz y hy)
    · have hne : ∀ z ∈ front ++ [x], t.fd ≠ z.fd := fun z hz =>
        ht ▸ (Int.ne_of_lt (hlt z hz y hy)).symm
      have hg₁ := hturns.spares (fun z hz => hne z (List.mem_append_left _ hz)) hg
      exact (contained_dispatch hstart hreach₁ x hlaw).others t entry
        (hne x (List.mem_append_right _ List.mem_cons_self)) hg₁

end Node

open Node

variable {κ : Type} [Kernel κ] {m : Multiplexor} {s : Settings} {n₀ n : Node κ}
  {o : Outcome (List Readiness)}

/-- **Calls come in the order of what is ready.** In a pass whose wait lists descriptors in
ascending order, whichever they are, connections are accepted, received from and sent to in that
order, each once at most in either direction and only as it was listed. What a receive severs is
closed next and then left alone, and what is listed after a turn that ends the pass is spared. -/
theorem order_of_pass {woken : Node κ} (hstart : Starting m s n₀) (hreach : n₀.Reaches n [])
    (hwoken : (prepare >>= await) n = (o, woken))
    (hascending : (Readiness.afterWait o).Pairwise (·.fd < ·.fd))
    (hlaw : Lawful (Reactor.pass n).2.world.past) :
    ∃ waited moved, woken.world.trace = n.world.trace ++ waited ∧ (∀ e ∈ waited, e.call.Quiet) ∧
      (Reactor.pass n).2.world.trace = woken.world.trace ++ moved ∧
      InOrder n.reactor.listener (Readiness.afterWait o) moved ∧
      moved.countP (fun e => e.call = .accept n.reactor.listener) ≤ 1 ∧
      (∀ fd d, moved.countP (fun e => Direction.Moves fd d e.call) ≤ 1) ∧
      ((Reactor.pass n).1.isOk = false → o.isOk = false ∧ moved = [] ∨
        CutShort (Readiness.afterWait o) woken (Reactor.pass n).2 moved) := by
  obtain ⟨halike, waited, hwaited, hquiet⟩ := quiet_wait.along n
  have hreach' : n₀.Reaches woken (Readiness.afterWait o) := by
    have hnext := hreach.wait
    rwa [hwoken] at hnext
  rw [hwoken] at halike hwaited
  have htrace : woken.world.trace = n.world.trace ++ waited.reverse := by
    rw [World.trace, hwaited, List.reverse_append]
    rfl
  have hquiet' : ∀ e ∈ waited.reverse, e.call.Quiet := fun e he => hquiet e (List.mem_reverse.mp he)
  obtain ⟨plan, n₁, hprepare⟩ := sure_prepare n
  rw [bind_of_ok hprepare] at hwoken
  suffices h : ∃ moved, (Reactor.pass n).2.world.past = moved.reverse ++ woken.world.past ∧
      InOrder n.reactor.listener (Readiness.afterWait o) moved ∧
      ((Reactor.pass n).1.isOk = false → o.isOk = false ∧ moved = [] ∨
        CutShort (Readiness.afterWait o) woken (Reactor.pass n).2 moved) by
    obtain ⟨moved, hpast, hin, hended⟩ := h
    refine ⟨waited.reverse, moved, htrace, hquiet', ?_, hin, hin.accepts_le, hin.moves_le, hended⟩
    rw [World.trace, hpast, List.reverse_append, List.reverse_reverse]
    rfl
  cases o with
  | ok ready =>
    have hstate := pass_state hprepare hwoken
    rw [hstate] at hlaw ⊢
    have hready : n₀.Reaches woken ready := hreach'
    obtain ⟨moved, hpast, hin, hcut⟩ := inOrder_dispatchAll hstart hready hascending hlaw
    rw [halike.listener] at hin
    refine ⟨moved, hpast, hin, fun hended => .inr (hcut fun ho => ?_)⟩
    rw [pass_apply hprepare hwoken, bind_apply] at hended
    rcases hall : Reactor.dispatchAll ready woken with ⟨o, n'⟩
    rw [hall] at ho hended
    obtain rfl : o = .ok () := ho
    cases hended
  | failed why =>
    have hpass : Reactor.pass n = (.failed why, woken) := by
      rw [Reactor.pass, bind_of_ok hprepare, Reactor.complete, bind_apply, hwoken]
    rw [hpass]
    exact ⟨[], rfl, .nil _ _, fun _ => .inl ⟨rfl, rfl⟩⟩
  | defect what =>
    have hpass : Reactor.pass n = (.defect what, woken) := by
      rw [Reactor.pass, bind_of_ok hprepare, Reactor.complete, bind_apply, hwoken]
    rw [hpass]
    exact ⟨[], rfl, .nil _ _, fun _ => .inl ⟨rfl, rfl⟩⟩

namespace Overfull

/-- The multiplexor watches eight descriptors, and the listener has a higher one than its first two
connections. In the fourth pass the first connection comes to its end, the second one is echoed, and
the listener accepts a third one that cannot be watched. -/
def world : World Script :=
  let connection (fd : Nat) :=
    Script.Arriving.connection (some fd) ⟨2, 16, ⟨.unspecified, 40001⟩⟩ true
  let listener : Descriptor × Condition := (5, { readable := true })
  let both : Condition := { readable := true, writable := true }
  { level := .off
    kernel :=
      { socketNumbers := [5]
        queues := [(5, [connection 3 { giving := [.bytes []] },
          connection 4 { giving := [.bytes [94, 97, 36]] }, connection 8 {}])]
        waits := [(.main, [
          { ready := [listener] },
          { ready := [listener] },
          { ready := [(3, { writable := true }), (4, { writable := true })] },
          { ready := [(2, both), (3, both), (4, both), listener, (9, both)] }])] } }

def method : Multiplexor :=
  .external "watch" (some 8)

def settings : Settings := {}

def opened : World Script :=
  (Socket.listenOn 0 128 false world).2

def made : Node Script :=
  ⟨.fresh 5 method settings, (create 5 method settings opened).2⟩

@[irreducible] def node : Node Script :=
  (Reactor.run 3 made).2

def woken : Node Script :=
  ((prepare >>= await) node).2

/-- Two of these descriptors have no connection. -/
def listed : List Readiness :=
  [⟨2, true, true⟩, ⟨3, true, true⟩, ⟨4, true, true⟩, ⟨5, true, false⟩, ⟨9, true, true⟩]

theorem order_of_overfull :
    ∃ moved, (Reactor.pass node).2.world.trace = woken.world.trace ++ moved ∧
      moved.map (·.call) = [.receive 3 1024, .close 3, .receive 4 1024, .send 4 [98] 16384,
        .accept 5, .descriptorFlags 8, .setDescriptorFlags 8 1, .statusFlags 8, .close 8] ∧
      InOrder 5 listed moved ∧ CutShort listed woken (Reactor.pass node).2 moved := by
  have hopened : Socket.listenOn 0 128 false world = (.ok 5, opened) :=
    Prod.ext (by decide +kernel) rfl
  have hmade : create 5 method settings opened = (.ok (.fresh 5 method settings), made.world) :=
    Prod.ext (by decide +kernel) rfl
  have hreach : made.Reaches node [] := by
    rw [node]
    exact Node.Reaches.here.run 3
  have hwoken : (prepare >>= await) node = (.ok listed, woken) := Prod.ext (by decide +kernel) rfl
  have hlistener : node.reactor.listener = 5 := by decide +kernel
  have hascending : listed.Pairwise (·.fd < ·.fd) := by decide
  have hlaw : Lawful (Reactor.pass node).2.world.past := by decide +kernel
  have hended : (Reactor.pass node).1.isOk = false := by decide +kernel
  have hcalls : ((Reactor.pass node).2.world.trace.drop woken.world.trace.length).map (·.call) =
      [.receive 3 1024, .close 3, .receive 4 1024, .send 4 [98] 16384, .accept 5,
        .descriptorFlags 8, .setDescriptorFlags 8 1, .statusFlags 8, .close 8] := by
    decide +kernel
  obtain ⟨-, moved, -, -, htrace, horder, -, -, hcut⟩ :=
    order_of_pass (.created rfl hopened hmade) hreach hwoken hascending hlaw
  rw [htrace, List.drop_left] at hcalls
  rw [hlistener] at horder
  refine ⟨moved, htrace, hcalls, horder, (hcut hended).resolve_left fun h => ?_⟩
  cases h.1

end Overfull

end SpanEcho

import SpanEcho.Proofs.Joining
import SpanEcho.Proofs.Reactor.Reception

/-!
# Starting up is all or nothing

Before a fleet has its first thread it has all its sockets, open, set up and bound to one port. What
it takes to get there is a plan: the calls in their order, with the numbers that some of them give
for others to use. A call that fails ends the plan. Then every socket that was opened is closed, and
nothing else is done.

Each part of the start-up `Undertakes` its part of the plan. The parts are put together as the
actions are, with the sockets that are open between them.
-/

namespace SpanEcho

open SpanEcho.Action

/-! ## Plans -/

/-- Why a call of the start-up failed. A name that is not of version 4 is no use. -/
def Event.setback? : Event → Option Failure
  | ⟨_, .socket, reply, _⟩ => reply.failure? Call.socket.operation
  | ⟨_, .setOption fd option value, reply, _⟩ =>
    reply.failure? (Call.setOption fd option value).operation
  | ⟨_, .bind fd address, reply, _⟩ => reply.failure? (Call.bind fd address).operation
  | ⟨_, .listen fd backlog, reply, _⟩ => reply.failure? (Call.listen fd backlog).operation
  | ⟨_, .localName fd, .ok name, _⟩ =>
    if name.endpoint?.isSome then none else some (.invalidDescriptor fd)
  | ⟨_, .localName fd, reply, _⟩ => reply.failure? (Call.localName fd).operation
  | e => e.failure?

/-- The error number of a call of the start-up that failed with one. -/
def Event.errno? : Event → Option Errno
  | ⟨_, .socket, .failed errno, _⟩ => some errno
  | ⟨_, .descriptorFlags _, .failed errno, _⟩ => some errno
  | ⟨_, .setDescriptorFlags _ _, .failed errno, _⟩ => some errno
  | ⟨_, .setOption _ _ _, .failed errno, _⟩ => some errno
  | ⟨_, .bind _ _, .failed errno, _⟩ => some errno
  | ⟨_, .listen _ _, .failed errno, _⟩ => some errno
  | ⟨_, .localName _, .failed errno, _⟩ => some errno
  | _ => none

/-- A call of the start-up that fails with `again` or `interrupted` sets it back as a call that
would block; one that fails with any other number, as a failure of that call. Neither is tried
again. -/
theorem Event.setback?_of_errno {e : Event} {errno : Errno} (h : e.errno? = some errno) :
    e.setback? = some (if errno = .again ∨ errno = .interrupted then .wouldBlock
      else .system e.call.operation errno.recognized) := by
  unfold errno? at h
  split at h <;> cases h <;> exact Answer.failure?_failed _ _

/-- The number that a call of the start-up gave for later calls to use. -/
def Event.gift? : Event → Option Nat
  | ⟨_, .socket, .ok number, _⟩ => some number
  | ⟨_, .descriptorFlags _, .ok flags, _⟩ => some flags
  | ⟨_, .localName _, .ok name, _⟩ => name.endpoint?.map (·.port)
  | _ => none

/-- A call that is planned, with the number it gives if it does its work. -/
structure Planned where
  call : Call
  gives : Option Nat := none

/-- How the calls of a plan went that were made one after the other: all did their work, or the last
one failed and those that remained were not made. -/
inductive Followed : List Planned → Option Failure → List Event → Prop
  | done : Followed [] none []
  | failed {p : Planned} {plan : List Planned} {e : Event} {why : Failure} (call : e.call = p.call)
      (failure : e.setback? = some why) : Followed (p :: plan) (some why) [e]
  | step {p : Planned} {plan : List Planned} {e : Event} {why : Option Failure} {made : List Event}
      (call : e.call = p.call) (worked : e.setback? = none) (gave : e.gift? = p.gives)
      (rest : Followed plan why made) : Followed (p :: plan) why (e :: made)

namespace Followed

variable {plan plan' : List Planned} {why : Option Failure} {made made' : List Event}

theorem append (h : Followed plan none made) (h' : Followed plan' why made') :
    Followed (plan ++ plan') why (made ++ made') := by
  generalize hwent : (none : Option Failure) = went at h
  induction h with
  | done => exact h'
  | failed => cases hwent
  | step call worked gave _ ih => exact .step call worked gave (ih hwent)

/-- A plan that failed is the beginning of any longer one. -/
theorem extend {reason : Failure} (h : Followed plan (some reason) made) (plan' : List Planned) :
    Followed (plan ++ plan') (some reason) made := by
  generalize hwent : some reason = went at h
  induction h with
  | done => cases hwent
  | failed call failure =>
    cases hwent
    exact .failed call failure
  | step call worked gave _ ih => exact .step call worked gave (ih hwent)

/-- Only planned calls are made. -/
theorem allowed {allowed : Call → Prop} (h : Followed plan why made)
    (hplan : ∀ p ∈ plan, allowed p.call) : ∀ e ∈ made, allowed e.call := by
  induction h with
  | done => exact fun _ he => absurd he List.not_mem_nil
  | failed call failure =>
    intro e he
    rw [List.mem_singleton.mp he, call]
    exact hplan _ List.mem_cons_self
  | step call _ _ _ ih =>
    obtain ⟨hp, hrest⟩ := List.forall_mem_cons.mp hplan
    exact List.forall_mem_cons.mpr ⟨call ▸ hp, ih hrest⟩

/-- All planned calls are made if none fails. -/
theorem calls_eq (h : Followed plan none made) : made.map (·.call) = plan.map (·.call) := by
  generalize hwent : (none : Option Failure) = went at h
  induction h with
  | done => rfl
  | failed => cases hwent
  | step call _ _ _ ih => rw [List.map_cons, List.map_cons, call, ih hwent]

theorem exists_made (h : Followed plan none made) {p : Planned} (hp : p ∈ plan) :
    ∃ e ∈ made, e.call = p.call ∧ e.gift? = p.gives := by
  generalize hwent : (none : Option Failure) = went at h
  induction h with
  | done => cases hp
  | failed => cases hwent
  | @step q plan e why made call worked gave rest ih =>
    rcases List.mem_cons.mp hp with rfl | hp
    · exact ⟨e, List.mem_cons_self, call, gave⟩
    · obtain ⟨x, hx, hmade⟩ := ih hp hwent
      exact ⟨x, List.mem_cons_of_mem e hx, hmade⟩

end Followed

/-- What the kernel gives when a listening socket is opened: its number, and the flags it has. -/
structure Opening where
  number : Nat
  flags : Nat
deriving Inhabited

/-- The calls that open a socket of a fleet on `port`. Its options are set before it is bound. -/
def Opening.calls (port : Nat) (backlog : Int) (o : Opening) : List Planned :=
  [{ call := .socket, gives := some o.number },
    { call := .descriptorFlags o.number, gives := some o.flags },
    { call := .setDescriptorFlags o.number (o.flags ||| Descriptor.closeOnExec) },
    { call := .setOption o.number .reuseAddress 1 },
    { call := .setOption o.number .reusePort 1 },
    { call := .bind o.number ⟨.unspecified, port⟩ },
    { call := .listen o.number backlog }]

/-- The calls that open all sockets of a fleet. The first is opened on the port of the settings; the
others are opened on `port`, under which the kernel knows the first. -/
def Settings.startUp (s : Settings) (port : Nat) : List Opening → List Planned
  | [] => []
  | first :: others =>
    first.calls s.port s.backlog ++
      ({ call := .localName first.number, gives := some port } ::
        others.flatMap (·.calls port s.backlog))

/-- The port that a call binds a socket to. -/
def Call.boundTo? : Call → Option Nat
  | .bind _ address => some address.port
  | _ => none

/-- A socket that was bound to a port of the server's choice is known under that port. -/
def NamedAsBound (events : List Event) : Prop :=
  ∀ b ∈ events, ∀ e ∈ events, ∀ fd port name, b.call = .bind fd ⟨.unspecified, port⟩ → port ≠ 0 →
    e.call = .localName fd → e.gift? = some name → name = port

/-! ## Undertaking a plan -/

/-- An action that follows a plan ends with a value, and leaves open the sockets it found and those
it opened; or it fails for the reason the plan did, and closes each of them. -/
inductive Undertaken {α : Type} (plan : List Planned) (before after : List Descriptor) :
    Outcome α → List Event → Prop
  | done {a : α} {made : List Event} (followed : Followed plan none made)
      (holds : after = before ++ made.filterMap Event.opened?) :
      Undertaken plan before after (.ok a) made
  | undone {why : Failure} {made closed : List Event} (followed : Followed plan (some why) made)
      (closes : (closed.map (·.call)).Perm
        ((before ++ made.filterMap Event.opened?).map Call.close)) :
      Undertaken plan before after (.failed why) (made ++ closed)

namespace Sys

variable {κ α β : Type}

/-- Run from `w`, the action follows the plan. -/
def Undertakes (plan : List Planned) (before after : List Descriptor) (m : Sys κ α) (w : World κ) :
    Prop :=
  ∃ events, (m w).2.trace = w.trace ++ events ∧ Undertaken plan before after (m w).1 events

theorem Undertakes.silent {held : List Descriptor} {m : Sys κ α} {w : World κ} {a : α}
    (hok : (m w).1 = .ok a) (hpast : (m w).2.past = w.past) : Undertakes [] held held m w :=
  ⟨[], by rw [World.trace, hpast, List.append_nil, World.trace],
    hok ▸ .done .done (List.append_nil _).symm⟩

theorem Undertakes.bind {plan plan' : List Planned} {before between after : List Descriptor}
    {m : Sys κ α} {f : α → Sys κ β} {w : World κ} (hm : Undertakes plan before between m w)
    (hf : ∀ a w', m w = (.ok a, w') → Undertakes plan' between after (f a) w') :
    Undertakes (plan ++ plan') before after (m >>= f) w := by
  rcases heq : m w with ⟨o, w'⟩
  obtain ⟨events, htrace, hevents⟩ := hm
  rw [heq] at htrace hevents
  cases hevents with
  | @done a _ followed holds =>
    obtain ⟨events', htrace', hevents'⟩ := hf a w' heq
    rw [Undertakes, bind_of_ok heq]
    refine ⟨events ++ events', by rw [htrace', htrace, List.append_assoc], ?_⟩
    generalize (f a w').1 = o' at hevents' ⊢
    cases hevents' with
    | done followed' holds' =>
      exact .done (followed.append followed')
        (by rw [holds', holds, List.filterMap_append, List.append_assoc])
    | undone followed' closes =>
      rw [← List.append_assoc]
      refine .undone (followed.append followed') ?_
      rwa [List.filterMap_append, ← List.append_assoc, ← holds]
  | @undone why made closed followed closes =>
    have hfails : (m >>= f) w = (.failed why, w') := by rw [bind_apply, heq]
    rw [Undertakes, hfails]
    exact ⟨made ++ closed, htrace, .undone (followed.extend plan') closes⟩

/-- What is to come may depend on how the action ends. -/
theorem exists_of_ok {γ : Type} [Nonempty γ] {p : γ → α → World κ → Prop} (m : Sys κ α)
    (w : World κ) (h : ∀ a w', m w = (.ok a, w') → ∃ c, p c a w') :
    ∃ c, ∀ a w', m w = (.ok a, w') → p c a w' := by
  rcases heq : m w with ⟨o, w'⟩
  cases o with
  | ok a =>
    obtain ⟨c, hc⟩ := h a w' heq
    refine ⟨c, ?_⟩
    rintro _ _ ⟨⟩
    exact hc
  | failed e => exact ⟨Classical.ofNonempty, nofun⟩
  | defect d => exact ⟨Classical.ofNonempty, nofun⟩

theorem Undertakes.bind_exists {γ : Type} [Nonempty γ] {plan : List Planned}
    {plan' : γ → List Planned} {before between : List Descriptor} {after : γ → List Descriptor}
    {m : Sys κ α} {f : α → Sys κ β} {w : World κ} (hm : Undertakes plan before between m w)
    (hf : ∀ a w', m w = (.ok a, w') → ∃ c, Undertakes (plan' c) between (after c) (f a) w') :
    ∃ c, Undertakes (plan ++ plan' c) before (after c) (m >>= f) w := by
  obtain ⟨c, hc⟩ := exists_of_ok m w hf
  exact ⟨c, hm.bind hc⟩

variable [Kernel κ]

omit [Kernel κ] in
theorem ending_failed {operation : String} {answer : Answer α} {why : Failure} :
    ending operation answer = .failed why ↔ answer.failure? operation = some why := by
  unfold ending Answer.failure?
  cases answer.result operation with
  | ok a => simp
  | error e => simp

/-- An action that makes one call, and ends as that does, follows the plan of it. -/
theorem undertakes_single {c : Call} {gives : Option Nat} {after : List Descriptor} {m : Sys κ α}
    {w : World κ}
    (h : (∃ a, m w = (.ok a, (w.call c).2) ∧ (w.event c).setback? = none ∧
        (w.event c).gift? = gives ∧ (w.event c).opened?.toList = after) ∨
      ∃ why, m w = (.failed why, (w.call c).2) ∧ (w.event c).setback? = some why ∧
        (w.event c).opened? = none) : Undertakes [{ call := c, gives }] [] after m w := by
  rcases h with ⟨a, heq, hworked, hgift, hafter⟩ | ⟨why, heq, hsetback, hopened⟩
  · rw [Undertakes, heq]
    refine ⟨[w.event c], w.trace_call c, .done (.step rfl hworked hgift .done) ?_⟩
    cases hopened : (w.event c).opened? <;> simp [← hafter, hopened]
  · rw [Undertakes, heq]
    exact ⟨[w.event c] ++ [], w.trace_call c,
      .undone (.failed rfl hsetback) (by simp [hopened])⟩

theorem undertakes_ask {c : Call} {read : c.Reply → Answer α} {gives : Option Nat}
    {after : List Descriptor} {w : World κ}
    (hset : (w.event c).setback? = (read (w.call c).1).failure? c.operation)
    (hok : ∀ a, read (w.call c).1 = .ok a →
      (w.event c).gift? = gives ∧ (w.event c).opened?.toList = after)
    (hfailed : (∀ a, read (w.call c).1 ≠ .ok a) → (w.event c).opened? = none) :
    Undertakes [{ call := c, gives }] [] after (Sys.ask c read) w := by
  refine undertakes_single ?_
  rw [hset, ask_apply, Answer.failure?]
  cases hending : ending c.operation (read (w.call c).1) with
  | ok a =>
    have hreply := ending_ok.mp hending
    exact .inl ⟨a, rfl, by rw [hreply]; rfl, hok a hreply⟩
  | failed why =>
    refine .inr ⟨why, rfl, ending_failed.mp hending, hfailed fun a ha => ?_⟩
    rw [ending_ok.mpr ha] at hending
    cases hending
  | defect d => exact absurd hending (ending_ne_defect _ _ d)

/-- A call that gives a number undertakes itself, with the number it gives. -/
theorem exists_undertakes_ask {c : Call} {read : c.Reply → Answer Nat}
    {after : Nat → List Descriptor} {w : World κ}
    (hset : (w.event c).setback? = (read (w.call c).1).failure? c.operation)
    (hok : ∀ n, read (w.call c).1 = .ok n →
      (w.event c).gift? = some n ∧ (w.event c).opened?.toList = after n)
    (hfailed : (∀ n, read (w.call c).1 ≠ .ok n) → (w.event c).opened? = none) :
    ∃ n, Undertakes [{ call := c, gives := some n }] [] (after n) (Sys.ask c read) w ∧
      ∀ a w', Sys.ask c read w = (.ok a, w') → a = n := by
  obtain ⟨n, hn⟩ := exists_of_ok (p := fun n a _ => a = n) (Sys.ask c read : Sys κ Nat) w
    fun a _ _ => ⟨a, rfl⟩
  refine ⟨n, undertakes_ask hset (fun a ha => ?_) hfailed, hn⟩
  obtain rfl := hn a _ (ask_ok ha)
  exact hok a ha

end Sys

namespace Socket

variable {κ α : Type} [Kernel κ] {w : World κ}

/-- Sockets that were open before are closed along with those that the action opened. -/
theorem undertakes_closingOnFailure {plan : List Planned} {after : List Descriptor} {m : Sys κ α}
    (held : List Descriptor) (hm : Sys.Undertakes plan [] after m w) :
    Sys.Undertakes plan held (held ++ after) (closingOnFailure held m) w := by
  rcases heq : m w with ⟨o, w'⟩
  obtain ⟨events, htrace, hevents⟩ := hm
  rw [heq] at htrace hevents
  cases hevents with
  | @done a _ followed holds =>
    have hkept : closingOnFailure held m w = (.ok a, w') := by
      simp only [closingOnFailure, bind_apply, observe, heq]
      rfl
    rw [Sys.Undertakes, hkept]
    exact ⟨events, htrace, .done followed (by rw [holds, List.nil_append])⟩
  | @undone why made closed followed closes =>
    obtain ⟨closed', htrace', hcalls⟩ := trace_closeAll held w'
    obtain ⟨_, w'', hclose⟩ := sure_closeAll held w'
    have hundone : closingOnFailure held m w = (.failed why, w'') := by
      simp only [closingOnFailure, bind_apply, observe, heq, hclose]
      rfl
    rw [hclose] at htrace'
    rw [Sys.Undertakes, hundone]
    refine ⟨made ++ (closed ++ closed'), by rw [htrace', htrace]; simp only [List.append_assoc],
      .undone followed ?_⟩
    rw [List.map_append, List.map_append, hcalls]
    exact (closes.append_right _).trans List.perm_append_comm

theorem undertakes_guarding {plan : List Planned} {m : Sys κ α} {fd : Descriptor}
    (hm : Sys.Undertakes plan [] [] m w) :
    Sys.Undertakes plan [fd] [fd] (closingOnFailure [fd] m) w :=
  undertakes_closingOnFailure [fd] hm

/-! ## Opening the sockets -/

/-- A call that hands out nothing and gives no number. -/
theorem undertakes_quiet {c : Call} {read : c.Reply → Answer Unit} (w : World κ)
    (hset : (w.event c).setback? = (read (w.call c).1).failure? c.operation)
    (hgift : (w.event c).gift? = none) (hopened : (w.event c).opened? = none) :
    Sys.Undertakes [{ call := c }] [] [] (Sys.ask c read : Sys κ Unit) w :=
  Sys.undertakes_ask hset (fun _ _ => ⟨hgift, by rw [hopened]; rfl⟩) fun _ => hopened

/-- The flags of a descriptor are read, and set again with one more. -/
theorem undertakes_setCloseOnExec (fd : Descriptor) (w : World κ) :
    ∃ flags, Sys.Undertakes
      [{ call := .descriptorFlags fd, gives := some flags },
        { call := .setDescriptorFlags fd (flags ||| Descriptor.closeOnExec) }]
      [] [] (setCloseOnExec fd : Sys κ Unit) w := by
  have hevent : w.event (.descriptorFlags fd) = ⟨w.thread, .descriptorFlags fd,
    (w.call (.descriptorFlags fd)).1, (w.event (.descriptorFlags fd)).arrivals⟩ := rfl
  have hgives : ∀ n, (w.call (.descriptorFlags fd)).1 = .ok n →
      (w.event (.descriptorFlags fd)).gift? = some n ∧
        (w.event (.descriptorFlags fd)).opened?.toList = [] := by
    intro n hn
    rw [hevent, hn]
    exact ⟨rfl, rfl⟩
  obtain ⟨flags, hread, hflags⟩ : ∃ flags : Nat, Sys.Undertakes
        [{ call := .descriptorFlags fd, gives := some flags }] [] []
        (Sys.ask (.descriptorFlags fd) id : Sys κ Nat) w ∧
      ∀ a w', Sys.ask (.descriptorFlags fd) id w = (.ok a, w') → a = flags :=
    Sys.exists_undertakes_ask rfl hgives fun _ => rfl
  refine ⟨flags, hread.bind fun a w' ha => ?_⟩
  obtain rfl := hflags a w' ha
  exact undertakes_quiet w' rfl rfl rfl

/-- A new socket is asked for. -/
theorem undertakes_socket (w : World κ) :
    ∃ number : Nat, Sys.Undertakes [{ call := .socket, gives := some number }] []
        [(number : Descriptor)] (Sys.ask .socket id : Sys κ Nat) w ∧
      ∀ a w', Sys.ask .socket id w = (.ok a, w') → a = number := by
  have hevent : w.event .socket =
    ⟨w.thread, .socket, (w.call .socket).1, (w.event .socket).arrivals⟩ := rfl
  refine Sys.exists_undertakes_ask rfl (fun n hn => ?_) fun hne => ?_
  · have hreply : (w.call .socket).1 = .ok n := hn
    rw [hevent, hreply]
    exact ⟨rfl, rfl⟩
  · rw [hevent]
    cases hreply : (w.call .socket).1 with
    | ok n => exact absurd hreply (hne n)
    | failed errno => rfl
    | notOpen => rfl

/-- A socket is opened and set up, and is the value. -/
theorem undertakes_listenOn (port : Nat) (backlog : Int) (w : World κ) :
    ∃ o : Opening, Sys.Undertakes (o.calls port backlog) [] [(o.number : Descriptor)]
        (listenOn port backlog true : Sys κ Descriptor) w ∧
      ∀ fd w', listenOn port backlog true w = (.ok fd, w') → fd = o.number := by
  obtain ⟨number, hsocket, hnumber⟩ := undertakes_socket w
  obtain ⟨flags, hundertakes⟩ : ∃ flags : Nat, Sys.Undertakes
      (Opening.calls port backlog ⟨number, flags⟩) [] [(number : Descriptor)]
      (listenOn port backlog true : Sys κ Descriptor) w := by
    refine hsocket.bind_exists fun a w₁ ha => ?_
    obtain rfl := hnumber a w₁ ha
    obtain ⟨flags, hflags⟩ := undertakes_setCloseOnExec (a : Descriptor) w₁
    refine ⟨flags, undertakes_guarding ?_⟩
    refine hflags.bind fun _ w₂ _ => ?_
    refine (undertakes_quiet w₂ rfl rfl rfl).bind fun _ w₃ _ => ?_
    refine (undertakes_quiet w₃ rfl rfl rfl).bind fun _ w₄ _ => ?_
    refine (undertakes_quiet w₄ rfl rfl rfl).bind fun _ w₅ _ => ?_
    refine (undertakes_quiet w₅ rfl rfl rfl).bind fun _ w₆ _ => ?_
    exact .silent rfl rfl
  refine ⟨⟨number, flags⟩, hundertakes, fun fd w' h => ?_⟩
  obtain ⟨a, w₁, ha, h⟩ := bind_eq_ok.mp h
  obtain rfl := hnumber a w₁ ha
  replace h := closingOnFailure_ok h
  obtain ⟨_, _, -, h⟩ := bind_eq_ok.mp h
  obtain ⟨_, _, -, h⟩ := bind_eq_ok.mp h
  obtain ⟨_, _, -, h⟩ := bind_eq_ok.mp h
  obtain ⟨_, _, -, h⟩ := bind_eq_ok.mp h
  obtain ⟨_, _, -, h⟩ := bind_eq_ok.mp h
  cases h
  rfl

end Socket

namespace Serving

variable {κ : Type} [Kernel κ] {w : World κ}

/-- The port under which the kernel knows a socket, if it tells one. -/
theorem localPort_cases (listener : Descriptor) (w : World κ) :
    let m : Sys κ Nat := do
      let address ← Socket.localAddress listener
      pure address.port
    let e := w.event (.localName listener)
    (∃ port, m w = (.ok port, (w.call (.localName listener)).2) ∧ e.setback? = none ∧
        e.gift? = some port) ∨
      ∃ why, m w = (.failed why, (w.call (.localName listener)).2) ∧ e.setback? = some why := by
  intro m e
  have he : e = ⟨w.thread, .localName listener, (w.call (.localName listener)).1, e.arrivals⟩ := rfl
  have hask := Sys.ask_apply (.localName listener) id w
  cases hending : Sys.ending (Call.localName listener).operation
      (id (w.call (.localName listener)).1 : Answer SocketName) with
  | ok name =>
    rw [hending] at hask
    rw [he, show (w.call (.localName listener)).1 = .ok name from Sys.ending_ok.mp hending]
    cases hname : name.endpoint? with
    | some address =>
      refine .inl ⟨address.port, ?_, by simp [Event.setback?, hname], by simp [Event.gift?, hname]⟩
      simp [m, Socket.localAddress, bind_apply, hask, hname]
    | none =>
      refine .inr ⟨.invalidDescriptor listener, ?_, by simp [Event.setback?, hname]⟩
      simp [m, Socket.localAddress, bind_apply, hask, hname, fail]
  | failed why =>
    rw [hending] at hask
    refine .inr ⟨why, by simp [m, Socket.localAddress, bind_apply, hask], ?_⟩
    have hfailure := Sys.ending_failed.mp hending
    rw [he]
    cases hreply : (w.call (.localName listener)).1 with
    | ok name =>
      rw [hreply] at hending
      cases hending
    | failed errno => rwa [hreply] at hfailure
    | notOpen => rwa [hreply] at hfailure
  | defect d => exact absurd hending (Sys.ending_ne_defect _ _ d)

/-- The kernel is asked for the port of the first socket. -/
theorem undertakes_portOf (listener : Descriptor) (w : World κ) :
    ∃ port,
      Sys.Undertakes [{ call := .localName listener, gives := some port }] [listener] [listener]
        (portOf listener : Sys κ Nat) w ∧
      ∀ p w', portOf listener w = (.ok p, w') → p = port := by
  rcases localPort_cases listener w with ⟨port, hok, hworked, hgift⟩ | ⟨why, hfailed, hsetback⟩
  · refine ⟨port, Socket.undertakes_guarding
      (Sys.undertakes_single (.inl ⟨port, hok, hworked, hgift, rfl⟩)), fun p w' hp => ?_⟩
    have hp := Socket.closingOnFailure_ok hp
    rw [hok] at hp
    cases hp
    rfl
  · refine ⟨0, Socket.undertakes_guarding
      (Sys.undertakes_single (.inr ⟨why, hfailed, hsetback, rfl⟩)), fun p w' hp => ?_⟩
    have hp := Socket.closingOnFailure_ok hp
    rw [hfailed] at hp
    cases hp

/-- The other sockets are opened one after the other. One that fails takes all before it along. -/
theorem undertakes_openMore (port : Nat) (backlog : Int) (opened : List Descriptor) (count : Nat)
    (w : World κ) :
    ∃ others : { others : List Opening // others.length = count },
      Sys.Undertakes (others.val.flatMap (·.calls port backlog)) opened
        (opened ++ others.val.map fun o => (o.number : Descriptor))
        (openMore port backlog opened count : Sys κ (List Descriptor)) w := by
  induction count generalizing opened w with
  | zero => exact ⟨⟨[], rfl⟩, by rw [List.map_nil, List.append_nil]; exact .silent rfl rfl⟩
  | succ count ih =>
    have : Nonempty { others : List Opening // others.length = count } :=
      ⟨⟨List.replicate count default, List.length_replicate⟩⟩
    obtain ⟨o, hopen, ho⟩ := Socket.undertakes_listenOn port backlog w
    obtain ⟨⟨others, hlength⟩, hundertakes⟩ :=
      (Socket.undertakes_closingOnFailure opened hopen).bind_exists
        (f := fun fd => openMore port backlog (opened ++ [fd]) count) fun fd w' hfd => by
          obtain rfl := ho fd w' (Socket.closingOnFailure_ok hfd)
          exact ih (opened ++ [(o.number : Descriptor)]) w'
    refine ⟨⟨o :: others, by rw [List.length_cons, hlength]⟩, ?_⟩
    rwa [List.append_assoc] at hundertakes

/-- The whole of the start-up. -/
theorem undertakes_assemble {s : Settings} (hworkers : 0 < s.workers) (w : World κ) :
    ∃ port openings, openings.length = s.workers ∧
      Sys.Undertakes (s.startUp port openings) []
        (openings.map fun o => (o.number : Descriptor)) (assemble s : Sys κ Fleet) w := by
  have : Nonempty { others : List Opening // others.length = s.workers - 1 } :=
    ⟨⟨List.replicate (s.workers - 1) default, List.length_replicate⟩⟩
  obtain ⟨first, hopen, hfirst⟩ := Socket.undertakes_listenOn s.port s.backlog w
  suffices h : ∃ c : Nat × { others : List Opening // others.length = s.workers - 1 },
      Sys.Undertakes (s.startUp c.1 (first :: c.2.val)) []
        ([(first.number : Descriptor)] ++ c.2.val.map fun o => (o.number : Descriptor))
        (assemble s : Sys κ Fleet) w by
    obtain ⟨⟨port, others, hlength⟩, hundertakes⟩ := h
    exact ⟨port, first :: others, by rw [List.length_cons, hlength]; omega, hundertakes⟩
  refine hopen.bind_exists fun fd w₁ hfd => ?_
  obtain rfl := hfirst fd w₁ hfd
  obtain ⟨port, hname, hport⟩ := undertakes_portOf (first.number : Descriptor) w₁
  suffices h : ∃ others : { others : List Opening // others.length = s.workers - 1 },
      Sys.Undertakes ([{ call := .localName first.number, gives := some port }] ++
          others.val.flatMap (·.calls port s.backlog)) [(first.number : Descriptor)]
        ([(first.number : Descriptor)] ++ others.val.map fun o => (o.number : Descriptor))
        (do
          let port ← portOf (first.number : Descriptor)
          let listeners ← openMore port s.backlog [(first.number : Descriptor)] (s.workers - 1)
          Sys.log .info s!"serving on port {port} with {s.workers} reactors"
          pure { settings := Fleet.shardSettings s, waitingListeners := listeners } : Sys κ Fleet)
        w₁ by
    obtain ⟨others, hundertakes⟩ := h
    exact ⟨(port, others), hundertakes⟩
  refine hname.bind_exists fun p w₂ hp => ?_
  obtain rfl := hport p w₂ hp
  obtain ⟨others, hothers⟩ :=
    undertakes_openMore p s.backlog [(first.number : Descriptor)] (s.workers - 1) w₂
  refine ⟨others, List.append_nil (others.val.flatMap _) ▸ hothers.bind fun listeners w₃ _ => ?_⟩
  exact (Sys.Undertakes.silent rfl (World.write_past _ w₃)).bind fun _ w₄ _ => .silent rfl rfl

/-! ## All or nothing -/

/-- All sockets of a fleet are open, and the kernel knows the first under `port`. -/
structure AllOpen (s : Settings) (port : Nat) (openings : List Opening) (made : List Event) :
    Prop where
  followed : Followed (s.startUp port openings) none made
  opened : made.filterMap Event.opened? = openings.map fun o => (o.number : Descriptor)
  /-- The first is bound to the port of the settings, all others to that of the first. -/
  bound : made.filterMap (·.call.boundTo?) = s.port :: List.replicate (s.workers - 1) port
  /-- A kernel that knows a socket under the port it was bound to has them all on that of the
  settings. -/
  same : s.port ≠ 0 → NamedAsBound made → port = s.port

/-- A call failed, and nothing is open. -/
structure NoneOpen (s : Settings) (port : Nat) (openings : List Opening) (made rest : List Event)
    (why : Failure) : Prop where
  followed : Followed (s.startUp port openings) (some why) made
  closed : (rest.map (·.call)).Perm ((made.filterMap Event.opened?).map Call.close)

theorem setsUp_startUp (s : Settings) (port : Nat) (openings : List Opening) :
    ∀ p ∈ s.startUp port openings, p.call.SetsUp := by
  have hcalls : ∀ (o : Opening) (port : Nat), ∀ p ∈ o.calls port s.backlog, p.call.SetsUp := by
    intro o port p hp
    simp only [Opening.calls, List.mem_cons, List.not_mem_nil, or_false] at hp
    rcases hp with rfl | rfl | rfl | rfl | rfl | rfl | rfl <;> trivial
  cases openings with
  | nil => exact nofun
  | cons first others =>
    intro p hp
    rcases List.mem_append.mp hp with hp | hp
    · exact hcalls first s.port p hp
    · rcases List.mem_cons.mp hp with rfl | hp
      · trivial
      · obtain ⟨o, -, hp⟩ := List.mem_flatMap.mp hp
        exact hcalls o port p hp

theorem boundTo_startUp (s : Settings) (port : Nat) {openings : List Opening}
    (hne : openings ≠ []) :
    (s.startUp port openings).filterMap (·.call.boundTo?) =
      s.port :: List.replicate (openings.length - 1) port := by
  obtain ⟨first, others, rfl⟩ := List.exists_cons_of_ne_nil hne
  have hcalls : ∀ (o : Opening) (port : Nat),
      (o.calls port s.backlog).filterMap (·.call.boundTo?) = [port] := fun _ _ => rfl
  have hothers : (others.flatMap (·.calls port s.backlog)).filterMap (·.call.boundTo?) =
      List.replicate others.length port := by
    induction others with
    | nil => rfl
    | cons o rest ih =>
      rw [List.flatMap_cons, List.filterMap_append, hcalls, ih (List.cons_ne_nil _ _),
        List.length_cons, List.replicate_succ, List.singleton_append]
  show (first.calls s.port s.backlog ++ _ :: others.flatMap _).filterMap _ = _
  rw [List.filterMap_append, hcalls, List.filterMap_cons_none rfl, hothers]
  rfl

theorem allOpen_of_followed {s : Settings} {port : Nat} {openings : List Opening}
    {made : List Event} (hworkers : 0 < s.workers) (hlength : openings.length = s.workers)
    (hfollowed : Followed (s.startUp port openings) none made)
    (hopened : made.filterMap Event.opened? = openings.map fun o => (o.number : Descriptor)) :
    AllOpen s port openings made where
  followed := hfollowed
  opened := hopened
  bound := by
    have hne : openings ≠ [] := by
      rintro rfl
      exact absurd hlength (Nat.ne_of_lt hworkers)
    have hcalls : ∀ events : List Event, events.filterMap (·.call.boundTo?) =
        (events.map (·.call)).filterMap Call.boundTo? := fun events => by
      rw [List.filterMap_map]
      rfl
    rw [hcalls, hfollowed.calls_eq, List.filterMap_map, ← hlength]
    exact boundTo_startUp s port hne
  same hport hnamed := by
    cases openings with
    | nil => exact absurd hlength (Nat.ne_of_lt hworkers)
    | cons first others =>
      obtain ⟨b, hb, hbind, -⟩ := hfollowed.exists_made
        (p := { call := .bind first.number ⟨.unspecified, s.port⟩ })
        (List.mem_append_left _ (by simp [Opening.calls]))
      obtain ⟨e, he, hname, hgift⟩ := hfollowed.exists_made
        (p := { call := .localName first.number, gives := some port })
        (List.mem_append_right _ List.mem_cons_self)
      exact hnamed b hb e he first.number s.port port hbind hport hname hgift

variable {most : Nat} {schedule : List Turn} {s : Settings} {w₀ : World κ}
  {o : Outcome (Option Tally)}

/-- **Starting up is all or nothing.** A server with several reactors makes the calls of its plan in
order, before any other: every socket is opened, has both its options set and is then bound to the
one port, and no thread is started, nothing accepted, received or sent and no wait entered on the
way. Either all of these calls do their work; or the first that fails is the last of them, the
server fails for that reason, and all that it does besides is to close each of the sockets it had
opened. -/
theorem allOrNothing_of_serve (hvalid : s.failure? = none) (hseveral : 1 < s.workers)
    (hserve : serve most schedule s w₀ = (o, w)) :
    ∃ port openings made rest, openings.length = s.workers ∧
      w.trace = w₀.trace ++ (made ++ rest) ∧ (∀ e ∈ made, e.call.SetsUp) ∧
      (AllOpen s port openings made ∨
        ∃ why, o = .failed why ∧ NoneOpen s port openings made rest why) := by
  have hworkers : 0 < s.workers := Nat.zero_lt_of_lt hseveral
  obtain ⟨port, openings, hlength, events, htrace, hevents⟩ := undertakes_assemble hworkers w₀
  have hsetsUp := setsUp_startUp s port openings
  rcases hassemble : assemble s w₀ with ⟨o₁, w₁⟩
  rw [hassemble] at htrace hevents
  have hchecked : Action.failIf (none : Option Failure) w₀ = (.ok (), w₀) := rfl
  rw [serve, hvalid, bind_of_ok hchecked, if_neg (Nat.ne_of_gt hseveral)] at hserve
  cases hevents with
  | @done fleet _ followed holds =>
    have hgrows : w₁.past <:+ w.past := by
      have hrest : ∀ w', ((fleet.follow schedule >>= Fleet.conclude) w' : _ × World κ) = (o, w) →
          w'.past <:+ w.past := by
        intro w' h
        have hgrows := (Fleet.triple_follow schedule fleet).grows w'
        have hends := grows_bind (m := (fleet.follow schedule : Sys κ Fleet))
          (fun f => (Fleet.triple_conclude f).grows) w'
        rw [h] at hends
        exact hgrows.trans hends
      rw [bind_of_ok hassemble] at hserve
      exact hrest w₁ hserve
    obtain ⟨more, hmore⟩ := hgrows
    refine ⟨port, openings, events, more.reverse, hlength, ?_, followed.allowed hsetsUp,
      .inl (allOpen_of_followed hworkers hlength followed ?_)⟩
    · rw [World.trace, ← hmore, List.reverse_append, ← World.trace, htrace, List.append_assoc]
    · rw [← List.nil_append (events.filterMap Event.opened?), ← holds]
  | @undone why made closed followed closes =>
    rw [bind_apply, hassemble] at hserve
    cases hserve
    exact ⟨port, openings, made, closed, hlength, htrace, followed.allowed hsetsUp,
      .inr ⟨why, rfl, followed, closes⟩⟩

end Serving

namespace Crowded

/-- Three reactors are asked for, on a port of the kernel's choice. Before the second socket is
bound to it, somebody else has taken it. -/
def world : World Script :=
  { level := .off
    kernel := { mishaps := [{ operation := "bind", errno := 98, skip := 1 }] } }

def settings : Settings :=
  { port := 0, workers := 3 }

@[irreducible] def served : Outcome (Option Tally) × World Script :=
  Serving.serve 0 [.main, .shard 0] settings world

theorem nothing_of_served :
    settings.failure? = none ∧ 1 < settings.workers ∧ served.1 = .failed (.system "bind" 98) ∧
      ∃ port openings made rest, served.2.trace = made ++ rest ∧
        Serving.NoneOpen settings port openings made rest (.system "bind" 98) := by
  have hserve : Serving.serve 0 [.main, .shard 0] settings world = (served.1, served.2) := by
    rw [served]
  have hfailed : served.1 = .failed (.system "bind" 98) := by decide +kernel
  obtain ⟨port, openings, made, rest, -, htrace, -, h⟩ :=
    Serving.allOrNothing_of_serve (s := settings) rfl (by decide) hserve
  rw [show world.trace = [] from rfl, List.nil_append] at htrace
  rcases h with hall | ⟨why, hwhy, hnone⟩
  · -- Only two sockets get as far as to be bound.
    have hbound : served.2.trace.filterMap (·.call.boundTo?) = [0, 40000] := by decide +kernel
    rw [htrace, List.filterMap_append, hall.bound] at hbound
    cases hbound
  · obtain rfl : .system "bind" 98 = why := by
      rw [hfailed] at hwhy
      exact Outcome.failed.inj hwhy
    exact ⟨rfl, by decide, hfailed, port, openings, made, rest, htrace, hnone⟩

end Crowded

end SpanEcho

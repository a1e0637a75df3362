import SpanEcho.Kernel.World
import SpanEcho.Proofs.Span

/-!
# What a trace says

A past is a list of events with the latest first, as a world keeps it. From a past one can tell
which descriptors are open, and which bytes passed over a descriptor since it was last handed out.

Of a kernel only two things are asked, both of what it replied: it hands out no descriptor that is
open, and it receives and sends no more than it was asked to. Such a past is `Lawful`. What is
proved of servers in turn is that their pasts are `Orderly`: no call names a descriptor that is not
open.
-/

namespace SpanEcho

/-- Every descriptor that a call names. -/
def Call.names : Call → List Descriptor
  | .socket | .setDisposition _ _ _ | .spawn _ | .clock => []
  | .descriptorFlags fd | .setDescriptorFlags fd _ | .statusFlags fd | .setStatusFlags fd _ => [fd]
  | .setOption fd _ _ | .bind fd _ | .listen fd _ | .localName fd | .accept fd => [fd]
  | .receive fd _ | .send fd _ _ | .close fd => [fd]
  | .poll entries _ | .watch entries _ _ => entries.map (·.fd)
  | .select _ reads writes _ => reads ++ writes

/-- The descriptor over which a call moves bytes. -/
def Call.carrier? : Call → Option Descriptor
  | .receive fd _ => some fd
  | .send fd _ _ => some fd
  | _ => none

/-- Calls that open and close nothing and move no bytes, whatever the reply. -/
def Call.Quiet : Call → Prop
  | .socket | .accept _ | .receive _ _ | .send _ _ _ | .close _ => False
  | _ => True

namespace Event

/-- The descriptor that a call handed out. -/
def opened? : Event → Option Descriptor
  | ⟨_, .socket, .ok number, _⟩ => some number
  | ⟨_, .accept _, .ok (number, _), _⟩ => some number
  | _ => none

/-- The descriptor that a call closed. It is closed whatever the kernel replied. -/
def closed? (e : Event) : Option Descriptor :=
  match e.call with
  | .close fd => some fd
  | _ => none

/-- The bytes that came in over a descriptor. -/
def received (fd : Descriptor) : Event → Bytes
  | ⟨_, .receive source _, .ok bytes, _⟩ => if source = fd then bytes else []
  | _ => []

/-- The bytes that went out over a descriptor. -/
def delivered (fd : Descriptor) : Event → Bytes
  | ⟨_, .send target bytes _, .ok count, _⟩ => if target = fd then bytes.take count else []
  | _ => []

/-- How many bytes came in by a receive. -/
def inward : Event → Nat
  | ⟨_, .receive _ _, .ok bytes, _⟩ => bytes.length
  | _ => 0

/-- How many bytes went out by a send. -/
def outward : Event → Nat
  | ⟨_, .send _ _ _, .ok count, _⟩ => count
  | _ => 0

/-- Whether a call asked for bytes from a descriptor, whatever came of it. -/
def asks (fd : Descriptor) (e : Event) : Bool :=
  match e.call with
  | .receive source _ => source = fd
  | _ => false

/-- Whether a receive found that the stream of a descriptor has ended. -/
def ends (fd : Descriptor) : Event → Bool
  | ⟨_, .receive source _, .ok bytes, _⟩ => source = fd && bytes.isEmpty
  | _ => false

/-- The kernel received and sent no more than it was asked to. -/
def Honest : Event → Prop
  | ⟨_, .receive _ room, .ok bytes, _⟩ => bytes.length ≤ room
  | ⟨_, .send _ bytes _, .ok count, _⟩ => count ≤ bytes.length
  | _ => True

instance (e : Event) : Decidable e.Honest := by
  unfold Honest
  split <;> infer_instance

end Event

/-- The descriptors that are open, the latest first. -/
def openAfter : List Event → List Descriptor
  | [] => []
  | e :: past => e.opened?.toList ++ (openAfter past).filter fun fd => e.closed? ≠ some fd

/-- The kernel handed out no descriptor that was open, and kept within what it was asked for. -/
def Lawful : List Event → Prop
  | [] => True
  | e :: past => (∀ fd ∈ e.opened?, fd ∉ openAfter past) ∧ e.Honest ∧ Lawful past

/-- The kernel handed out no descriptor that was open, whatever else it did. -/
def Fresh : List Event → Prop
  | [] => True
  | e :: past => (∀ fd ∈ e.opened?, fd ∉ openAfter past) ∧ Fresh past

/-- The kernel kept within what it was asked for, whatever descriptors it handed out. -/
def Modest (past : List Event) : Prop :=
  ∀ e ∈ past, e.Honest

/-- Every call named only descriptors that were open. -/
def Orderly : List Event → Prop
  | [] => True
  | e :: past => (∀ fd ∈ e.call.names, fd ∈ openAfter past) ∧ Orderly past

/-- `Lawful` as a computation. -/
def Lawful.check : List Event → Bool
  | [] => true
  | e :: past =>
    e.opened?.all (fun fd => !(openAfter past).contains fd) && decide e.Honest && check past

theorem Lawful.check_iff : {past : List Event} → (Lawful.check past ↔ Lawful past)
  | [] => by simp [check, Lawful]
  | e :: past => by
    have hrest : check past ↔ Lawful past := check_iff
    rw [check, Lawful, ← hrest]
    cases e.opened? <;> simp [and_assoc]

instance (past : List Event) : Decidable (Lawful past) :=
  decidable_of_iff _ Lawful.check_iff

/-- What passed over a descriptor since it was handed out. -/
structure Traffic where
  received : Bytes := []
  delivered : Bytes := []
  /-- Bytes were asked for. -/
  asked : Bool := false
  /-- The stream of received bytes has ended. -/
  ended : Bool := false
deriving DecidableEq, Repr, Inhabited

def trafficOn (fd : Descriptor) : List Event → Traffic
  | [] => {}
  | e :: past =>
    if e.opened? = some fd then {}
    else
      let t := trafficOn fd past
      { received := t.received ++ e.received fd
        delivered := t.delivered ++ e.delivered fd
        asked := t.asked || e.asks fd
        ended := t.ended || e.ends fd }

/-- What was sent begins the stream owed for what was received, and is all of it when the peer has
nothing more to say. Nothing is asked for before the greeting is out. -/
structure Traffic.Truthful (t : Traffic) : Prop where
  delivered : t.delivered <+: Span.greeting :: Span.echo t.received
  asked : t.asked → t.delivered ≠ []
  ended : t.ended → t.delivered = Span.greeting :: Span.echo t.received

theorem Traffic.truthful_empty : ({} : Traffic).Truthful :=
  ⟨List.nil_prefix, fun h => Bool.noConfusion h, fun h => Bool.noConfusion h⟩

variable {past earlier later : List Event} {e : Event} {fd : Descriptor}

theorem Lawful.of_suffix (h : Lawful later) (hs : past <:+ later) : Lawful past := by
  obtain ⟨es, rfl⟩ := hs
  induction es with
  | nil => exact h
  | cons e es ih => exact ih h.2.2

theorem Lawful.fresh (h : Lawful past) : Fresh past := by
  induction past with
  | nil => trivial
  | cons e past ih => exact ⟨h.1, ih h.2.2⟩

theorem Lawful.modest (h : Lawful past) : Modest past := by
  induction past with
  | nil => exact List.forall_mem_nil _
  | cons e past ih => exact List.forall_mem_cons.mpr ⟨h.2.1, ih h.2.2⟩

theorem Modest.of_suffix (h : Modest later) (hs : past <:+ later) : Modest past :=
  fun e he => h e (hs.subset he)

theorem Fresh.of_suffix (h : Fresh later) (hs : past <:+ later) : Fresh past := by
  obtain ⟨es, rfl⟩ := hs
  induction es with
  | nil => exact h
  | cons e es ih => exact ih h.2

theorem Orderly.of_suffix (h : Orderly later) (hs : past <:+ later) : Orderly past := by
  obtain ⟨es, rfl⟩ := hs
  induction es with
  | nil => exact h
  | cons e es ih => exact ih h.2

/-- A call is never handed the descriptor that it names. -/
theorem Orderly.not_named_of_opened (h : Orderly (e :: past)) (hlaw : Lawful (e :: past))
    (ho : e.opened? = some fd) : fd ∉ e.call.names :=
  fun hnamed => hlaw.1 fd ho (h.1 fd hnamed)

/-! ## Open descriptors -/

theorem mem_openAfter_cons :
    fd ∈ openAfter (e :: past) ↔
      e.opened? = some fd ∨ fd ∈ openAfter past ∧ e.closed? ≠ some fd := by
  simp [openAfter]

theorem openAfter_of_idle (ho : e.opened? = none) (hc : e.closed? = none) :
    openAfter (e :: past) = openAfter past := by
  rw [openAfter, ho, hc]
  exact List.filter_eq_self.mpr fun _ _ => rfl

/-- A descriptor is handed out by a call that moves no bytes and is not quiet. -/
theorem Event.not_quiet_of_opened? (h : e.opened? = some fd) :
    ¬ e.call.Quiet ∧ e.call.carrier? = none := by
  obtain ⟨thread, call, reply, arrivals⟩ := e
  cases call <;>
    first
    | exact ⟨fun hq => hq, rfl⟩
    | simp [Event.opened?] at h

theorem Event.opened?_of_quiet (h : e.call.Quiet) : e.opened? = none :=
  Option.eq_none_iff_forall_not_mem.mpr fun _ ho => (not_quiet_of_opened? ho).1 h

theorem Call.carrier?_of_quiet {c : Call} (h : c.Quiet) : c.carrier? = none := by
  cases c <;> first | rfl | exact h.elim

theorem Event.closed?_of_carrier (h : e.call.carrier? = some fd) : e.closed? = none := by
  obtain ⟨thread, call, reply, arrivals⟩ := e
  cases call <;> first | rfl | simp [Call.carrier?] at h

/-- Moving bytes opens and closes nothing. -/
theorem openAfter_of_carrier (h : e.call.carrier? = some fd) :
    openAfter (e :: past) = openAfter past := by
  have ho : e.opened? = none := Option.eq_none_iff_forall_not_mem.mpr fun _ ho => by
    rw [(Event.not_quiet_of_opened? ho).2] at h
    cases h
  exact openAfter_of_idle ho (Event.closed?_of_carrier h)

/-- A quiet call opens and closes nothing. -/
theorem openAfter_of_quiet (h : e.call.Quiet) : openAfter (e :: past) = openAfter past := by
  obtain ⟨thread, call, reply, arrivals⟩ := e
  cases call <;>
    first
    | exact openAfter_of_idle rfl rfl
    | exact h.elim

/-- An event either hands out a descriptor or closes one. -/
theorem Event.closed?_of_opened? (h : e.opened? = some fd) : e.closed? = none := by
  obtain ⟨thread, call, reply, arrivals⟩ := e
  cases call <;> first | rfl | simp [Event.opened?] at h

theorem Event.mem_names_of_closed? (h : e.closed? = some fd) : fd ∈ e.call.names := by
  obtain ⟨thread, call, reply, arrivals⟩ := e
  cases call <;> simp [Event.closed?] at h
  simp [Call.names, h]

theorem openAfter_of_opened (h : e.opened? = some fd) :
    openAfter (e :: past) = fd :: openAfter past := by
  rw [openAfter, h, Event.closed?_of_opened? h]
  exact congrArg (fd :: ·) (List.filter_eq_self.mpr fun _ _ => rfl)

theorem openAfter_of_closed (ho : e.opened? = none) (hc : e.closed? = some fd) :
    openAfter (e :: past) = (openAfter past).filter (· ≠ fd) := by
  rw [openAfter, ho, hc]
  exact List.filter_congr fun x _ => by simp [eq_comm]

theorem nodup_openAfter (h : Lawful past) : (openAfter past).Nodup := by
  induction past with
  | nil => simp [openAfter]
  | cons e past ih =>
    obtain ⟨hfresh, -, hlaw⟩ := h
    have hrest : ((openAfter past).filter fun fd => e.closed? ≠ some fd).Nodup :=
      List.Pairwise.filter _ (ih hlaw)
    cases ho : e.opened? with
    | none =>
      simp only [openAfter, ho, Option.toList_none, List.nil_append]
      exact hrest
    | some fd =>
      have hfd : fd ∉ openAfter past := hfresh fd ho
      simp only [openAfter, ho, Option.toList_some, List.singleton_append, List.nodup_cons]
      exact ⟨fun hm => hfd (List.mem_filter.mp hm).1, hrest⟩

/-- A descriptor that was handed out is open until it is closed, and it is closed at most once
before it is handed out again. -/
theorem countP_closed (he : e.opened? = some fd) (hlater : ∀ x ∈ later, x.opened? ≠ some fd)
    (ho : Orderly (later ++ e :: earlier)) :
    later.countP (fun x => x.closed? = some fd) =
      if fd ∈ openAfter (later ++ e :: earlier) then 0 else 1 := by
  induction later with
  | nil => simp [mem_openAfter_cons, he]
  | cons x later ih =>
    have hx : x.opened? ≠ some fd := hlater x List.mem_cons_self
    have hcount := ih (fun y hy => hlater y (List.mem_cons_of_mem x hy)) ho.2
    rw [List.cons_append, List.countP_cons, hcount]
    by_cases hc : x.closed? = some fd
    · have hopen : fd ∈ openAfter (later ++ e :: earlier) :=
        ho.1 fd (Event.mem_names_of_closed? hc)
      simp [mem_openAfter_cons, hx, hc, hopen]
    · simp [mem_openAfter_cons, hx, hc]

/-- What happened after a descriptor was handed out, up to where it is handed out again. -/
def lifetime (fd : Descriptor) (after : List Event) : List Event :=
  after.takeWhile fun e => e.opened? ≠ some fd

theorem opened?_of_mem_lifetime {after : List Event} (h : e ∈ lifetime fd after) :
    e.opened? ≠ some fd := by
  have hall : (lifetime fd after).all fun e => e.opened? ≠ some fd := List.all_takeWhile
  simpa using List.all_eq_true.mp hall e h

/-- A lifetime lasts to the end, or to where the descriptor is handed out again. -/
theorem lifetime_cases (fd : Descriptor) (after : List Event) :
    lifetime fd after = after ∨
      ∃ again rest, after = lifetime fd after ++ again :: rest ∧ again.opened? = some fd := by
  have hsplit : lifetime fd after ++ after.dropWhile (fun e => e.opened? ≠ some fd) = after :=
    List.takeWhile_append_dropWhile
  have hagain := List.head?_dropWhile_not (fun e : Event => e.opened? ≠ some fd) after
  cases hrest : after.dropWhile fun e => e.opened? ≠ some fd with
  | nil => exact .inl (by rwa [hrest, List.append_nil] at hsplit)
  | cons again rest =>
    rw [hrest] at hsplit hagain
    exact .inr ⟨again, rest, hsplit.symm, by simpa using hagain⟩

variable {before after : List Event}

/-- The past as it was at the end of a lifetime. -/
theorem lifetime_suffix (fd : Descriptor) (before : List Event) (e : Event) (after : List Event) :
    (lifetime fd after).reverse ++ e :: before.reverse <:+ (before ++ e :: after).reverse := by
  obtain ⟨rest, hrest⟩ : lifetime fd after <+: after := List.takeWhile_prefix _
  refine ⟨rest.reverse, ?_⟩
  calc rest.reverse ++ ((lifetime fd after).reverse ++ e :: before.reverse)
      = (before ++ e :: (lifetime fd after ++ rest)).reverse := by simp
    _ = (before ++ e :: after).reverse := by rw [hrest]

/-- A descriptor is closed once before it is handed out again, or it is open to the end. -/
theorem closed_or_open (he : e.opened? = some fd) (hlaw : Lawful (before ++ e :: after).reverse)
    (ho : Orderly (before ++ e :: after).reverse) :
    (lifetime fd after).countP (fun x => x.closed? = some fd) = 1 ∨
      (∀ x ∈ lifetime fd after, x.closed? ≠ some fd) ∧ lifetime fd after = after ∧
        fd ∈ openAfter (before ++ e :: after).reverse := by
  have hsuffix := lifetime_suffix fd before e after
  have hlater : ∀ x ∈ (lifetime fd after).reverse, x.opened? ≠ some fd := fun x hx =>
    opened?_of_mem_lifetime (List.mem_reverse.mp hx)
  have hcount := countP_closed he hlater (ho.of_suffix hsuffix)
  rw [List.countP_reverse] at hcount
  by_cases hopen : fd ∈ openAfter ((lifetime fd after).reverse ++ e :: before.reverse)
  · rw [if_pos hopen, List.countP_eq_zero] at hcount
    refine .inr ⟨fun x hx => by simpa using hcount x hx, ?_⟩
    rcases lifetime_cases fd after with hend | ⟨again, rest, hafter, hagain⟩
    · rw [hend] at hopen
      exact ⟨hend, by simpa using hopen⟩
    · -- Handed out again while open: the kernel would not be lawful.
      have hpast : (before ++ e :: after).reverse =
          rest.reverse ++ again :: ((lifetime fd after).reverse ++ e :: before.reverse) := by
        conv => lhs; rw [hafter]
        simp
      rw [hpast] at hlaw
      exact absurd hopen ((hlaw.of_suffix (List.suffix_append _ _)).1 fd hagain)
  · rw [if_neg hopen] at hcount
    exact .inl hcount

/-! ## What is added to a past -/

/-- The later past is the earlier one with events of `allowed` calls before it. -/
def Added (allowed : Call → Prop) (earlier later : List Event) : Prop :=
  ∃ moved, later = moved ++ earlier ∧ ∀ e ∈ moved, allowed e.call

namespace Added

variable {allowed allowed' : Call → Prop} {latest : List Event}

theorem refl (past : List Event) : Added allowed past past :=
  ⟨[], rfl, List.forall_mem_nil _⟩

theorem single (h : allowed e.call) : Added allowed past (e :: past) :=
  ⟨[e], rfl, by simpa using h⟩

theorem trans (h : Added allowed earlier later) (h' : Added allowed later latest) :
    Added allowed earlier latest := by
  obtain ⟨moved, rfl, hmoved⟩ := h
  obtain ⟨moved', rfl, hmoved'⟩ := h'
  refine ⟨moved' ++ moved, (List.append_assoc _ _ _).symm, fun e he => ?_⟩
  rcases List.mem_append.mp he with he | he
  · exact hmoved' e he
  · exact hmoved e he

theorem mono (h : Added allowed earlier later) (hsub : ∀ c, allowed c → allowed' c) :
    Added allowed' earlier later := by
  obtain ⟨moved, hlater, hmoved⟩ := h
  exact ⟨moved, hlater, fun e he => hsub _ (hmoved e he)⟩

theorem suffix (h : Added allowed earlier later) : earlier <:+ later := by
  obtain ⟨moved, rfl, -⟩ := h
  exact List.suffix_append moved earlier

theorem openAfter_eq (h : Added allowed earlier later)
    (hkeeps : ∀ e past, allowed e.call → openAfter (e :: past) = openAfter past) :
    openAfter later = openAfter earlier := by
  obtain ⟨moved, rfl, hmoved⟩ := h
  induction moved with
  | nil => rfl
  | cons e moved ih =>
    rw [List.cons_append, hkeeps e _ (hmoved e List.mem_cons_self)]
    exact ih fun x hx => hmoved x (List.mem_cons_of_mem e hx)

end Added

/-! ## Traffic -/

/-- The event is not about `fd`: it does not hand it out, and moves no bytes over it. -/
structure Event.Still (fd : Descriptor) (e : Event) : Prop where
  opened : e.opened? ≠ some fd
  received : e.received fd = []
  delivered : e.delivered fd = []
  asks : e.asks fd = false
  ends : e.ends fd = false

theorem trafficOn_of_still (h : e.Still fd) : trafficOn fd (e :: past) = trafficOn fd past := by
  simp [trafficOn, h.opened, h.received, h.delivered, h.asks, h.ends]

theorem trafficOn_of_opened (h : e.opened? = some fd) : trafficOn fd (e :: past) = {} := by
  simp [trafficOn, h]

theorem Event.length_received (hc : e.call.carrier? = some fd) :
    (e.received fd).length = e.inward := by
  obtain ⟨thread, call, reply, arrivals⟩ := e
  cases call with
  | receive source room =>
    obtain rfl : source = fd := Option.some.inj hc
    cases reply <;> simp [Event.received, Event.inward]
  | send target bytes flags => rfl
  | _ => cases hc

theorem Event.length_delivered (hc : e.call.carrier? = some fd) (hh : e.Honest) :
    (e.delivered fd).length = e.outward := by
  obtain ⟨thread, call, reply, arrivals⟩ := e
  cases call with
  | receive source room => rfl
  | send target bytes flags =>
    obtain rfl : target = fd := Option.some.inj hc
    cases reply with
    | ok count =>
      have hle : count ≤ bytes.length := hh
      simp [Event.delivered, Event.outward, hle]
    | failed errno => rfl
    | notOpen => rfl
  | _ => cases hc

theorem trafficOn_later (he : e.opened? = some fd) (hlater : ∀ x ∈ later, x.opened? ≠ some fd) :
    trafficOn fd (later ++ e :: earlier) =
      { received := later.reverse.flatMap (·.received fd)
        delivered := later.reverse.flatMap (·.delivered fd)
        asked := later.reverse.any (·.asks fd)
        ended := later.reverse.any (·.ends fd) } := by
  induction later with
  | nil => simp [trafficOn_of_opened he]
  | cons x later ih =>
    have hx : x.opened? ≠ some fd := hlater x List.mem_cons_self
    rw [List.cons_append, trafficOn, if_neg hx, ih fun y hy => hlater y (List.mem_cons_of_mem x hy)]
    simp

/-- The traffic of a descriptor at the end of its lifetime. -/
theorem trafficOn_lifetime (he : e.opened? = some fd) :
    trafficOn fd ((lifetime fd after).reverse ++ e :: before.reverse) =
      { received := (lifetime fd after).flatMap (·.received fd)
        delivered := (lifetime fd after).flatMap (·.delivered fd)
        asked := (lifetime fd after).any (·.asks fd)
        ended := (lifetime fd after).any (·.ends fd) } := by
  have hlater : ∀ x ∈ (lifetime fd after).reverse, x.opened? ≠ some fd := fun x hx =>
    opened?_of_mem_lifetime (List.mem_reverse.mp hx)
  rw [trafficOn_later he hlater, List.reverse_reverse]

end SpanEcho

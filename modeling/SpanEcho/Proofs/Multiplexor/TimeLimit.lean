import Mathlib
import SpanEcho.Proofs.Multiplexor
import SpanEcho.Script.Kernel

/-!
# How long a wait may take

A length of time reaches the kernel in the units of the call: whole milliseconds for `poll`, seconds
and microseconds for `select`. A wait without a limit stays one, and no limit becomes none. What the
kernel is given is no longer than what was meant, except that `poll` cannot wait for less than a
millisecond.

For `poll` nothing but zero becomes zero, and what does not fit a word becomes the most that fits.
For `select` it is otherwise: less than a microsecond becomes zero, so that the wait is a mere look,
and 2^63 seconds or more become a negative number.
-/

namespace SpanEcho

/-! ## Limits of calls -/

/-- How long a call waits at most, in nanoseconds, if it is a wait with a limit. -/
def Call.limit? : Call → Option Int
  | .poll _ millis => if millis < 0 then none else some (millis * 1000000)
  | .select _ _ _ limit => limit.map fun l => l.seconds * 1000000000 + l.micros * 1000
  | .watch _ _ limit => limit.map fun d => (d : Int)
  | _ => none

/-- The call waits no longer than `limit`, unless that is less than the millisecond which is the
least that `poll` can wait. -/
def Call.WaitsWithin (limit : Duration) (c : Call) : Prop :=
  ∃ longest : Nat, c.limit? = some (longest : Int) ∧
    (longest ≤ limit ∨
      longest = Duration.ofMillis 1 ∧ 0 < limit ∧ limit < longest ∧ ∃ entries, c = .poll entries 1)

/-! ## Milliseconds -/

namespace Polled

theorem millis_of_pos {d : Duration} (h : 0 < d) :
    Polled.millis (some d) = ((max 1 (min d.millis 0x7fffffff) : Nat) : Int) := by
  cases d with
  | zero => exact absurd h (Nat.lt_irrefl 0)
  | succ d => rfl

theorem waitsWithin_millis (entries : List Registration) (limit : Duration) :
    (Call.poll entries (Polled.millis (some limit))).WaitsWithin limit := by
  rcases Nat.eq_zero_or_pos limit with rfl | hpos
  · exact ⟨0, rfl, .inl (Nat.le_refl 0)⟩
  · rw [millis_of_pos hpos]
    generalize hm : max 1 (min limit.millis 0x7fffffff) = millis
    have hlimit : (Call.poll entries (millis : Int)).limit? =
        some ((millis * 1000000 : Nat) : Int) := by
      rw [Call.limit?, if_neg (by omega), Int.natCast_mul]
      rfl
    refine ⟨millis * 1000000, hlimit, ?_⟩
    by_cases hless : limit.millis = 0
    · obtain rfl : millis = 1 := by omega
      have hlt : limit < 1000000 := Nat.lt_of_div_eq_zero (by decide) hless
      exact .inr ⟨rfl, hpos, hlt, entries, rfl⟩
    · have hle : millis ≤ limit.millis := by omega
      exact .inl (Nat.le_trans (Nat.mul_le_mul_right _ hle) (Nat.div_mul_le_self limit 1000000))

/-- The milliseconds that stand for a length of time: a signed word of 32 bits, not negative, and
zero for zero only. They are the length cut down to whole milliseconds, but one for less than one,
and the largest word for all that is longer. -/
structure StandsFor (millis : Int) (nanos : Nat) : Prop where
  nonneg : 0 ≤ millis
  lt : millis < 2 ^ 31
  eq_zero_iff : millis = 0 ↔ nanos = 0
  le : millis * 1000000 ≤ nanos ∨ millis = 1 ∧ 0 < nanos ∧ nanos < 1000000
  close : nanos < (millis + 1) * 1000000 ∨ millis = 2 ^ 31 - 1

theorem standsFor_millis (nanos : Nat) : StandsFor (Polled.millis (some nanos)) nanos := by
  rcases Nat.eq_zero_or_pos nanos with rfl | hpos
  · exact ⟨Int.le_refl 0, by decide, by decide, .inl (by decide), .inl (by decide)⟩
  · rw [millis_of_pos hpos, Duration.millis]
    constructor <;> omega

end Polled

/-! ## Seconds and microseconds -/

namespace TimeLimit

/-- The seconds of a limit fit a word if they are less than 2^63. -/
theorem ofDuration_of_lt {limit : Duration} (h : limit.seconds < 2 ^ 63) :
    TimeLimit.ofDuration limit = { seconds := limit.seconds, micros := limit.subNanos / 1000 } := by
  have hwrapped : (limit.seconds : Int).bmod 0x10000000000000000 = limit.seconds := by
    apply Int.bmod_eq_of_le
    · omega
    · omega
  exact congrArg (fun seconds => (⟨seconds, limit.subNanos / 1000⟩ : TimeLimit)) hwrapped

/-- Of 2^63 seconds or more there remains what is missing to 2^64, as a negative number. -/
theorem ofDuration_of_le {limit : Duration} (h : 2 ^ 63 ≤ limit.seconds)
    (hword : limit.seconds < 2 ^ 64) :
    TimeLimit.ofDuration limit =
      { seconds := limit.seconds - 2 ^ 64, micros := limit.subNanos / 1000 } := by
  have hwrapped : (limit.seconds : Int).bmod 0x10000000000000000 = limit.seconds - 2 ^ 64 := by
    rw [← Int.sub_bmod_right]
    apply Int.bmod_eq_of_le
    · omega
    · omega
  exact congrArg (fun seconds => (⟨seconds, limit.subNanos / 1000⟩ : TimeLimit)) hwrapped

theorem waitsWithin_ofDuration (bound : Int) (reads writes : List Descriptor)
    {limit : Duration} (h : limit.seconds < 2 ^ 63) :
    (Call.select bound reads writes (some (TimeLimit.ofDuration limit))).WaitsWithin limit := by
  have hle : limit.seconds * 1000000000 + limit.subNanos / 1000 * 1000 ≤ limit := by
    have hnanos := Nat.div_mul_le_self limit.subNanos 1000
    have hsplit : limit.seconds * 1000000000 + limit.subNanos = limit :=
      Nat.div_add_mod' limit 1000000000
    exact Nat.le_trans (Nat.add_le_add_left hnanos _) (Nat.le_of_eq hsplit)
  rw [TimeLimit.ofDuration_of_lt h]
  refine ⟨_, ?_, .inl hle⟩
  rw [Call.limit?, Option.map_some, Int.natCast_add, Int.natCast_mul, Int.natCast_mul]
  rfl

/-- The seconds and microseconds that stand for a length of time: the length cut down to whole
microseconds, so that all that is less than one becomes zero. The seconds are negative from 2^63
on. -/
structure StandsFor (l : TimeLimit) (nanos : Nat) : Prop where
  micros_lt : l.micros < 1000000
  nonneg_iff : 0 ≤ l.seconds ↔ Duration.seconds nanos < 2 ^ 63
  eq_zero_iff : l.seconds = 0 ∧ l.micros = 0 ↔ nanos < 1000
  le : l.seconds * 1000000000 + l.micros * 1000 ≤ nanos
  close : 0 ≤ l.seconds → nanos < l.seconds * 1000000000 + (l.micros + 1) * 1000

theorem standsFor_ofDuration {nanos : Nat} (h : Duration.seconds nanos < 2 ^ 64) :
    StandsFor (.ofDuration nanos) nanos := by
  rcases Nat.lt_or_ge (Duration.seconds nanos) (2 ^ 63) with hlt | hge
  · rw [ofDuration_of_lt hlt]
    rw [Duration.seconds] at *
    constructor <;> simp only [Duration.seconds, Duration.subNanos] <;> omega
  · rw [ofDuration_of_le hge h]
    rw [Duration.seconds] at *
    constructor <;> simp only [Duration.seconds, Duration.subNanos] <;> omega

end TimeLimit

/-! ## Limits of waits -/

namespace Multiplexor

variable {κ : Type} [Kernel κ] {entries : List Registration}

omit [Kernel κ] in
theorem world_of_reply (operation : String) (returned : Int) (errno : Errno)
    (listed : List Readiness) (w : World κ) :
    ((if returned < 0 then interruptedOr operation errno else pure listed :
      Sys κ (List Readiness)) w).2 = w := by
  rcases reply_cases operation returned errno listed w with ⟨ready, hended⟩ | ⟨-, -, hended⟩
  · exact congrArg Prod.snd hended
  · exact congrArg Prod.snd hended

theorem poll_past (entries : List Registration) (highest : Descriptor) (limit : Option Duration)
    (w : World κ) :
    (poll.wait entries highest limit w).2.past =
      w.event (.poll entries (Polled.millis limit)) :: w.past := by
  rw [← World.call_past]
  exact congrArg World.past (world_of_reply _ _ _ _ _)

theorem select_past (h : ∀ e ∈ entries, select.refusal? e.fd = none) (highest : Descriptor)
    (limit : Option Duration) (w : World κ) :
    (select.wait entries highest limit w).2.past =
      w.event (.select (highest + 1) (watched (·.readable) entries) (watched (·.writable) entries)
        (limit.map .ofDuration)) :: w.past := by
  have hnone : (entries.findSome? fun e => select.refusal? e.fd) = none :=
    List.findSome?_eq_none_iff.mpr h
  rw [← World.call_past]
  simp only [wait, hnone]
  exact congrArg World.past (world_of_reply _ _ _ _ _)

/-- **What the kernel is told of the limit of a wait.** For entries that a set can hold, and for
every limit whose seconds fit an unsigned word of 64 bits, a wait is one call. Without a limit
`poll` gets -1 and `select` gets none. A limit reaches `poll` as a number of milliseconds from 0 to
2^31 - 1, which is zero for zero only, never more than the limit unless it is the one millisecond
for less than one, and less than a millisecond short of it or the largest. `select` gets
microseconds below 10^6, never more than the limit and less than a microsecond short of it as long
as its seconds are below 2^63; they are negative if they are not. All that is less than a
microsecond is zero for `select`. -/
theorem limit_of_wait (hentries : ∀ e ∈ entries, select.refusal? e.fd = none) (highest : Descriptor)
    {limit : Option Duration} (hlimit : ∀ d ∈ limit, d.seconds < 2 ^ 64) (w : World κ) :
    ∃ millis timeLimit,
      (poll.wait entries highest limit w).2.past = w.event (.poll entries millis) :: w.past ∧
      (select.wait entries highest limit w).2.past =
        w.event (.select (highest + 1) (watched (·.readable) entries) (watched (·.writable) entries)
          timeLimit) :: w.past ∧
      (limit = none → millis = -1 ∧ timeLimit = none) ∧
      ∀ d ∈ limit,
        Polled.StandsFor millis d ∧ ∃ l, timeLimit = some l ∧ TimeLimit.StandsFor l d := by
  refine ⟨_, _, poll_past entries highest limit w, select_past hentries highest limit w, ?_, ?_⟩
  · rintro rfl
    exact ⟨rfl, rfl⟩
  · rintro d hd
    obtain rfl : limit = some d := hd
    exact ⟨Polled.standsFor_millis d, _, rfl, TimeLimit.standsFor_ofDuration (hlimit d rfl)⟩

namespace Extremes

def asked : List Registration :=
  [⟨3, .read⟩]

def world : World Script :=
  { kernel := {} }

/-- One microsecond, and almost another. -/
theorem limit_of_microsecond :
    (∀ e ∈ asked, select.refusal? e.fd = none) ∧ (∀ d ∈ some 1999, Duration.seconds d < 2 ^ 64) ∧
      ∃ millis l,
        (poll.wait asked 3 (some 1999) world).2.past = [world.event (.poll asked millis)] ∧
        (select.wait asked 3 (some 1999) world).2.past =
          [world.event (.select 4 [3] [] (some l))] ∧
        Polled.StandsFor millis 1999 ∧ TimeLimit.StandsFor l 1999 := by
  have hasked : ∀ e ∈ asked, select.refusal? e.fd = none := by decide
  have hlimit : ∀ d ∈ some 1999, Duration.seconds d < 2 ^ 64 := by decide
  obtain ⟨millis, _, hpoll, hselect, -, hstands⟩ := limit_of_wait hasked 3 hlimit world
  obtain ⟨hmillis, l, rfl, hl⟩ := hstands 1999 rfl
  exact ⟨hasked, hlimit, millis, l, hpoll, hselect, hmillis, hl⟩

/-- What is less than a microsecond, but not zero, makes `select` a mere look, as zero does; and
2^63 seconds become a negative number. -/
theorem call_of_extremes :
    (select.wait asked 3 (some 500) world).2.past.map (·.call) = [.select 4 [3] [] (some ⟨0, 0⟩)] ∧
      (select.wait asked 3 (some 0) world).2.past.map (·.call) = [.select 4 [3] [] (some ⟨0, 0⟩)] ∧
      (select.wait asked 3 (some (.ofSeconds (2 ^ 63))) world).2.past.map (·.call) =
        [.select 4 [3] [] (some ⟨-2 ^ 63, 0⟩)] := by
  decide +kernel

end Extremes

end Multiplexor

end SpanEcho

import SpanEcho.Proofs.Text
import SpanEcho.Settings.FromEnvironment

/-!
# What the environment says of the settings

Each setting is read off a variable of its own and off no other. The variable says something if its
text, white space around it apart, is written by the grammar of the setting: a numeral within the
range of the setting's type, or the name of a method in any letter case. In every other case the
setting keeps its default. So settings that are written into their variables are read back as they
were, whatever white space they are written with.
-/

namespace SpanEcho

open Text (Pads)

/-! ## Names of methods -/

namespace WaitMethod

def word : WaitMethod → String
  | select => "select"
  | poll => "poll"

/-- The name of a method in any letter case. -/
def Named (cs : List Char) (m : WaitMethod) : Prop :=
  Text.Cased m.word cs

theorem toLower_of_mem_word {m : WaitMethod} :
    ∀ letter ∈ m.word.toList, letter.toLower = letter := by
  cases m <;> simp [word]

theorem not_isBlank_of_mem_word {m : WaitMethod} :
    ∀ letter ∈ m.word.toList, ¬ Text.isBlank letter := by
  cases m <;> simp [word, Text.isBlank]

theorem named_iff {cs : List Char} {m : WaitMethod} :
    Named cs m ↔ Text.lowerChars cs = m.word.toList :=
  (Text.lowerChars_eq_iff toLower_of_mem_word).symm

theorem Named.not_isBlank {cs : List Char} {m : WaitMethod} (h : Named cs m) :
    ∀ c ∈ cs, ¬ Text.isBlank c := by
  intro c hc hblank
  have hword : c.toLower ∈ m.word.toList := named_iff.mp h ▸ List.mem_map_of_mem hc
  rw [Text.toLower_of_isBlank hblank] at hword
  exact not_isBlank_of_mem_word c hword hblank

theorem parse?_eq_some_iff {s : String} {m : WaitMethod} :
    parse? s = some m ↔ Named (Text.trimChars s.toList) m := by
  have hlower : parse? s = some m ↔ Text.lower (Text.trim s) = m.word := by
    unfold parse?
    split <;> cases m <;> simp_all [word]
  rw [hlower, named_iff, ← String.toList_inj, Text.lower, Text.trim, String.toList_ofList,
    String.toList_ofList]

end WaitMethod

/-! ## Variables -/

namespace Environment

variable {α : Type} {parse? : String → Option α} {grammar : List Char → α → Prop}

/-- What is found in the trimmed texts is what the grammar writes, white space around it apart. -/
def Recognizes (parse? : String → Option α) (grammar : List Char → α → Prop) : Prop :=
  ∀ s a, parse? (Text.trim s) = some a ↔ ∃ inner, Pads inner s.toList ∧ grammar inner a

/-- A value read off a variable: what its text says, white space around it apart; or `default`, if
the text says nothing, or it is no text, or there is no such variable. -/
structure Reads (grammar : List Char → α → Prop) (default : α) (v : Option Variable) (a : α) :
    Prop where
  said : ∀ s inner b, v = some (.text s) → Pads inner s.toList → grammar inner b → a = b
  unsaid : (∀ s inner b, v = some (.text s) → Pads inner s.toList → ¬ grammar inner b) → a = default

theorem recognizes_of_iff (hparse : ∀ s a, parse? s = some a ↔ grammar s.toList a)
    (hblank : ∀ cs a, grammar cs a → ∀ c ∈ cs, ¬ Text.isBlank c) : Recognizes parse? grammar := by
  intro s a
  rw [hparse, Text.trim, String.toList_ofList]
  constructor
  · exact fun h => ⟨_, Text.pads_trimChars s.toList, h⟩
  · rintro ⟨inner, hpads, h⟩
    rwa [Text.trimChars_of_pads hpads (hblank inner a h)]

theorem recognizes_unsigned (bits : Nat) : Recognizes (Text.unsigned? bits) (Text.Unsigned bits) :=
  recognizes_of_iff (fun _ _ => Text.unsigned?_eq_some_iff) fun _ _ h => h.1.not_isBlank

theorem recognizes_signed (bits : Nat) : Recognizes (Text.signed? bits) (Text.Signed bits) :=
  recognizes_of_iff (fun _ _ => Text.signed?_eq_some_iff) fun _ _ h => h.1.not_isBlank

theorem reads_get (h : Recognizes parse? grammar) (default : α) (env : Environment) (key : String) :
    Reads grammar default (env.lookup key) (env.get parse? default key) := by
  rw [get, get?, text?]
  rcases env.lookup key with _ | s | bytes
  · exact ⟨nofun, fun _ => rfl⟩
  · constructor
    · rintro _ inner b ⟨⟩ hpads hb
      rw [Option.bind_some, (h s b).mpr ⟨inner, hpads, hb⟩, Option.getD_some]
    · intro hsilent
      have hnone : parse? (Text.trim s) = none := by
        refine Option.eq_none_iff_forall_ne_some.mpr fun b hb => ?_
        obtain ⟨inner, hpads, hinner⟩ := (h s b).mp hb
        exact hsilent s inner b rfl hpads hinner
      rw [Option.bind_some, hnone, Option.getD_none]
  · exact ⟨nofun, fun _ => rfl⟩

/-- What is found depends on the variable of that name only. -/
theorem get_congr {env env' : Environment} {key : String} (h : env.lookup key = env'.lookup key)
    (parse? : String → Option α) (default : α) :
    env.get parse? default key = env'.get parse? default key := by
  rw [get, get, get?, get?, text?, text?, h]

end Environment

/-- The name is trimmed twice. -/
theorem WaitMethod.recognizes : Environment.Recognizes parse? Named := by
  intro s m
  rw [parse?_eq_some_iff, Text.trim, String.toList_ofList]
  constructor
  · intro h
    exact ⟨_, (Text.pads_trimChars _).trans (Text.pads_trimChars _), h⟩
  · rintro ⟨inner, hpads, h⟩
    rwa [Text.trimChars_of_pads hpads h.not_isBlank,
      Text.trimChars_of_pads (.refl inner) h.not_isBlank]

/-! ## Settings -/

/-- The settings by name. -/
inductive Setting where
  | port
  | maxConnections
  | sendCapacity
  | receiveChunk
  | backlog
  | method
  | waitLimit
  | workers
  | statsInterval
deriving DecidableEq

namespace Setting

open Environment (Reads)
open Text (Unsigned Signed)

/-- The name of the variable that holds a setting. -/
def key : Setting → String
  | port => "SLOOP_PORT"
  | maxConnections => "SLOOP_MAX_CONNECTIONS"
  | sendCapacity => "SLOOP_SEND_BUFFER"
  | receiveChunk => "SLOOP_RECV_CHUNK"
  | backlog => "SLOOP_BACKLOG"
  | method => "SLOOP_POLLER"
  | waitLimit => "SLOOP_POLL_TIMEOUT_MS"
  | workers => "SLOOP_WORKERS"
  | statsInterval => "SLOOP_STATS_INTERVAL_S"

/-- Two lots of settings agree in one of them. -/
def Same (s s' : Settings) : Setting → Prop
  | port => s.port = s'.port
  | maxConnections => s.maxConnections = s'.maxConnections
  | sendCapacity => s.sendCapacity = s'.sendCapacity
  | receiveChunk => s.receiveChunk = s'.receiveChunk
  | backlog => s.backlog = s'.backlog
  | method => s.method = s'.method
  | waitLimit => s.waitLimit = s'.waitLimit
  | workers => s.workers = s'.workers
  | statsInterval => s.statsInterval = s'.statsInterval

/-- A length of time that is read as a number of units, zero standing for none. -/
def ReadsTime (unit : Nat → Duration) (v : Option Variable) (d : Option Duration) : Prop :=
  ∃ count, Reads (Unsigned 64) 0 v count ∧ (d = none ↔ count = 0) ∧
    ∀ length ∈ d, length = unit count

/-- A setting is what a variable says of it. -/
def ReadFrom (v : Option Variable) (s : Settings) : Setting → Prop
  | port => Reads (Unsigned 16) ({} : Settings).port v s.port
  | maxConnections => Reads (Unsigned 64) ({} : Settings).maxConnections v s.maxConnections
  | sendCapacity => Reads (Unsigned 64) ({} : Settings).sendCapacity v s.sendCapacity
  | receiveChunk => Reads (Unsigned 64) ({} : Settings).receiveChunk v s.receiveChunk
  | backlog => Reads (Signed 32) ({} : Settings).backlog v s.backlog
  | method => Reads WaitMethod.Named ({} : Settings).method v s.method
  | waitLimit => ReadsTime .ofMillis v s.waitLimit
  | workers => Reads (Unsigned 64) ({} : Settings).workers v s.workers
  | statsInterval => ReadsTime .ofSeconds v s.statsInterval

/-- A setting as it is written, without a sign it does not need. -/
def text (s : Settings) : Setting → String
  | port => s.port.repr
  | maxConnections => s.maxConnections.repr
  | sendCapacity => s.sendCapacity.repr
  | receiveChunk => s.receiveChunk.repr
  | backlog => toString s.backlog
  | method => s.method.word
  | waitLimit => (s.waitLimit.getD 0).millis.repr
  | workers => s.workers.repr
  | statsInterval => (s.statsInterval.getD 0).seconds.repr

end Setting

namespace Settings

/-- A length of time that can be written as a number of units. -/
def Countable (unit : Nat → Duration) (d : Option Duration) : Prop :=
  ∀ length ∈ d, ∃ count, 0 < count ∧ count < 2 ^ 64 ∧ length = unit count

/-- Settings that their variables can hold. -/
structure Writable (s : Settings) : Prop where
  port : s.port < 2 ^ 16
  maxConnections : s.maxConnections < 2 ^ 64
  sendCapacity : s.sendCapacity < 2 ^ 64
  receiveChunk : s.receiveChunk < 2 ^ 64
  backlog : -2 ^ 31 ≤ s.backlog ∧ s.backlog < 2 ^ 31
  waitLimit : Countable .ofMillis s.waitLimit
  workers : s.workers < 2 ^ 64
  statsInterval : Countable .ofSeconds s.statsInterval

/-- Every setting is written in its variable, with any white space around it. -/
def WrittenIn (s : Settings) (env : Environment) : Prop :=
  ∀ x : Setting, ∃ text, env.lookup x.key = some (.text text) ∧ Pads (x.text s).toList text.toList

theorem eq_of_same {s s' : Settings} (h : ∀ x : Setting, x.Same s s') : s = s' := by
  cases s
  cases s'
  simp only [mk.injEq]
  exact ⟨h .port, h .maxConnections, h .sendCapacity, h .receiveChunk, h .backlog, h .method,
    h .waitLimit, h .workers, h .statsInterval⟩

end Settings

/-! ## Reading -/

namespace Setting

open Environment (Reads get_congr reads_get recognizes_unsigned recognizes_signed)
open Settings (fromEnvironment timed)
open Text (Unsigned)

theorem readsTime_timed {v : Option Variable} {count : Nat} (h : Reads (Unsigned 64) 0 v count)
    (unit : Nat → Duration) : ReadsTime unit v (timed unit count) := by
  refine ⟨count, h, ?_⟩
  unfold timed
  split
  · rename_i hpos
    exact ⟨iff_of_false (Option.some_ne_none _) hpos.ne',
      fun _ hlength => (Option.some.inj hlength).symm⟩
  · rename_i hzero
    exact ⟨iff_of_true rfl (Nat.eq_zero_of_not_pos hzero), nofun⟩

theorem readFrom_fromEnvironment (env : Environment) (x : Setting) :
    x.ReadFrom (env.lookup x.key) (fromEnvironment env) := by
  cases x with
  | port => exact reads_get (recognizes_unsigned 16) _ env _
  | backlog => exact reads_get (recognizes_signed 32) _ env _
  | method => exact reads_get WaitMethod.recognizes _ env _
  | waitLimit | statsInterval =>
    exact readsTime_timed (reads_get (recognizes_unsigned 64) 0 env _) _
  | maxConnections | sendCapacity | receiveChunk | workers =>
    exact reads_get (recognizes_unsigned 64) _ env _

theorem same_of_lookup_eq {env env' : Environment} (x : Setting)
    (h : env.lookup x.key = env'.lookup x.key) :
    x.Same (fromEnvironment env) (fromEnvironment env') := by
  cases x with
  | waitLimit | statsInterval => exact congrArg (timed _) (get_congr h _ _)
  | _ => exact get_congr h _ _

/-! ## Writing and reading back -/

theorem unsigned_repr {bits n : Nat} (h : n < 2 ^ bits) : Unsigned bits n.repr.toList n :=
  ⟨Text.numeral_repr false n, h⟩

theorem named_word (m : WaitMethod) : WaitMethod.Named m.word.toList m :=
  List.forall₂_same.mpr fun _ _ => .inl rfl

theorem eq_of_readsTime {unit : Nat → Duration} {measure : Duration → Nat} {d d' : Option Duration}
    {text : String} (hd : Settings.Countable unit d)
    (hmeasure : ∀ count, measure (unit count) = count)
    (hzero : measure 0 = 0) (hread : ReadsTime unit (some (.text text)) d')
    (hpads : Pads (measure (d.getD 0)).repr.toList text.toList) : d' = d := by
  obtain ⟨count, hcount, hnone, hsome⟩ := hread
  cases d with
  | none =>
    rw [Option.getD_none, hzero] at hpads
    exact hnone.mpr (hcount.said _ _ _ rfl hpads (unsigned_repr (by decide)))
  | some length =>
    obtain ⟨count', hpos, hlt, rfl⟩ := hd length rfl
    rw [Option.getD_some, hmeasure] at hpads
    obtain rfl : count = count' := hcount.said _ _ _ rfl hpads (unsigned_repr hlt)
    obtain ⟨length, rfl⟩ := Option.ne_none_iff_exists'.mp (mt hnone.mp hpos.ne')
    rw [hsome length rfl]

theorem same_of_readFrom {s s' : Settings} (hs : s.Writable) {text : String} {x : Setting}
    (hread : x.ReadFrom (some (.text text)) s') (hpads : Pads (x.text s).toList text.toList) :
    x.Same s' s := by
  cases x with
  | port => exact hread.said _ _ _ rfl hpads (unsigned_repr hs.port)
  | maxConnections => exact hread.said _ _ _ rfl hpads (unsigned_repr hs.maxConnections)
  | sendCapacity => exact hread.said _ _ _ rfl hpads (unsigned_repr hs.sendCapacity)
  | receiveChunk => exact hread.said _ _ _ rfl hpads (unsigned_repr hs.receiveChunk)
  | backlog => exact hread.said _ _ _ rfl hpads ⟨Text.numeral_toString _, hs.backlog⟩
  | method => exact hread.said _ _ _ rfl hpads (named_word s.method)
  | waitLimit =>
    exact eq_of_readsTime hs.waitLimit (fun _ => Nat.mul_div_left _ (by decide)) rfl hread hpads
  | workers => exact hread.said _ _ _ rfl hpads (unsigned_repr hs.workers)
  | statsInterval =>
    exact eq_of_readsTime hs.statsInterval (fun _ => Nat.mul_div_left _ (by decide)) rfl hread hpads

end Setting

namespace Settings

theorem fromEnvironment_of_writtenIn {s : Settings} (hs : s.Writable) {env : Environment}
    (h : s.WrittenIn env) : fromEnvironment env = s := by
  refine eq_of_same fun x => ?_
  obtain ⟨text, hlookup, hpads⟩ := h x
  have hread := x.readFrom_fromEnvironment env
  rw [hlookup] at hread
  exact x.same_of_readFrom hs hread hpads

theorem key_injective : Function.Injective Setting.key := by
  intro x y h
  cases x <;> cases y <;> first | rfl | exact absurd h (by simp [Setting.key])

/-- **Settings from the environment.** Each setting has a variable of its own. The setting is what
the variable says, and its default if the variable says nothing, holds no text or is not there: a
numeral says its number if it is within the range of the setting, a name in any letter case its
method, and white space around them means nothing. The two lengths of time are none exactly if their
number is zero, and that many units if not. What other variables hold does not matter. Settings that
their variables can hold are read back as they were written, whatever white space is put around
them. -/
theorem settings_of_environment :
    Function.Injective Setting.key ∧
      (∀ (env : Environment) (x : Setting), x.ReadFrom (env.lookup x.key) (fromEnvironment env)) ∧
      (∀ (env env' : Environment) (x : Setting), env.lookup x.key = env'.lookup x.key →
        x.Same (fromEnvironment env) (fromEnvironment env')) ∧
      ∀ (s : Settings) (env : Environment), s.Writable → s.WrittenIn env →
        fromEnvironment env = s :=
  ⟨key_injective, fun env x => x.readFrom_fromEnvironment env,
    fun _ _ x => x.same_of_lookup_eq, fun _ _ hs h => fromEnvironment_of_writtenIn hs h⟩

/-! Every setting at an end of its range or near it, with white space of three kinds around it, and
a variable that is no text. -/

namespace Brimming

def settings : Settings :=
  { port := 65535, maxConnections := 0, sendCapacity := 2 ^ 64 - 1, receiveChunk := 1
    backlog := -2 ^ 31, method := .select, waitLimit := some (.ofMillis (2 ^ 64 - 1))
    workers := 10, statsInterval := none }

def environment : Environment :=
  [("SLOOP_BACKLOG", .text "\t-2147483648"), ("SLOOP_LOG_LEVEL", .raw [255]),
    ("SLOOP_MAX_CONNECTIONS", .text "0"), ("SLOOP_POLLER", .text "select\n"),
    ("SLOOP_POLL_TIMEOUT_MS", .text "18446744073709551615"), ("SLOOP_PORT", .text " 65535 "),
    ("SLOOP_RECV_CHUNK", .text "1"), ("SLOOP_SEND_BUFFER", .text "\u200318446744073709551615"),
    ("SLOOP_STATS_INTERVAL_S", .text "0"), ("SLOOP_WORKERS", .text "10")]

theorem writable : settings.Writable where
  port := by decide
  maxConnections := by decide
  sendCapacity := by decide
  receiveChunk := by decide
  backlog := by decide
  waitLimit := by
    rintro _ ⟨⟩
    exact ⟨2 ^ 64 - 1, by decide, by decide, rfl⟩
  workers := by decide
  statsInterval := nofun

theorem pads_append {left right : String} (text : String) (hleft : left.toList.all Text.isBlank)
    (hright : right.toList.all Text.isBlank) : Pads text.toList (left ++ text ++ right).toList :=
  ⟨left.toList, right.toList, List.all_eq_true.mp hleft, List.all_eq_true.mp hright, by
    rw [String.toList_append, String.toList_append]⟩

theorem writtenIn : settings.WrittenIn environment := by
  intro x
  cases x with
  | port => exact ⟨" " ++ Setting.text settings .port ++ " ", rfl, pads_append _ rfl rfl⟩
  | sendCapacity =>
    exact ⟨"\u2003" ++ Setting.text settings .sendCapacity ++ "", rfl, pads_append _ rfl rfl⟩
  | backlog => exact ⟨"\t" ++ Setting.text settings .backlog ++ "", rfl, pads_append _ rfl rfl⟩
  | method => exact ⟨"" ++ Setting.text settings .method ++ "\n", rfl, pads_append _ rfl rfl⟩
  | maxConnections | receiveChunk | waitLimit | workers | statsInterval => exact ⟨_, rfl, .refl _⟩

theorem settings_of_brimming :
    settings.Writable ∧ settings.WrittenIn environment ∧ fromEnvironment environment = settings :=
  ⟨writable, writtenIn, settings_of_environment.2.2.2 settings environment writable writtenIn⟩

end Brimming

end Settings

end SpanEcho

import SpanEcho.Command.Client
import SpanEcho.Proofs.Text

/-!
# The grammar of the client's command line

A command line is a sequence of items: a flag with the argument that follows it, or an argument that
is no flag. A flag that nothing follows can stand at the end only. Every list of arguments is made
of items in exactly one way, and what the client is asked to do depends on its items alone: on what
is positional, and on the values of the flags, wherever the flags stand.
-/

namespace SpanEcho.Client

/-! ## Items -/

/-- What a command line is made of. -/
inductive Item where
  | flag (name value : String)
  | positional (arg : String)
deriving DecidableEq

namespace Item

/-- An item as it is written. -/
def args : Item → List String
  | flag name value => [name, value]
  | positional arg => [arg]

/-- A flag has the name of one, an argument that is positional has not. -/
def Proper : Item → Prop
  | flag name _ => name = "-n" ∨ name = "--num_concurrent"
  | positional arg => ¬ (arg = "-n" ∨ arg = "--num_concurrent")

def value? : Item → Option String
  | flag _ value => some value
  | positional _ => none

def positional? : Item → Option String
  | flag _ _ => none
  | positional arg => some arg

end Item

/-- The arguments are these items, one after the other, and behind them `bare`, a flag that nothing
follows, if there is one. -/
structure Itemized (args : List String) (items : List Item) (bare : Option String) : Prop where
  args_eq : args = items.flatMap Item.args ++ bare.toList
  proper : ∀ item ∈ items, item.Proper
  flag : ∀ name ∈ bare, name = "-n" ∨ name = "--num_concurrent"

theorem isFlag_iff {arg : String} : isFlag arg ↔ arg = "-n" ∨ arg = "--num_concurrent" := by
  simp [isFlag]

namespace Itemized

variable {args : List String} {items : List Item} {bare : Option String}

theorem nil : Itemized [] [] none :=
  ⟨rfl, nofun, nofun⟩

theorem bare_flag {name : String} (h : isFlag name) : Itemized [name] [] (some name) :=
  ⟨rfl, nofun, fun _ hname => Option.some.inj hname ▸ isFlag_iff.mp h⟩

theorem cons (item : Item) (hitem : item.Proper) (h : Itemized args items bare) :
    Itemized (item.args ++ args) (item :: items) bare where
  args_eq := by rw [h.args_eq, List.flatMap_cons, List.append_assoc]
  proper := List.forall_mem_cons.mpr ⟨hitem, h.proper⟩
  flag := h.flag

/-- The items are found from left to right. -/
theorem exists_itemized : (args : List String) → ∃ items bare, Itemized args items bare
  | [] => ⟨_, _, nil⟩
  | [arg] => by
    by_cases hflag : isFlag arg = true
    · exact ⟨_, _, bare_flag hflag⟩
    · exact ⟨_, _, nil.cons (.positional arg) (mt isFlag_iff.mpr hflag)⟩
  | arg :: next :: rest => by
    by_cases hflag : isFlag arg = true
    · obtain ⟨items, bare, h⟩ := exists_itemized rest
      exact ⟨_, _, h.cons (.flag arg next) (isFlag_iff.mp hflag)⟩
    · obtain ⟨items, bare, h⟩ := exists_itemized (next :: rest)
      exact ⟨_, _, h.cons (.positional arg) (mt isFlag_iff.mpr hflag)⟩

/-! The first argument settles what the first item is. -/

theorem eq_of_nil (h : Itemized [] items bare) : items = [] ∧ bare = none := by
  have hnil := h.args_eq.symm
  cases items with
  | nil => exact ⟨rfl, Option.toList_eq_nil_iff.mp hnil⟩
  | cons item _ => cases item <;> cases hnil

theorem eq_of_bare_flag {name : String} (hname : isFlag name) (h : Itemized [name] items bare) :
    items = [] ∧ bare = some name := by
  obtain ⟨hargs, hproper, -⟩ := h
  cases items with
  | nil => exact ⟨rfl, Option.toList_eq_singleton_iff.mp hargs.symm⟩
  | cons item _ =>
    cases item with
    | flag _ _ => cases hargs
    | positional arg =>
      obtain rfl : name = arg := (List.cons_eq_cons.mp hargs).1
      exact absurd (isFlag_iff.mp hname) (List.forall_mem_cons.mp hproper).1

theorem eq_of_flag {name value : String} (hname : isFlag name)
    (h : Itemized (name :: value :: args) items bare) :
    ∃ rest, items = .flag name value :: rest ∧ Itemized args rest bare := by
  obtain ⟨hargs, hproper, hbare⟩ := h
  cases items with
  | nil => cases bare <;> cases hargs
  | cons item rest =>
    obtain ⟨hitem, hrest⟩ := List.forall_mem_cons.mp hproper
    cases item with
    | flag _ _ =>
      cases hargs
      exact ⟨rest, rfl, rfl, hrest, hbare⟩
    | positional arg =>
      obtain rfl : name = arg := (List.cons_eq_cons.mp hargs).1
      exact absurd (isFlag_iff.mp hname) hitem

theorem eq_of_positional {arg : String} (harg : ¬ isFlag arg)
    (h : Itemized (arg :: args) items bare) :
    ∃ rest, items = .positional arg :: rest ∧ Itemized args rest bare := by
  obtain ⟨hargs, hproper, hbare⟩ := h
  cases items with
  | nil =>
    obtain rfl : bare = some arg := by
      cases bare with
      | none => cases hargs
      | some name => cases hargs; rfl
    exact absurd (isFlag_iff.mpr (hbare arg rfl)) harg
  | cons item rest =>
    obtain ⟨hitem, hrest⟩ := List.forall_mem_cons.mp hproper
    cases item with
    | flag name _ =>
      obtain rfl : arg = name := (List.cons_eq_cons.mp hargs).1
      exact absurd (isFlag_iff.mpr hitem) harg
    | positional _ =>
      cases hargs
      exact ⟨rest, rfl, rfl, hrest, hbare⟩

theorem unique : {args : List String} → {items items' : List Item} → {bare bare' : Option String} →
    Itemized args items bare → Itemized args items' bare' → items' = items ∧ bare' = bare
  | [], _, _, _, _, h, h' => by
    obtain ⟨rfl, rfl⟩ := h.eq_of_nil
    exact h'.eq_of_nil
  | [arg], _, _, _, _, h, h' => by
    by_cases hflag : isFlag arg = true
    · obtain ⟨rfl, rfl⟩ := h.eq_of_bare_flag hflag
      exact h'.eq_of_bare_flag hflag
    · obtain ⟨_, rfl, hrest⟩ := h.eq_of_positional hflag
      obtain ⟨_, rfl, hrest'⟩ := h'.eq_of_positional hflag
      obtain ⟨rfl, rfl⟩ := unique hrest hrest'
      exact ⟨rfl, rfl⟩
  | arg :: next :: rest, _, _, _, _, h, h' => by
    by_cases hflag : isFlag arg = true
    · obtain ⟨_, rfl, hrest⟩ := h.eq_of_flag hflag
      obtain ⟨_, rfl, hrest'⟩ := h'.eq_of_flag hflag
      obtain ⟨rfl, rfl⟩ := unique hrest hrest'
      exact ⟨rfl, rfl⟩
    · obtain ⟨_, rfl, hrest⟩ := h.eq_of_positional hflag
      obtain ⟨_, rfl, hrest'⟩ := h'.eq_of_positional hflag
      obtain ⟨rfl, rfl⟩ := unique hrest hrest'
      exact ⟨rfl, rfl⟩

end Itemized

/-! ## What is asked for -/

/-- The values of the flags, in order. -/
def values (items : List Item) : List String :=
  items.filterMap Item.value?

/-- The arguments that are positional, in order. -/
def positionals (items : List Item) : List String :=
  items.filterMap Item.positional?

/-- The value of a flag: a number of connections, at least one. -/
def Counts (value : String) (n : Nat) : Prop :=
  Text.Unsigned 64 value.toList n ∧ 0 < n

theorem concurrency?_eq_some_iff {value : String} {n : Nat} :
    concurrency? value = some n ↔ Counts value n := by
  rw [concurrency?, Option.filter_eq_some_iff, Text.unsigned?_eq_some_iff,
    decide_eq_true_eq, Counts]

/-- The number of connections that items ask for: the last of their numbers, each of which has to be
one, or `concurrent` if there are none. -/
def Asks (concurrent : Nat) (items : List Item) (n : Nat) : Prop :=
  ∃ counts, List.Forall₂ Counts (values items) counts ∧ n = counts.getLastD concurrent

theorem asks_nil {concurrent n : Nat} : Asks concurrent [] n ↔ n = concurrent := by
  constructor
  · rintro ⟨counts, hcounts, rfl⟩
    rw [List.forall₂_nil_left_iff.mp hcounts]
    rfl
  · rintro rfl
    exact ⟨[], .nil, rfl⟩

theorem asks_flag {concurrent n : Nat} {name value : String} {items : List Item} :
    Asks concurrent (.flag name value :: items) n ↔ ∃ m, Counts value m ∧ Asks m items n := by
  constructor
  · rintro ⟨counts, hcounts, rfl⟩
    obtain ⟨m, rest, hm, hrest, rfl⟩ := List.forall₂_cons_left_iff.mp hcounts
    exact ⟨m, hm, rest, hrest, List.getLastD_cons⟩
  · rintro ⟨m, hm, rest, hrest, rfl⟩
    exact ⟨m :: rest, .cons hm hrest, List.getLastD_cons.symm⟩

/-- What the arguments give if they are read to the end. -/
theorem gather?_eq_some_iff {args : List String} {items : List Item} {bare : Option String}
    (h : Itemized args items bare) {concurrent n : Nat} {before given : List String} :
    gather? concurrent before args = some (n, given) ↔
      bare = none ∧ Asks concurrent items n ∧ given = before ++ positionals items := by
  fun_induction gather? concurrent before args generalizing items with
  | case1 concurrent before =>
    obtain ⟨rfl, rfl⟩ := h.eq_of_nil
    simp [asks_nil, positionals, eq_comm]
  | case2 concurrent before arg hflag =>
    obtain ⟨rfl, rfl⟩ := h.eq_of_bare_flag hflag
    exact iff_of_false nofun nofun
  | case3 concurrent before arg hflag =>
    obtain ⟨_, rfl, hrest⟩ := h.eq_of_positional hflag
    obtain ⟨rfl, rfl⟩ := hrest.eq_of_nil
    change some (concurrent, before ++ [arg]) = some (n, given) ↔
      none = none ∧ Asks concurrent [] n ∧ given = before ++ [arg]
    simp [asks_nil, eq_comm]
  | case4 concurrent before arg next rest hflag m hm ih =>
    obtain ⟨items, rfl, hrest⟩ := h.eq_of_flag hflag
    rw [ih hrest, asks_flag]
    refine and_congr_right fun _ => and_congr_left fun _ => ?_
    constructor
    · exact fun hasks => ⟨m, concurrency?_eq_some_iff.mp hm, hasks⟩
    · rintro ⟨m', hm', hasks⟩
      obtain rfl : m = m' := Option.some.inj (hm.symm.trans (concurrency?_eq_some_iff.mpr hm'))
      exact hasks
  | case5 concurrent before arg next rest hflag hnone =>
    obtain ⟨items, rfl, hrest⟩ := h.eq_of_flag hflag
    refine iff_of_false nofun fun hasks => ?_
    obtain ⟨m, hm, -⟩ := asks_flag.mp hasks.2.1
    exact absurd (hnone.symm.trans (concurrency?_eq_some_iff.mpr hm)) nofun
  | case6 concurrent before arg next rest hflag ih =>
    obtain ⟨items, rfl, hrest⟩ := h.eq_of_positional hflag
    rw [ih hrest, List.append_assoc]
    rfl

theorem parse?_eq_some_iff {args : List String} {items : List Item} {bare : Option String}
    (h : Itemized args items bare) {r : Request} :
    Request.parse? args = some r ↔ bare = none ∧ Asks 1 items r.concurrent ∧
      ∃ port, positionals items = [r.host, port] ∧ Text.Unsigned 16 port.toList r.port := by
  unfold Request.parse?
  constructor
  · intro hparse
    split at hparse
    · rename_i concurrent host port hgather
      obtain ⟨number, hport, rfl⟩ := Option.map_eq_some_iff.mp hparse
      obtain ⟨hbare, hasks, hgiven⟩ := (gather?_eq_some_iff h).mp hgather
      exact ⟨hbare, hasks, port, hgiven.symm, Text.unsigned?_eq_some_iff.mp hport⟩
    · cases hparse
  · rintro ⟨hbare, hasks, port, hgiven, hport⟩
    rw [(gather?_eq_some_iff h).mpr ⟨hbare, hasks, hgiven.symm⟩]
    exact Option.map_eq_some_iff.mpr ⟨r.port, Text.unsigned?_eq_some_iff.mpr hport, rfl⟩

/-- It makes no difference where the flags stand. -/
theorem parse?_congr {args args' : List String} {items items' : List Item} {bare : Option String}
    (h : Itemized args items bare) (h' : Itemized args' items' bare)
    (hvalues : values items' = values items)
    (hpositionals : positionals items' = positionals items) :
    Request.parse? args' = Request.parse? args := by
  refine Option.ext fun r => ?_
  rw [parse?_eq_some_iff h', parse?_eq_some_iff h, Asks, Asks, hvalues, hpositionals]

/-! ## Usage -/

/-- What a client says that cannot read its command line, as far as `level` lets it through. -/
def usage (program : String) (level : Log.Level) : Command.Client.Report :=
  { exit := 1
    diaries := [{
      thread := "main"
      deeds := []
      lines := [⟨some .error, "usage: " ++ program ++ " <host> <port> [-n num_concurrent]"⟩].filter
        (Log.Line.shownAt level) }] }

theorem run_eq_usage_iff (program : String) (args : List String) (env : Environment)
    (hosts : List Host) :
    Command.Client.run program args env hosts = .ok (usage program (.fromEnvironment env)) ↔
      Request.parse? args = none := by
  unfold Command.Client.run
  cases Request.parse? args with
  | none => exact iff_of_true rfl rfl
  | some r =>
    refine iff_of_false (fun hrun => ?_) nofun
    simp only at hrun
    split at hrun
    · cases hrun
    · exact Nat.zero_ne_one (congrArg Command.Client.Report.exit (Except.ok.inj hrun))

/-- **The client's command line.** Every list of arguments is made of items in exactly one way:
flags, each with the argument that follows it, arguments that are no flags, and perhaps a flag at
the end that nothing follows. The client takes a request from it exactly if no flag stands bare, the
value of every flag is a number of connections, at least one, and two arguments are positional, the
second a port. The first is the host, and the last flag has the number of connections, which is one
if there is no flag. So it makes no difference where the flags stand. In every other case the client
says how it is used, as an error, exits with status 1 and has done nothing else; and in no other. -/
theorem request_of_arguments (args : List String) :
    ∃ items bare, Itemized args items bare ∧
      (∀ items' bare', Itemized args items' bare' → items' = items ∧ bare' = bare) ∧
      (∀ r : Request, Request.parse? args = some r ↔
        bare = none ∧ Asks 1 items r.concurrent ∧
          ∃ port, positionals items = [r.host, port] ∧ Text.Unsigned 16 port.toList r.port) ∧
      (∀ args' items', Itemized args' items' bare → values items' = values items →
        positionals items' = positionals items → Request.parse? args' = Request.parse? args) ∧
      ∀ program env hosts,
        Command.Client.run program args env hosts = .ok (usage program (.fromEnvironment env)) ↔
          Request.parse? args = none := by
  obtain ⟨items, bare, h⟩ := Itemized.exists_itemized args
  exact ⟨items, bare, h, fun _ _ h' => h.unique h', fun _ => parse?_eq_some_iff h,
    fun _ _ h' => parse?_congr h h',
    fun program env hosts => run_eq_usage_iff program args env hosts⟩

/-- A flag takes what follows it, even if that looks like a flag. -/
example : Request.parse? ["-n", "2", "::1", "--num_concurrent", "+03", "80"] =
      some { host := "::1", port := 80, concurrent := 3 } ∧
    Request.parse? ["-n", "-n", "::1", "80"] = none := by
  decide +kernel

end SpanEcho.Client

import Mathlib.Data.Nat.Find
import SpanEcho.Client.Reader

/-!
# Where the client's reader stops

The reader stops with the chunk that has the last byte of the first end marker in it. Where that
byte is depends on the stream alone, and not on where the stream is cut: the marker may lie across
any number of chunks, and among more bytes of the same kind. Without a marker the reader goes on to
the end of the stream or to the first failure.
-/

namespace SpanEcho.Client

/-! ## Markers in a stream -/

/-- An end marker ends with the byte before position `e` of the stream. -/
def EndsAt (stream : Bytes) (e : Nat) : Prop :=
  e ≤ stream.length ∧ marker <:+ stream.take e

/-- The first end marker ends there. -/
def FirstEnd (stream : Bytes) (e : Nat) : Prop :=
  EndsAt stream e ∧ ∀ e' < e, ¬ EndsAt stream e'

instance (stream : Bytes) (e : Nat) : Decidable (EndsAt stream e) :=
  inferInstanceAs (Decidable (_ ∧ _))

theorem hasMarker_iff_within {bytes : Bytes} : hasMarker bytes ↔ marker <:+: bytes := by
  induction bytes with
  | nil => decide
  | cons b rest ih =>
    rw [hasMarker, Bool.or_eq_true, ih, List.isPrefixOf_iff_prefix, List.infix_cons_iff]

theorem hasMarker_iff {bytes : Bytes} : hasMarker bytes ↔ ∃ e, EndsAt bytes e := by
  rw [hasMarker_iff_within]
  constructor
  · rintro ⟨before, after, rfl⟩
    refine ⟨(before ++ marker).length, ?_, ?_⟩
    · exact (List.prefix_append (before ++ marker) after).length_le
    · rw [List.take_left]
      exact List.suffix_append before marker
  · rintro ⟨e, -, hsuffix⟩
    exact hsuffix.isInfix.trans (List.take_prefix e bytes).isInfix

theorem exists_firstEnd {stream : Bytes} (h : ∃ e, EndsAt stream e) : ∃ e, FirstEnd stream e :=
  ⟨Nat.find h, Nat.find_spec h, fun _ => Nat.find_min h⟩

theorem endsAt_append_iff {bytes more : Bytes} {e : Nat} (h : e ≤ bytes.length) :
    EndsAt (bytes ++ more) e ↔ EndsAt bytes e := by
  have hle : e ≤ (bytes ++ more).length := by
    rw [List.length_append]
    exact Nat.le_add_right_of_le h
  rw [EndsAt, EndsAt, List.take_append_of_le_length h, and_iff_right h, and_iff_right hle]

/-- What has come of a stream has a marker as soon as it reaches the end of the first. -/
theorem hasMarker_iff_le {bytes more : Bytes} {e : Nat} (h : FirstEnd (bytes ++ more) e) :
    hasMarker bytes ↔ e ≤ bytes.length := by
  rw [hasMarker_iff]
  constructor
  · rintro ⟨e', hends⟩
    have hstream : EndsAt (bytes ++ more) e' := (endsAt_append_iff hends.1).mpr hends
    have hfirst : ¬ e' < e := fun hlt => h.2 e' hlt hstream
    exact Nat.le_trans (Nat.le_of_not_lt hfirst) hends.1
  · intro hle
    exact ⟨e, (endsAt_append_iff hle).mp h.1⟩

/-! ## Reads -/

/-- The reads that are made end with the chunk of the stream in which position `e` is reached. -/
def StopsAt (e : Nat) (chunks : List Bytes) (reads : List Reading) : Prop :=
  ∃ before last after, chunks = before ++ last :: after ∧ reads = (before ++ [last]).map .chunk ∧
    before.flatten.length < e ∧ e ≤ (before ++ [last]).flatten.length

/-- What can be read is these chunks, and then something that is none, or nothing at all. -/
structure Delivers (readings : List Reading) (chunks : List Bytes) (rest : List Reading) :
    Prop where
  eq : readings = chunks.map .chunk ++ rest
  head : ∀ bytes, rest.head? ≠ some (.chunk bytes)

theorem exists_delivers (readings : List Reading) :
    ∃ chunks rest, Delivers readings chunks rest := by
  induction readings with
  | nil => exact ⟨[], [], rfl, nofun⟩
  | cons r readings ih =>
    cases r with
    | chunk bytes =>
      obtain ⟨chunks, rest, rfl, hhead⟩ := ih
      exact ⟨bytes :: chunks, rest, rfl, hhead⟩
    | ended => exact ⟨[], .ended :: readings, rfl, nofun⟩
    | failed errno => exact ⟨[], .failed errno :: readings, rfl, nofun⟩

theorem readsMade_chunk (seen bytes : Bytes) (rest : List Reading) :
    readsMade seen (.chunk bytes :: rest) =
      .chunk bytes :: if hasMarker (seen ++ bytes) then [] else readsMade (seen ++ bytes) rest :=
  rfl

theorem stopsAt_of_firstEnd (seen : Bytes) {chunks : List Bytes} {e : Nat}
    (h : FirstEnd (seen ++ chunks.flatten) e) (hseen : seen.length < e) (rest : List Reading) :
    ∃ before last after, chunks = before ++ last :: after ∧
      readsMade seen (chunks.map .chunk ++ rest) = (before ++ [last]).map .chunk ∧
      (seen ++ before.flatten).length < e ∧ e ≤ (seen ++ (before ++ [last]).flatten).length := by
  induction chunks generalizing seen with
  | nil =>
    have hle := h.1.1
    rw [List.flatten_nil, List.append_nil] at hle
    exact absurd hle (Nat.not_le_of_lt hseen)
  | cons bytes chunks ih =>
    rw [List.flatten_cons, ← List.append_assoc] at h
    rw [List.map_cons, List.cons_append, readsMade_chunk]
    by_cases hle : e ≤ (seen ++ bytes).length
    · rw [if_pos ((hasMarker_iff_le h).mpr hle)]
      exact ⟨[], bytes, chunks, rfl, rfl, by simpa using hseen, by simpa using hle⟩
    · obtain ⟨before, last, after, rfl, hreads, hlt, hreach⟩ := ih _ h (Nat.lt_of_not_le hle)
      rw [if_neg (mt (hasMarker_iff_le h).mp hle), hreads]
      refine ⟨bytes :: before, last, after, rfl, rfl, ?_, ?_⟩
      · rwa [List.flatten_cons, ← List.append_assoc]
      · rwa [List.cons_append, List.flatten_cons, ← List.append_assoc]

theorem readsMade_of_unmarked {seen : Bytes} {chunks : List Bytes} {rest : List Reading}
    (h : ¬ hasMarker (seen ++ chunks.flatten)) (hrest : ∀ bytes, rest.head? ≠ some (.chunk bytes)) :
    readsMade seen (chunks.map .chunk ++ rest) = chunks.map .chunk ++ [rest.headD .ended] := by
  induction chunks generalizing seen with
  | nil =>
    cases rest with
    | nil => rfl
    | cons r rest =>
      cases r with
      | chunk bytes => exact absurd rfl (hrest bytes)
      | ended => rfl
      | failed errno => rfl
  | cons bytes chunks ih =>
    rw [List.flatten_cons, ← List.append_assoc] at h
    have hbytes : ¬ hasMarker (seen ++ bytes) := by
      rw [hasMarker_iff_within] at h ⊢
      exact fun hwithin => h (hwithin.trans (List.prefix_append _ _).isInfix)
    rw [List.map_cons, List.cons_append, readsMade_chunk, if_neg hbytes, ih h, List.cons_append]

namespace Delivers

variable {readings rest : List Reading} {chunks : List Bytes}

theorem stopsAt (h : Delivers readings chunks rest) {e : Nat} (he : FirstEnd chunks.flatten e) :
    StopsAt e chunks (readsMade [] readings) := by
  have hpos : 0 < e := Nat.pos_of_ne_zero fun hzero => by
    have hsuffix := he.1.2
    rw [hzero, List.take_zero] at hsuffix
    exact absurd (List.suffix_nil.mp hsuffix) (by decide)
  rw [h.eq]
  exact stopsAt_of_firstEnd [] he hpos rest

theorem readsMade_of_not_firstEnd (h : Delivers readings chunks rest)
    (hnone : ∀ e, ¬ FirstEnd chunks.flatten e) :
    readsMade [] readings = chunks.map .chunk ++ [rest.headD .ended] := by
  rw [h.eq]
  refine readsMade_of_unmarked (fun hmarker => ?_) h.head
  obtain ⟨e, he⟩ := exists_firstEnd (hasMarker_iff.mp hmarker)
  exact hnone e he

end Delivers

/-- **The reader stops at the first marker, however the stream is cut.** What can be read begins
with some chunks. If there is an end marker in the stream that they make up, the reader reads up to
the chunk with the last byte of the first marker, and nothing behind it. If there is none, it reads
all of them, and then once more: the failure or the end of the stream that follows them. Every other
way to cut the same stream makes it stop at the same byte, with the chunk that has it. -/
theorem reads_until_marker (readings : List Reading) :
    ∃ chunks rest, Delivers readings chunks rest ∧
      (∀ e, FirstEnd chunks.flatten e → StopsAt e chunks (readsMade [] readings)) ∧
      ((∀ e, ¬ FirstEnd chunks.flatten e) →
        readsMade [] readings = chunks.map .chunk ++ [rest.headD .ended]) ∧
      ∀ readings' chunks' rest', Delivers readings' chunks' rest' →
        chunks'.flatten = chunks.flatten →
        ∀ e, FirstEnd chunks.flatten e → StopsAt e chunks' (readsMade [] readings') := by
  obtain ⟨chunks, rest, h⟩ := exists_delivers readings
  refine ⟨chunks, rest, h, fun _ => h.stopsAt, h.readsMade_of_not_firstEnd, ?_⟩
  intro readings' chunks' rest' h' hsame e he
  exact h'.stopsAt (hsame ▸ he)

/-- A marker across three chunks, after a run that is too short for one. -/
example :
    readsMade [] [.chunk [49, 49, 49, 50, 49], .chunk [49], .chunk [49, 49, 49], .chunk [49]] =
    [.chunk [49, 49, 49, 50, 49], .chunk [49], .chunk [49, 49, 49]] := by
  decide

end SpanEcho.Client

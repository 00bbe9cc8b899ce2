import MetricQuery.Proofs.RowFaults
import MetricQuery.Proofs.SeriesOfRows

/-!
# Decodable responses

Which responses are decoded, and why the others are refused. What is asked of a
response are its start, the names of its rows, the numbers and resolutions of the
rows of each key, and that the times of the value rows fit. None of it depends on
how the rows of different keys and channels interleave; only which fault counts
does.
-/

set_option autoImplicit false

namespace MetricQuery.Decoder

variable {α : Type} {decoder : Decoder} {rows : List (Row α)}

/-- The times of a row increase, and neither the last one nor its distance from
the first exceeds 64 bits. -/
def Fits (start : Int) (row : Row α) : Prop :=
  0 < row.resolution ∧
    (max row.values.length 1 - 1 : Nat) * row.resolution ≤ Text.maxSigned64 ∧
    start + (max row.values.length 1 - 1 : Nat) * row.resolution ≤ Text.maxSigned64

structure Decodable (decoder : Decoder) (response : Response α) : Prop where
  begins : ∃ instant, Instant.ofMillis? (1000 * response.start) = some instant
  named : ∀ row ∈ response.rows, ∃ key channel, decoder.Reads row.name key channel
  /-- Rows that belong together have the same resolution. -/
  matched : ∀ key (occurrence : Nat) (value confidence : Row α),
    (decoder.rowsOf key .value response.rows)[occurrence]? = some value →
    (decoder.rowsOf key .confidence response.rows)[occurrence]? = some confidence →
    value.resolution = confidence.resolution
  /-- There is a value row for every confidence row. -/
  answered : ∀ key, (decoder.rowsOf key .confidence response.rows).length ≤
    (decoder.rowsOf key .value response.rows).length
  fitting : ∀ row ∈ response.rows, ∀ key, decoder.Reads row.name key .value →
    Fits (1000 * response.start) row

inductive GroupFault (decoder : Decoder) (start : Int) (rows : List (Row α)) :
    RowKey × Nat → QueryError → Prop
  | missing {key : RowKey} {occurrence : Nat}
      (absent : (decoder.rowsOf key .value rows)[occurrence]? = none) :
      GroupFault decoder start rows (key, occurrence) (.missingDataChannel key.index)
  | misfit {key : RowKey} {occurrence : Nat} {value : Row α}
      (held : (decoder.rowsOf key .value rows)[occurrence]? = some value)
      (unfit : ¬Fits start value) :
      GroupFault decoder start rows (key, occurrence)
        (.invalidResolution key.index value.resolution)

/-- The fault that a response is refused for: its start, or the fault of the first
row that has one, or that of the first group that has one, in the order in which
the rows reach the groups. -/
inductive FirstFault (decoder : Decoder) (response : Response α) : QueryError → Prop
  | start (beyond : Instant.ofMillis? (1000 * response.start) = none) :
      FirstFault decoder response (.invalidTime (Json.writeInt response.start))
  | row {instant : Instant} {front back : List (Row α)} {row : Row α} {error : QueryError}
      (begun : Instant.ofMillis? (1000 * response.start) = some instant)
      (split : response.rows = front ++ row :: back) (passed : decoder.RowsPass front)
      (fault : decoder.RowFault front row error) : FirstFault decoder response error
  | group {instant : Instant} {front back : List (RowKey × Nat)} {place : RowKey × Nat}
      {error : QueryError}
      (begun : Instant.ofMillis? (1000 * response.start) = some instant)
      (pass : decoder.RowsPass response.rows)
      (split : (decoder.reached response.rows).eraseDups = front ++ place :: back)
      (passed : ∀ other ∈ front, ∀ cause,
        ¬decoder.GroupFault (1000 * response.start) response.rows other cause)
      (fault : decoder.GroupFault (1000 * response.start) response.rows place error) :
      FirstFault decoder response error

/-! ## Groups -/

theorem fits_iff {start : Int} {row : Row α} : fits start row = true ↔ Fits start row := by
  have count : row.values.length - 1 = max row.values.length 1 - 1 := by omega
  simp only [fits, span, Fits, count, Bool.and_eq_true, decide_eq_true_eq, and_assoc]

theorem mem_reached_iff {key : RowKey} {occurrence : Nat} :
    (key, occurrence) ∈ decoder.reached rows ↔
      ∃ channel, occurrence < (decoder.rowsOf key channel rows).length := by
  constructor
  · intro member
    obtain ⟨position, _, own⟩ := List.mem_filterMap.1 member
    obtain ⟨slot, here, placed⟩ := Option.map_eq_some_iff.1 own
    obtain ⟨rfl, rfl⟩ := Prod.mk.inj placed
    obtain ⟨row, _, _, counted⟩ := rowsOf_of_slotAt here
    exact ⟨slot.channel, (List.getElem?_eq_some_iff.1 counted).1⟩
  · rintro ⟨channel, inside⟩
    obtain ⟨position, here, own⟩ := slotAt_of_rowsOf rows (List.getElem?_eq_getElem inside)
    refine List.mem_filterMap.2 ⟨position, ?_, by rw [own]; rfl⟩
    exact List.mem_range.2 (List.getElem?_eq_some_iff.1 here).1

theorem index_lt_of_mem_reached {key : RowKey} {occurrence : Nat}
    (member : (key, occurrence) ∈ decoder.reached rows) : key.index < decoder.parts.length := by
  obtain ⟨channel, inside⟩ := mem_reached_iff.1 member
  obtain ⟨_, reads⟩ := reads_of_mem_rowsOf (List.getElem_mem inside)
  cases reads with
  | channeled _ _ _ known => exact known
  | plain _ _ _ known => exact known

/-- No group has a fault exactly if all confidence rows have value rows, and the
times of these fit. -/
theorem no_groupFault_iff {start : Int} :
    (∀ place ∈ decoder.reached rows, ∀ error, ¬decoder.GroupFault start rows place error) ↔
      (∀ key, (decoder.rowsOf key .confidence rows).length ≤
        (decoder.rowsOf key .value rows).length) ∧
      ∀ row ∈ rows, ∀ key, decoder.Reads row.name key .value → Fits start row := by
  constructor
  · intro faultless
    refine ⟨fun key => Nat.le_of_not_lt fun fewer => ?_, fun row member key reads => ?_⟩
    · have absent : (decoder.rowsOf key .value rows)[(decoder.rowsOf key .value rows).length]? =
          none := List.getElem?_eq_none (Nat.le_refl _)
      exact faultless _ (mem_reached_iff.2 ⟨.confidence, fewer⟩) _ (.missing absent)
    · have listed : row ∈ decoder.rowsOf key .value rows :=
        List.mem_filter.2 ⟨member, (encodes_iff reads.parseName key .value).2 ⟨rfl, rfl⟩⟩
      obtain ⟨occurrence, held⟩ := List.mem_iff_getElem?.1 listed
      have inside := (List.getElem?_eq_some_iff.1 held).1
      by_contra unfit
      exact faultless _ (mem_reached_iff.2 ⟨.value, inside⟩) _ (.misfit held unfit)
  · rintro ⟨answered, fitting⟩ place member error fault
    cases fault with
    | @missing key occurrence absent =>
      obtain ⟨channel, inside⟩ := mem_reached_iff.1 member
      have few := List.getElem?_eq_none_iff.1 absent
      cases channel with
      | value => omega
      | confidence =>
        have enough := answered key
        omega
    | misfit held unfit =>
      obtain ⟨among, reads⟩ := reads_of_mem_rowsOf (List.mem_of_getElem? held)
      exact unfit (fitting _ among _ reads)

theorem Decodable.no_fault {response : Response α} (decodable : decoder.Decodable response)
    (error : QueryError) : ¬decoder.FirstFault response error := by
  intro fault
  have pass := rowsPass_iff.2 ⟨decodable.named, decodable.matched⟩
  have faultless := no_groupFault_iff.2 ⟨decodable.answered, decodable.fitting⟩
  cases fault with
  | start beyond =>
    obtain ⟨instant, begun⟩ := decodable.begins
    rw [begun] at beyond
    cases beyond
  | row _ split _ fault => exact pass _ _ _ split _ fault
  | group _ _ split _ fault =>
    refine faultless _ (List.mem_eraseDups.1 ?_) _ fault
    rw [split]
    exact List.mem_append_right _ List.mem_cons_self

/-- Only the order within each channel of a key matters. -/
theorem Decodable.of_perm {start : Int} {others : List (Row α)}
    (decodable : decoder.Decodable ⟨start, rows⟩) (perm : others.Perm rows)
    (alike : ∀ key channel, decoder.rowsOf key channel others = decoder.rowsOf key channel rows) :
    decoder.Decodable ⟨start, others⟩ where
  begins := decodable.begins
  named row member := decodable.named row (perm.mem_iff.1 member)
  matched key occurrence value confidence valued confident :=
    decodable.matched key occurrence value confidence ((alike key .value).symm ▸ valued)
      ((alike key .confidence).symm ▸ confident)
  answered key := by
    rw [alike key .confidence, alike key .value]
    exact decodable.answered key
  fitting row member := decodable.fitting row (perm.mem_iff.1 member)

theorem rowsOf_swap {left right : Row α}
    (apart : decoder.parseName left.name ≠ decoder.parseName right.name) (front back : List (Row α))
    (key : RowKey) (channel : Channel) :
    decoder.rowsOf key channel (front ++ left :: right :: back) =
      decoder.rowsOf key channel (front ++ right :: left :: back) := by
  cases first : decoder.encodes key channel left with
  | false => simp [rowsOf, first, List.filter_cons]
  | true =>
    have other : decoder.encodes key channel right = false := by
      refine Bool.eq_false_iff.2 fun second => apart ?_
      rw [encodes_eq_true_iff.1 first, encodes_eq_true_iff.1 second]
    simp [rowsOf, first, other]

/-! ## Series -/

variable [Sample α]

theorem series_eq_error_iff {start : Int} {groups : List (RowGroup α)} {group : RowGroup α}
    {error : QueryError} (grouped : decoder.Grouped rows groups) (member : group ∈ groups) :
    decoder.series start groups group = .error error ↔
      decoder.GroupFault start rows group.place error := by
  have there : group.place ∈ decoder.reached rows := by
    rw [← List.mem_eraseDups, ← grouped.order]
    exact List.mem_map_of_mem member
  obtain ⟨part, known⟩ : ∃ part, decoder.parts[group.key.index]? = some part :=
    ⟨_, List.getElem?_eq_getElem (index_lt_of_mem_reached there)⟩
  have value : group.value = (decoder.rowsOf group.key .value rows)[group.occurrence]? := by
    rw [((grouped.mem_iff group).1 member).2]
    rfl
  cases held : group.value with
  | none =>
    simp only [series, held, known]
    constructor
    · intro failure
      cases failure
      exact .missing (value ▸ held)
    · intro fault
      cases fault with
      | missing absent => rfl
      | misfit found _ =>
        rw [← value, held] at found
        cases found
  | some row =>
    by_cases fit : Fits start row
    · simp only [series, held, known, if_pos (fits_iff.2 fit)]
      refine iff_of_false nofun fun fault => ?_
      cases fault with
      | missing absent =>
        rw [← value, held] at absent
        cases absent
      | misfit found unfit =>
        obtain rfl := Option.some.inj ((held.symm.trans value).trans found)
        exact unfit fit
    · simp only [series, held, known, if_neg (mt fits_iff.1 fit)]
      constructor
      · intro failure
        cases failure
        exact .misfit (value ▸ held) fit
      · intro fault
        cases fault with
        | missing absent =>
          rw [← value, held] at absent
          cases absent
        | misfit found unfit =>
          obtain rfl := Option.some.inj ((held.symm.trans value).trans found)
          rfl

theorem mapM_series_eq_error_iff {start : Int} {groups : List (RowGroup α)} {error : QueryError}
    (grouped : decoder.Grouped rows groups) :
    groups.mapM (decoder.series start groups) = .error error ↔
      ∃ front place back, (decoder.reached rows).eraseDups = front ++ place :: back ∧
        (∀ other ∈ front, ∀ cause, ¬decoder.GroupFault start rows other cause) ∧
        decoder.GroupFault start rows place error := by
  rw [mapM_eq_error_iff, ← grouped.order]
  constructor
  · rintro ⟨front, group, back, split, passed, failure⟩
    have member : group ∈ groups := by simp [split]
    refine ⟨front.map RowGroup.place, group.place, back.map RowGroup.place, by simp [split], ?_,
      (series_eq_error_iff grouped member).1 failure⟩
    intro place early cause fault
    obtain ⟨other, inside, rfl⟩ := List.mem_map.1 early
    have among : other ∈ groups := by simp [split, inside]
    obtain ⟨made, success⟩ := passed other inside
    rw [(series_eq_error_iff grouped among).2 fault] at success
    cases success
  · rintro ⟨front, place, back, split, passed, fault⟩
    obtain ⟨left, right, rfl, rfl, rest⟩ := List.map_eq_append_iff.1 split
    obtain ⟨group, back, rfl, rfl, rfl⟩ := List.map_eq_cons_iff.1 rest
    refine ⟨left, group, back, rfl, ?_, (series_eq_error_iff grouped (by simp)).2 fault⟩
    intro other early
    cases outcome : decoder.series start (left ++ group :: back) other with
    | ok made => exact ⟨made, rfl⟩
    | error cause =>
      have found := (series_eq_error_iff grouped (by simp [early])).1 outcome
      exact absurd found (passed _ (List.mem_map_of_mem early) cause)

/-! ## Responses -/

theorem decode_of_groupRows {response : Response α} {instant : Instant}
    {groups : List (RowGroup α)}
    (begun : Instant.ofMillis? (1000 * response.start) = some instant)
    (grouped : decoder.groupRows response.rows = .ok groups) :
    decoder.decode response =
      (groups.mapM (decoder.series (1000 * response.start) groups)).map (⟨instant, ·⟩) := by
  simp only [decode, begun, grouped]
  cases groups.mapM (decoder.series (1000 * response.start) groups) <;> rfl

theorem decode_eq_error_iff {response : Response α} {error : QueryError} :
    decoder.decode response = .error error ↔ decoder.FirstFault response error := by
  cases begun : Instant.ofMillis? (1000 * response.start) with
  | none =>
    simp only [decode, begun]
    constructor
    · intro failure
      cases failure
      exact .start begun
    · intro fault
      cases fault with
      | start _ => rfl
      | row found _ _ _ => rw [begun] at found; cases found
      | group found _ _ _ _ => rw [begun] at found; cases found
  | some instant =>
    cases grouped : decoder.groupRows response.rows with
    | error cause =>
      simp only [decode, begun, grouped]
      constructor
      · intro failure
        cases failure
        obtain ⟨front, row, back, split, passed, fault⟩ := groupRows_eq_error_iff.1 grouped
        exact .row begun split passed fault
      · intro fault
        cases fault with
        | start beyond => rw [begun] at beyond; cases beyond
        | row _ split passed fault =>
          have again := groupRows_eq_error_iff.2 ⟨_, _, _, split, passed, fault⟩
          rw [grouped] at again
          exact congrArg Except.error (Except.error.inj again)
        | group _ pass _ _ _ =>
          obtain ⟨groups, success⟩ := groupRows_of_rowsPass _ pass
          rw [grouped] at success
          cases success
    | ok groups =>
      have faults := @mapM_series_eq_error_iff α decoder response.rows _ (1000 * response.start)
        groups error (grouped_of_groupRows _ grouped)
      rw [decode_of_groupRows begun grouped]
      constructor
      · intro failure
        cases outcome : groups.mapM (decoder.series (1000 * response.start) groups) with
        | ok series => rw [outcome] at failure; cases failure
        | error cause =>
          rw [outcome] at failure
          cases failure
          obtain ⟨front, place, back, split, passed, fault⟩ := faults.1 outcome
          exact .group begun (rowsPass_of_groupRows grouped) split passed fault
      · intro fault
        cases fault with
        | start beyond => rw [begun] at beyond; cases beyond
        | row _ split passed fault =>
          have failed := groupRows_eq_error_iff.2 ⟨_, _, _, split, passed, fault⟩
          rw [grouped] at failed
          cases failed
        | group _ _ split passed fault =>
          rw [faults.2 ⟨_, _, _, split, passed, fault⟩]
          rfl

theorem decodable_of_decode {response : Response α} {decoded : DecodedResponse α}
    (success : decoder.decode response = .ok decoded) : decoder.Decodable response := by
  obtain ⟨begun, groups, grouped, made⟩ := decode_eq_ok success
  have known := grouped_of_groupRows response.rows grouped
  obtain ⟨named, matched⟩ := rowsPass_iff.1 (rowsPass_of_groupRows grouped)
  have faultless : ∀ place ∈ decoder.reached response.rows, ∀ error,
      ¬decoder.GroupFault (1000 * response.start) response.rows place error := by
    intro place member error fault
    rw [← List.mem_eraseDups, ← known.order] at member
    obtain ⟨group, inside, rfl⟩ := List.mem_map.1 member
    obtain ⟨series, _, built⟩ := forall₂_left made group inside
    rw [(series_eq_error_iff known inside).2 fault] at built
    cases built
  obtain ⟨answered, fitting⟩ := no_groupFault_iff.1 faultless
  exact ⟨⟨_, begun⟩, named, matched, answered, fitting⟩

theorem decode_isOk_iff {response : Response α} :
    (∃ decoded, decoder.decode response = .ok decoded) ↔ decoder.Decodable response := by
  constructor
  · rintro ⟨decoded, success⟩
    exact decodable_of_decode success
  · intro decodable
    cases outcome : decoder.decode response with
    | ok decoded => exact ⟨decoded, rfl⟩
    | error error => exact absurd (decode_eq_error_iff.1 outcome) (decodable.no_fault error)

/-- A response is decoded exactly if its start is an instant, its rows have names
of parts and channels, rows that belong together have the same resolution, no key
has more confidence rows than value rows, and the times of all value rows fit;
however the rows of different keys and channels interleave. Otherwise it is
refused for its first fault: the start, then row by row, then group by group. -/
theorem decode_decodable (decoder : Decoder) (response : Response α) :
    ((∃ decoded, decoder.decode response = .ok decoded) ↔ decoder.Decodable response) ∧
    (∀ error, decoder.decode response = .error error ↔ decoder.FirstFault response error) ∧
    ∀ rows : List (Row α), rows.Perm response.rows →
      (∀ key channel, decoder.rowsOf key channel rows =
        decoder.rowsOf key channel response.rows) →
      ((∃ decoded, decoder.decode ⟨response.start, rows⟩ = .ok decoded) ↔
        ∃ decoded, decoder.decode response = .ok decoded) := by
  refine ⟨decode_isOk_iff, fun error => decode_eq_error_iff, ?_⟩
  intro rows perm alike
  rw [decode_isOk_iff, decode_isOk_iff]
  constructor
  · intro decodable
    exact decodable.of_perm perm.symm fun key channel => (alike key channel).symm
  · intro decodable
    exact Decodable.of_perm decodable perm alike

/-- A value row comes between the rows of another key, or in front of them. -/
theorem decode_decodable_interleaved :
    let decoder : Decoder := ⟨[Part.ofSelector ⟨"org", .all, none, none⟩], .on⟩
    let confidence : Row Float := ⟨"'0'.'c'.'a'", 10, []⟩
    let other : Row Float := ⟨"'0'.'v'.'b'", 20, []⟩
    let value : Row Float := ⟨"'0'.'v'.'a'", 10, []⟩
    [other, confidence, value].Perm [confidence, other, value] ∧
      (∀ key channel, decoder.rowsOf key channel [other, confidence, value] =
        decoder.rowsOf key channel [confidence, other, value]) ∧
      ∃ decoded, decoder.decode ⟨0, [other, confidence, value]⟩ = .ok decoded := by
  intro decoder confidence other value
  have apart : decoder.parseName other.name ≠ decoder.parseName confidence.name := by
    decide +kernel
  have perm : [other, confidence, value].Perm [confidence, other, value] := .swap _ _ _
  have alike := rowsOf_swap apart [] [value]
  have decodes : ∃ decoded, decoder.decode ⟨0, [confidence, other, value]⟩ = .ok decoded := by
    have success : (decoder.decode ⟨0, [confidence, other, value]⟩).isOk = true := by
      decide +kernel
    cases result : decoder.decode ⟨0, [confidence, other, value]⟩ with
    | ok decoded => exact ⟨decoded, rfl⟩
    | error error => rw [result] at success; cases success
  obtain ⟨_, _, interleaved⟩ := decode_decodable decoder ⟨0, [confidence, other, value]⟩
  exact ⟨perm, alike, (interleaved _ perm alike).2 decodes⟩

end MetricQuery.Decoder

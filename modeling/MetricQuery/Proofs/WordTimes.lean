import MetricQuery.Proofs.SharedConfidence

/-!
# Times in 64 bits

Decoding with numbers of 64 bits. The start is the nearest such number, the span of
a row is checked, and the time of a point is counted without a check. That one
check, made before any point is chosen, is enough for all of them: nothing
overflows, and what is decoded is what unbounded numbers give.
-/

set_option autoImplicit false

namespace MetricQuery

/-! ## Numbers of 64 bits -/

/-- A number, unless it takes more than 64 bits. -/
def word? (x : Int) : Option Int :=
  if Text.minSigned64 ≤ x ∧ x ≤ Text.maxSigned64 then some x else none

/-- The nearest number of 64 bits. -/
def saturated (x : Int) : Int :=
  max Text.minSigned64 (min x Text.maxSigned64)

theorem word?_eq_some {x : Int} (low : Text.minSigned64 ≤ x) (high : x ≤ Text.maxSigned64) :
    word? x = some x :=
  if_pos ⟨low, high⟩

theorem word?_eq_none {x : Int} (beyond : Text.maxSigned64 < x) : word? x = none :=
  if_neg fun within => absurd within.2 (Int.not_le.2 beyond)

theorem saturated_of_bounds {x : Int} (low : Text.minSigned64 < x) (high : x < Text.maxSigned64) :
    saturated x = x := by
  unfold saturated
  omega

theorem isSome_word?_iff {x : Int} :
    (word? x).isSome = true ↔ Text.minSigned64 ≤ x ∧ x ≤ Text.maxSigned64 := by
  unfold word?
  split <;> simp_all

namespace Instant

/-- The instants of the calendar lie far within 64 bits of milliseconds. -/
theorem bounds_of_ofMillis? {millis : Int} {instant : Instant}
    (known : ofMillis? millis = some instant) :
    Text.minSigned64 < millis ∧ millis < Text.maxSigned64 := by
  have first : (Date.mk Date.firstYear 1 1).toDays = -96465292 := by decide
  have last : (Date.mk Date.lastYear 12 31).toDays = 95026236 := by decide
  simp only [ofMillis?, isValid, first, last, secondsInDay, Bool.and_eq_true, decide_eq_true_eq,
    Option.ite_none_right_eq_some] at known
  unfold Text.minSigned64 Text.maxSigned64
  omega

theorem toMillis_of_ofMillis? {millis : Int} {instant : Instant}
    (known : ofMillis? millis = some instant) : instant.toMillis = millis := by
  simp only [ofMillis?, Option.ite_none_right_eq_some, Option.some.injEq] at known
  obtain ⟨_, rfl⟩ := known
  simp only [toMillis]
  omega

/-- A number of milliseconds that has to be saturated is beyond the calendar. -/
theorem ofMillis?_saturated (millis : Int) : ofMillis? (saturated millis) = ofMillis? millis := by
  by_cases within : Text.minSigned64 < millis ∧ millis < Text.maxSigned64
  · rw [saturated_of_bounds within.1 within.2]
  · have beyond : ¬(Text.minSigned64 < saturated millis ∧ saturated millis < Text.maxSigned64) := by
      unfold saturated
      omega
    have refused : ∀ {other : Int}, ¬(Text.minSigned64 < other ∧ other < Text.maxSigned64) →
        ofMillis? other = none :=
      fun outside => Option.eq_none_iff_forall_not_mem.2 fun _ known =>
        outside (bounds_of_ofMillis? known)
    rw [refused within, refused beyond]

end Instant

namespace Decoder

variable {α : Type}

/-! ## Decoding in 64 bits -/

/-- The time of the value at an index. Nothing is checked: there is none where a
number on the way overflows. -/
def wordTime? (start resolution : Int) (index : Nat) : Option Int := do
  let steps ← word? index
  let offset ← word? (steps * resolution)
  word? (start + offset)

/-- The check of a row by its last index, which itself has to be a number of 64 bits. -/
def wordFits? (start : Int) (row : Row α) : Option Bool := do
  let last ← word? (row.values.length - 1 : Nat)
  let end? := (word? (last * row.resolution)).bind fun span => word? (start + span)
  return 0 < row.resolution && end?.isSome

def wordPoints? (start resolution : Int) (entries : List (α × Nat)) : Option (List (Point α)) :=
  entries.mapM fun entry => (wordTime? start resolution entry.2).map (⟨entry.1, ·⟩)

variable [Sample α]

/-- Whether the value at an index becomes a point. -/
def shows (decoder : Decoder) (groups : List (RowGroup α)) (group : RowGroup α) (index : Nat) :
    Bool :=
  match decoder.confidence, group.confidence with
  | .off, _ | _, none => true
  | .on, some confidence => Series.positiveAt confidence.values index
  | .aligned, some _ => Series.positiveAt (overlay groups group) index

def shownValues (decoder : Decoder) (group : RowGroup α) (value : Row α) : List α :=
  match decoder.confidence, group.confidence with
  | .aligned, some confidence => Series.interpolate value.values confidence.values
  | _, _ => value.values

/-- As `series`, in 64 bits: nothing where a number overflows that is not checked. -/
def wordSeries? (decoder : Decoder) (start : Int) (groups : List (RowGroup α))
    (group : RowGroup α) : Option (Except QueryError (Series α)) :=
  match group.value, decoder.parts[group.key.index]? with
  | none, _ => some (.error (.missingDataChannel group.key.index))
  | some _, none => some (.error (.missingDataChannel group.key.index))
  | some value, some part => do
    if ← wordFits? start value then
      let points ← wordPoints? start value.resolution
        ((decoder.shownValues group value).zipIdx.filter fun entry =>
          decoder.shows groups group entry.2)
      return .ok ⟨part, seriesName part, seriesTags part group.key.metadata, points⟩
    else return .error (.invalidResolution group.key.index value.resolution)

/-- As `decode`, in 64 bits: nothing where a number overflows that is not checked. -/
def wordDecode? (decoder : Decoder) (response : Response α) :
    Option (Except QueryError (DecodedResponse α)) :=
  let start := saturated (1000 * response.start)
  match Instant.ofMillis? start with
  | none => some (.error (.invalidTime (Json.writeInt response.start)))
  | some instant =>
    match decoder.groupRows response.rows with
    | .error error => some (.error error)
    | .ok groups =>
      let series : ExceptT QueryError Option (List (Series α)) :=
        groups.mapM fun group => ExceptT.mk (decoder.wordSeries? start groups group)
      series.run.map (·.map (⟨instant, ·⟩))

/-! ## The check of a row -/

/-- The times of a row increase, and every index of it, shown or not, has an offset
and a time of 64 bits. -/
def TimesFit (start : Int) (row : Row α) : Prop :=
  0 < row.resolution ∧ ∀ index : Nat, index < row.values.length →
    (word? (index * row.resolution)).isSome = true ∧
    (word? (start + index * row.resolution)).isSome = true

section Check

omit [Sample α]

variable {start : Int} {row : Row α}

theorem span_nonneg (positive : 0 < row.resolution) : 0 ≤ span row :=
  Int.mul_nonneg (Int.natCast_nonneg _) (Int.le_of_lt positive)

/-- What fits at the last index fits at every one. -/
theorem offset_bounds (positive : 0 < row.resolution) {index : Nat}
    (inside : index < row.values.length) :
    0 ≤ index * row.resolution ∧ index * row.resolution ≤ span row := by
  have resolution := Int.le_of_lt positive
  refine ⟨Int.mul_nonneg (Int.natCast_nonneg index) resolution, ?_⟩
  have last : (index : Int) ≤ (row.values.length - 1 : Nat) := by omega
  exact Int.mul_le_mul_of_nonneg_right last resolution

theorem fits_eq_true_iff : fits start row = true ↔
    0 < row.resolution ∧ span row ≤ Text.maxSigned64 ∧ start + span row ≤ Text.maxSigned64 := by
  simp only [fits, Bool.and_eq_true, decide_eq_true_eq, and_assoc]

theorem wordFits?_eq (begun : Text.minSigned64 ≤ start)
    (count : (row.values.length : Int) ≤ Text.maxSigned64) :
    wordFits? start row = some (fits start row) := by
  have last : word? (row.values.length - 1 : Nat) = some (row.values.length - 1 : Nat) := by
    apply word?_eq_some
    · exact Int.le_trans (by decide) (Int.natCast_nonneg _)
    · omega
  have zero : Text.minSigned64 ≤ 0 := by decide
  rw [wordFits?, last]
  change some (_ && _) = _
  rw [← span, fits, Bool.and_assoc]
  by_cases positive : 0 < row.resolution
  · have nonneg := span_nonneg positive
    congr 2
    by_cases short : span row ≤ Text.maxSigned64
    · rw [word?_eq_some (by omega) short, Option.bind_some, decide_eq_true short, Bool.true_and,
        Bool.eq_iff_iff, isSome_word?_iff, decide_eq_true_eq]
      omega
    · rw [word?_eq_none (by omega), decide_eq_false short]
      rfl
  · rw [decide_eq_false positive]
    rfl

theorem wordTime?_eq (begun : Text.minSigned64 ≤ start) (fitting : fits start row = true)
    (count : (row.values.length : Int) ≤ Text.maxSigned64) {index : Nat}
    (inside : index < row.values.length) :
    wordTime? start row.resolution index = some (start + index * row.resolution) := by
  obtain ⟨positive, short, ends⟩ := fits_eq_true_iff.1 fitting
  obtain ⟨low, high⟩ := offset_bounds positive inside
  have zero : Text.minSigned64 ≤ 0 := by decide
  have steps : word? index = some (index : Int) := word?_eq_some (by omega) (by omega)
  have offset : word? (index * row.resolution) = some (index * row.resolution) :=
    word?_eq_some (by omega) (by omega)
  have time : word? (start + index * row.resolution) = some (start + index * row.resolution) :=
    word?_eq_some (by omega) (by omega)
  rw [wordTime?, steps]
  change (word? (index * row.resolution)).bind _ = _
  rw [offset]
  exact time

/-- The check of the last index is that of all of them. -/
theorem fits_iff_timesFit (begun : Text.minSigned64 ≤ start) (ended : start ≤ Text.maxSigned64) :
    fits start row = true ↔ TimesFit start row := by
  have zero : Text.minSigned64 ≤ 0 := by decide
  have top : 0 ≤ Text.maxSigned64 := by decide
  simp only [fits_eq_true_iff, TimesFit, isSome_word?_iff]
  constructor
  · rintro ⟨positive, short, ends⟩
    refine ⟨positive, fun index inside => ?_⟩
    obtain ⟨low, high⟩ := offset_bounds positive inside
    omega
  · rintro ⟨positive, each⟩
    refine ⟨positive, ?_⟩
    cases count : row.values.length with
    | zero => simp [span, count, top, ended]
    | succ last =>
      obtain ⟨short, ends⟩ := each last (by omega)
      simpa [span, count] using And.intro short.2 ends.2

end Check

/-! ## Series -/

variable {decoder : Decoder} {groups : List (RowGroup α)} {group : RowGroup α} {start : Int}

theorem length_shownValues (decoder : Decoder) (group : RowGroup α) (value : Row α) :
    (decoder.shownValues group value).length = value.values.length := by
  unfold shownValues
  split
  · exact Series.length_interpolate _ _
  · rfl

theorem seriesPoints_eq (decoder : Decoder) (start : Int) (groups : List (RowGroup α))
    (group : RowGroup α) (value : Row α) :
    decoder.seriesPoints start groups group value =
      ((decoder.shownValues group value).zipIdx.filter fun entry =>
        decoder.shows groups group entry.2).map (pointOf start value.resolution) := by
  have all : ∀ values : List α, pointsFrom start value.resolution values =
      (values.zipIdx.filter fun _ => true).map (pointOf start value.resolution) := by
    intro values
    have points := pointsFrom_eq values start value.resolution 0
    rw [Int.natCast_zero, Int.zero_mul, Int.add_zero] at points
    rw [points, List.filter_true]
  cases mode : decoder.confidence with
  | off => simp only [seriesPoints, shownValues, shows, mode, all]
  | on =>
    cases own : group.confidence with
    | none => simp only [seriesPoints, shownValues, shows, mode, own, all]
    | some confidence => simp only [seriesPoints, shownValues, shows, mode, own, gate_pointsFrom]
  | aligned =>
    cases own : group.confidence with
    | none => simp only [seriesPoints, shownValues, shows, mode, own, all]
    | some confidence => simp only [seriesPoints, shownValues, shows, mode, own, gate_pointsFrom]

omit [Sample α] in
/-- The points of a row that passes the check are counted without an overflow. -/
theorem wordPoints?_eq (begun : Text.minSigned64 ≤ start) {value : Row α}
    (fitting : fits start value = true)
    (count : (value.values.length : Int) ≤ Text.maxSigned64) {entries : List (α × Nat)}
    (inside : ∀ entry ∈ entries, entry.2 < value.values.length) :
    wordPoints? start value.resolution entries =
      some (entries.map (pointOf start value.resolution)) := by
  unfold wordPoints?
  induction entries with
  | nil => rfl
  | cons entry entries ih =>
    obtain ⟨first, others⟩ := List.forall_mem_cons.1 inside
    rw [List.mapM_cons, wordTime?_eq begun fitting count first, ih others]
    rfl

theorem wordSeries?_eq (begun : Text.minSigned64 ≤ start)
    (count : ∀ value, group.value = some value → (value.values.length : Int) ≤ Text.maxSigned64) :
    decoder.wordSeries? start groups group = some (decoder.series start groups group) := by
  unfold wordSeries? series
  cases valued : group.value with
  | none => rfl
  | some value =>
    cases known : decoder.parts[group.key.index]? with
    | none => rfl
    | some part =>
      simp only [wordFits?_eq begun (count value valued)]
      cases fitting : fits start value with
      | false => rfl
      | true =>
        have inside : ∀ entry ∈ (decoder.shownValues group value).zipIdx.filter fun entry =>
            decoder.shows groups group entry.2, entry.2 < value.values.length := by
          intro entry member
          have listed := List.mem_zipIdx_iff_getElem?.1 (List.mem_of_mem_filter member)
          rw [← length_shownValues decoder group value]
          exact (List.getElem?_eq_some_iff.1 listed).1
        have points := wordPoints?_eq begun fitting (count value valued) inside
        rw [← seriesPoints_eq] at points
        change (wordPoints? _ _ _).bind _ = _
        rw [points]
        rfl

/-- Results that are all there are collected as results. -/
theorem run_mapM_mk {ε β γ : Type} {f : β → Except ε γ} {given : β → Option (Except ε γ)}
    {xs : List β} (same : ∀ x ∈ xs, given x = some (f x)) :
    (xs.mapM fun x => (ExceptT.mk (given x) : ExceptT ε Option γ)).run = some (xs.mapM f) := by
  induction xs with
  | nil => rfl
  | cons x xs ih =>
    obtain ⟨first, others⟩ := List.forall_mem_cons.1 same
    have later : (xs.mapM fun x => (ExceptT.mk (given x) : ExceptT ε Option γ)) =
        ExceptT.mk (some (xs.mapM f)) := ih others
    rw [List.mapM_cons, mapM_cons_eq, first, later]
    cases f x with
    | error error => rfl
    | ok y => cases xs.mapM f <;> rfl

omit [Sample α] in
theorem mem_of_groupRows {rows : List (Row α)} (grouped : decoder.groupRows rows = .ok groups)
    (member : group ∈ groups) {value : Row α} (valued : group.value = some value) :
    value ∈ rows := by
  obtain ⟨_, here, _⟩ := (placesRows_of_groupRows grouped).held group member .value value valued
  exact List.mem_of_getElem? here

theorem wordDecode?_eq (decoder : Decoder) (response : Response α)
    (held : ∀ row ∈ response.rows, (row.values.length : Int) ≤ Text.maxSigned64) :
    decoder.wordDecode? response = some (decoder.decode response) := by
  simp only [wordDecode?, decode, Instant.ofMillis?_saturated]
  cases begun : Instant.ofMillis? (1000 * response.start) with
  | none => rfl
  | some instant =>
    obtain ⟨low, high⟩ := Instant.bounds_of_ofMillis? begun
    cases grouped : decoder.groupRows response.rows with
    | error error => rfl
    | ok groups =>
      have same : ∀ group ∈ groups,
          decoder.wordSeries? (1000 * response.start) groups group =
            some (decoder.series (1000 * response.start) groups group) :=
        fun group member => wordSeries?_eq (Int.le_of_lt low)
          fun value valued => held value (mem_of_groupRows grouped member valued)
      simp only [saturated_of_bounds low high, run_mapM_mk same]
      cases groups.mapM (decoder.series (1000 * response.start) groups) <;> rfl

/-! ## Times -/

section Times

omit [Sample α]

variable {resolution : Int} {values : List α} {count : Nat} {chosen : Nat → Prop}
  {indexes : List Nat} {points : List (Point α)}

theorem PointsAt.times_eq (made : PointsAt start resolution values count chosen indexes points) :
    points.map Point.timestamp = indexes.map fun (index : Nat) => start + index * resolution := by
  have related := made.made
  clear made
  induction related with
  | nil => rfl
  | cons first _ ih => rw [List.map_cons, List.map_cons, ih, first.2]

theorem PointsAt.times_increasing
    (made : PointsAt start resolution values count chosen indexes points)
    (positive : 0 < resolution) : (points.map Point.timestamp).Pairwise (· < ·) := by
  rw [made.times_eq, List.pairwise_map]
  refine made.increasing.imp fun {first second} less => ?_
  have further : (first : Int) * resolution < second * resolution :=
    Int.mul_lt_mul_of_pos_right (by omega) positive
  omega

end Times

structure Counted (decoder : Decoder) (start : Int) (groups : List (RowGroup α))
    (group : RowGroup α) (value : Row α) (series : Series α) : Prop where
  valued : group.value = some value
  points : ∃ indexes, PointsAt start value.resolution (decoder.shownValues group value)
    value.values.length (fun index => decoder.shows groups group index = true) indexes
    series.points
  increasing : series.times.Pairwise (· < ·)
  bounded : ∀ time ∈ series.times, start ≤ time ∧ time ≤ Text.maxSigned64

theorem counted_of_series {made : Series α}
    (success : decoder.series start groups group = .ok made) :
    ∃ value, decoder.Counted start groups group value made := by
  obtain ⟨value, part, valued, _, fitting, rfl⟩ := series_eq_ok success
  obtain ⟨positive, _, ends⟩ := fits_eq_true_iff.1 fitting
  obtain ⟨indexes, points⟩ := pointsAt_filter start value.resolution
    (decoder.shownValues group value) (decoder.shows groups group)
  rw [← seriesPoints_eq, length_shownValues] at points
  refine ⟨value, valued, ⟨indexes, points⟩, points.times_increasing positive, ?_⟩
  intro time member
  rw [Series.times, points.times_eq, List.mem_map] at member
  obtain ⟨index, listed, rfl⟩ := member
  obtain ⟨low, high⟩ := offset_bounds positive ((points.mem_iff index).1 listed).1
  omega

/-- What is decoded in 64 bits is what is decoded in unbounded numbers, so nothing
overflows, as long as no row has more values than there are numbers of 64 bits. A
start beyond these is refused, and a value row exactly if its resolution is not
positive or one of its indexes, shown or not, has an offset or a time beyond them.
What is decoded has the start that was given, and a series the times that its
indexes have, one after the other from the start up to the greatest number of 64
bits. -/
theorem decode_in_words (decoder : Decoder) (response : Response α)
    (held : ∀ row ∈ response.rows, (row.values.length : Int) ≤ Text.maxSigned64) :
    decoder.wordDecode? response = some (decoder.decode response) ∧
    (word? (1000 * response.start) = none →
      decoder.decode response = .error (.invalidTime (Json.writeInt response.start))) ∧
    (∀ instant, Instant.ofMillis? (1000 * response.start) = some instant →
      ∀ (groups : List (RowGroup α)) group value part, group.value = some value →
        decoder.parts[group.key.index]? = some part →
        (decoder.series (1000 * response.start) groups group =
            .error (.invalidResolution group.key.index value.resolution) ↔
          ¬TimesFit (1000 * response.start) value)) ∧
    ∀ decoded, decoder.decode response = .ok decoded →
      decoded.start.toMillis = 1000 * response.start ∧
      ∃ groups, decoder.groupRows response.rows = .ok groups ∧
        List.Forall₂ (fun group series =>
          ∃ value, decoder.Counted (1000 * response.start) groups group value series)
          groups decoded.series := by
  refine ⟨wordDecode?_eq decoder response held, fun beyond => ?_, ?_, fun decoded success => ?_⟩
  · have refused : Instant.ofMillis? (1000 * response.start) = none := by
      refine Option.eq_none_iff_forall_not_mem.2 fun instant known => ?_
      obtain ⟨low, high⟩ := Instant.bounds_of_ofMillis? known
      rw [word?_eq_some (Int.le_of_lt low) (Int.le_of_lt high)] at beyond
      cases beyond
    simp only [decode, refused]
  · intro instant known groups group value part valued present
    obtain ⟨low, high⟩ := Instant.bounds_of_ofMillis? known
    rw [← fits_iff_timesFit (Int.le_of_lt low) (Int.le_of_lt high)]
    simp only [series, valued, present]
    cases fits (1000 * response.start) value <;> simp
  · obtain ⟨begun, groups, grouped, made⟩ := decode_eq_ok success
    refine ⟨Instant.toMillis_of_ofMillis? begun, groups, grouped, ?_⟩
    exact made.imp fun group series built => counted_of_series built

/-- A start before 1970, and a row whose last time is the greatest that its resolution
allows; the confidence of the other two is not positive. -/
theorem decode_in_words_widest :
    let decoder : Decoder := ⟨[Part.ofSelector ⟨"org", .all, none, none⟩], .aligned⟩
    let response : Response Float := ⟨-5, [⟨"'0'.'v'", 4611686018427387903, [1, 2, 3]⟩,
      ⟨"'0'.'c'", 4611686018427387903, [0, 0, 1]⟩]⟩
    (∀ row ∈ response.rows, (row.values.length : Int) ≤ Text.maxSigned64) ∧
      decoder.wordDecode? response = some (decoder.decode response) ∧
      ∃ decoded, decoder.decode response = .ok decoded ∧
        decoded.start.toMillis = -5000 ∧
        decoded.series.map Series.times = [[9223372036854770806]] := by
  intro decoder response
  have held : ∀ row ∈ response.rows, (row.values.length : Int) ≤ Text.maxSigned64 := by
    simp only [response, List.forall_mem_cons]
    exact ⟨by decide, by decide, by simp⟩
  obtain ⟨same, _, _, counted⟩ := decode_in_words decoder response held
  have times : (decoder.decode response).toOption.map (fun decoded =>
      decoded.series.map Series.times) = some [[9223372036854770806]] := by decide +kernel
  cases success : decoder.decode response with
  | error error => rw [success] at times; cases times
  | ok decoded =>
    rw [success] at times same
    exact ⟨held, same, decoded, rfl, (counted decoded success).1, Option.some.inj times⟩

end Decoder

end MetricQuery

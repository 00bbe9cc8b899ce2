import MetricQuery.Proofs.Gating

/-!
# Shared confidence

Which values of an aligned series become points, told by the groups of its
response. The confidence of a group counts for all groups of its metadata and
occurrence, whatever their parts. The three lists at work, the values of a series,
its own confidence and that of the others, may have any lengths.
-/

set_option autoImplicit false

namespace MetricQuery.Decoder

variable {α : Type} [Sample α]

/-- A confidence row is positive at an index, of some group of the metadata and
occurrence of the given one. -/
def ConfidentAt (groups : List (RowGroup α)) (group : RowGroup α) (index : Nat) : Prop :=
  ∃ other ∈ groups, other.key.metadata = group.key.metadata ∧
    other.occurrence = group.occurrence ∧
    ∃ confidence, other.confidence = some confidence ∧
      Series.positiveAt confidence.values index = true

structure PointsAt (start resolution : Int) (values : List α) (count : Nat) (chosen : Nat → Prop)
    (indexes : List Nat) (points : List (Point α)) : Prop where
  increasing : indexes.Pairwise (· < ·)
  mem_iff : ∀ index, index ∈ indexes ↔ index < count ∧ chosen index
  made : List.Forall₂ (fun (index : Nat) (point : Point α) =>
    values[index]? = some point.value ∧ point.timestamp = start + index * resolution)
    indexes points

/-! ## Gates and overlays -/

omit [Sample α] in
/-- The points of chosen indexes keep the order of these. -/
theorem pointsAt_filter (start resolution : Int) (values : List α) (chosen : Nat → Bool) :
    ∃ indexes, PointsAt start resolution values values.length
      (fun index => chosen index = true) indexes
      ((values.zipIdx.filter fun entry => chosen entry.2).map (pointOf start resolution)) := by
  let kept := values.zipIdx.filter fun entry => chosen entry.2
  have listed : ∀ entry ∈ kept, values[entry.2]? = some entry.1 := fun entry member =>
    List.mem_zipIdx_iff_getElem?.1 (List.mem_of_mem_filter member)
  refine ⟨kept.map Prod.snd, ?_, fun index => ?_, ?_⟩
  · have ordered : (values.zipIdx.map Prod.snd).Pairwise (· < ·) := by
      rw [List.zipIdx_map_snd]
      exact List.pairwise_lt_range'
    exact ordered.sublist (List.filter_sublist.map Prod.snd)
  · constructor
    · intro member
      obtain ⟨entry, inside, rfl⟩ := List.mem_map.1 member
      exact ⟨(List.getElem?_eq_some_iff.1 (listed entry inside)).1, (List.mem_filter.1 inside).2⟩
    · rintro ⟨inside, holds⟩
      have here : (values[index], index) ∈ values.zipIdx :=
        List.mem_zipIdx_iff_getElem?.2 (List.getElem?_eq_getElem inside)
      exact List.mem_map.2 ⟨_, List.mem_filter.2 ⟨here, holds⟩, rfl⟩
  · rw [List.forall₂_map_left_iff, List.forall₂_map_right_iff, List.forall₂_same]
    exact fun entry member => ⟨listed entry member, rfl⟩

/-- A gate keeps the order of the indexes that it lets through. -/
theorem pointsAt_gate (start resolution : Int) (values confidence : List α) :
    ∃ indexes, PointsAt start resolution values values.length
      (fun index => Series.positiveAt confidence index = true) indexes
      (gate (pointsFrom start resolution values) confidence) := by
  rw [gate_pointsFrom]
  exact pointsAt_filter start resolution values (Series.positiveAt confidence)

/-- An overlay is positive exactly where some group of its metadata and occurrence
is confident. -/
theorem positiveAt_overlay_iff [LawfulSample α] (groups : List (RowGroup α)) (group : RowGroup α)
    (index : Nat) :
    Series.positiveAt (overlay groups group) index = true ↔ ConfidentAt groups group index := by
  rw [overlay_eq, Series.positiveAt_overlayOf, List.any_map, List.any_eq_true]
  simp only [confidencesAt, List.mem_filterMap, List.mem_filter, Bool.and_eq_true, beq_iff_eq]
  constructor
  · rintro ⟨confidence, ⟨other, ⟨member, metadata, occurrence⟩, held⟩, positive⟩
    exact ⟨other, member, metadata, occurrence, confidence, held, positive⟩
  · rintro ⟨other, member, metadata, occurrence, confidence, held, positive⟩
    exact ⟨confidence, ⟨other, ⟨member, metadata, occurrence⟩, held⟩, positive⟩

omit [Sample α] in
theorem confidencesAt_append (front back : List (RowGroup α)) (metadata : List String)
    (occurrence : Nat) :
    confidencesAt (front ++ back) metadata occurrence =
      confidencesAt front metadata occurrence ++ confidencesAt back metadata occurrence := by
  simp [confidencesAt]

omit [Sample α] in
theorem confidencesAt_cons_of_plain {group : RowGroup α} (plain : group.confidence = none)
    (groups : List (RowGroup α)) (metadata : List String) (occurrence : Nat) :
    confidencesAt (group :: groups) metadata occurrence =
      confidencesAt groups metadata occurrence := by
  unfold confidencesAt
  rw [List.filter_cons]
  split
  · rw [List.filterMap_cons, plain]
  · rfl

/-- A group without a confidence row leaves all overlays as they are. -/
theorem overlay_eraseIdx {groups : List (RowGroup α)} {position : Nat} {group : RowGroup α}
    (here : groups[position]? = some group) (plain : group.confidence = none)
    (other : RowGroup α) : overlay (groups.eraseIdx position) other = overlay groups other := by
  obtain ⟨inside, rfl⟩ := List.getElem?_eq_some_iff.1 here
  rw [overlay_eq, overlay_eq, List.eraseIdx_eq_take_drop_succ, confidencesAt_append]
  conv_rhs => rw [← List.take_append_drop position groups, List.drop_eq_getElem_cons inside,
    confidencesAt_append, confidencesAt_cons_of_plain plain]

/-! ## Series -/

structure MadeTogether (start : Int) (groups : List (RowGroup α)) (group : RowGroup α)
    (value : Row α) (series : Series α) : Prop where
  valued : group.value = some value
  confident : ∀ confidence, group.confidence = some confidence →
    ∃ indexes, PointsAt start value.resolution
      (Series.interpolate value.values confidence.values) value.values.length
      (ConfidentAt groups group) indexes series.points
  /-- Without a confidence row there is a point for each value. -/
  plain : group.confidence = none →
    series.points = value.values.zipIdx.map (pointOf start value.resolution)

theorem madeTogether_of_series [LawfulSample α] {parts : List Part} {start : Int}
    {groups : List (RowGroup α)} {group : RowGroup α} {made : Series α}
    (success : series ⟨parts, .aligned⟩ start groups group = .ok made) :
    ∃ value, MadeTogether start groups group value made := by
  obtain ⟨value, part, valued, _, _, rfl⟩ := series_eq_ok success
  refine ⟨value, valued, fun confidence own => ?_, fun own => ?_⟩
  · obtain ⟨indexes, increasing, mem_iff, made⟩ := pointsAt_gate start value.resolution
      (Series.interpolate value.values confidence.values) (overlay groups group)
    simp only [positiveAt_overlay_iff, Series.length_interpolate] at mem_iff
    refine ⟨indexes, increasing, mem_iff, ?_⟩
    simpa only [seriesPoints, own] using made
  · have points := pointsFrom_eq value.values start value.resolution 0
    rw [Int.natCast_zero, Int.zero_mul, Int.add_zero] at points
    simpa only [seriesPoints, own] using points

structure Matches (left right : RowGroup α) : Prop where
  metadata : left.key.metadata = right.key.metadata
  occurrence : left.occurrence = right.occurrence
  confident : left.confidence.isSome ∧ right.confidence.isSome
  resolution : left.value.map Row.resolution = right.value.map Row.resolution
  count : left.value.map (·.values.length) = right.value.map (·.values.length)

theorem times_eq_of_matches {parts : List Part} {start : Int} {groups : List (RowGroup α)}
    {left right : RowGroup α} {leftSeries rightSeries : Series α}
    (leftMade : series ⟨parts, .aligned⟩ start groups left = .ok leftSeries)
    (rightMade : series ⟨parts, .aligned⟩ start groups right = .ok rightSeries)
    (alike : Matches left right) : leftSeries.times = rightSeries.times := by
  obtain ⟨leftValue, _, leftValued, _, _, rfl⟩ := series_eq_ok leftMade
  obtain ⟨rightValue, _, rightValued, _, _, rfl⟩ := series_eq_ok rightMade
  obtain ⟨leftOwn, leftConfident⟩ := Option.isSome_iff_exists.1 alike.confident.1
  obtain ⟨rightOwn, rightConfident⟩ := Option.isSome_iff_exists.1 alike.confident.2
  have resolution : leftValue.resolution = rightValue.resolution := by
    simpa [leftValued, rightValued] using alike.resolution
  have count : leftValue.values.length = rightValue.values.length := by
    simpa [leftValued, rightValued] using alike.count
  rw [Series.times, Series.times, seriesPoints_timestamp rfl start groups leftConfident,
    seriesPoints_timestamp rfl start groups rightConfident, alike.metadata, alike.occurrence,
    resolution, count]

/-! ## Responses -/

/-- A response that is decoded has one series for each of its groups, in their
order. Where a group has a confidence row, the points of its series are those of
the indexes of its values at which some confidence row of its metadata and
occurrence is positive: there the values interpolated by its own confidence have
the times of its own resolution. A group without one keeps all values, and no
overlay depends on it. So series of the same metadata and occurrence have the
same times, where they have confidence rows and as many values of the same
resolution. -/
theorem decode_aligned_points [LawfulSample α] (parts : List Part) (response : Response α)
    (decoded : DecodedResponse α) (success : decode ⟨parts, .aligned⟩ response = .ok decoded) :
    ∃ groups, groupRows ⟨parts, .aligned⟩ response.rows = .ok groups ∧
      decoded.series.length = groups.length ∧
      (∀ (position : Nat) group made, groups[position]? = some group →
        decoded.series[position]? = some made →
        (∃ value, MadeTogether (1000 * response.start) groups group value made) ∧
        (group.confidence = none → ∀ other,
          overlay (groups.eraseIdx position) other = overlay groups other)) ∧
      ∀ (first second : Nat) left right leftSeries rightSeries, groups[first]? = some left →
        groups[second]? = some right → decoded.series[first]? = some leftSeries →
        decoded.series[second]? = some rightSeries → Matches left right →
        leftSeries.times = rightSeries.times := by
  obtain ⟨_, groups, grouped, made⟩ := decode_eq_ok success
  have paired : ∀ {position : Nat} {group : RowGroup α} {series : Series α},
      groups[position]? = some group → decoded.series[position]? = some series →
      Decoder.series ⟨parts, .aligned⟩ (1000 * response.start) groups group = .ok series := by
    intro position group series groupHere seriesHere
    obtain ⟨groupInside, rfl⟩ := List.getElem?_eq_some_iff.1 groupHere
    obtain ⟨seriesInside, rfl⟩ := List.getElem?_eq_some_iff.1 seriesHere
    exact made.get groupInside seriesInside
  refine ⟨groups, grouped, made.length_eq.symm, ?_, ?_⟩
  · intro position group series here there
    exact ⟨madeTogether_of_series (paired here there), overlay_eraseIdx here⟩
  · intro first second left right leftSeries rightSeries leftHere rightHere leftThere rightThere
      alike
    exact times_eq_of_matches (paired leftHere leftThere) (paired rightHere rightThere) alike

/-- The first part has more values than confidences, the second one fewer, the
third one no confidences at all and the fourth one an empty row of them. -/
theorem decode_aligned_points_ragged :
    let parts := ["cpu", "mem", "disk", "net"].map fun segment =>
      Part.ofSelector ⟨"org", .path [segment], none, none⟩
    let response : Response Float := ⟨5, [⟨"'0'.'v'.'web-1'", 1000, [10, 20, 30, 40]⟩,
      ⟨"'0'.'c'.'web-1'", 1000, [1]⟩, ⟨"'1'.'v'.'web-1'", 1000, [1, 2]⟩,
      ⟨"'1'.'c'.'web-1'", 1000, [0, 0, 0, 1, 1]⟩, ⟨"'2'.'v'.'web-1'", 1000, [7, 8, 9]⟩,
      ⟨"'3'.'v'.'web-1'", 1000, [5, 6, 7, 8]⟩, ⟨"'3'.'c'.'web-1'", 1000, []⟩]⟩
    ∃ decoded, decode ⟨parts, .aligned⟩ response = .ok decoded ∧
      decoded.series.map Series.times =
        [[5000, 8000], [5000], [5000, 6000, 7000], [5000, 8000]] ∧
      ∃ groups, groupRows ⟨parts, .aligned⟩ response.rows = .ok groups ∧
        groups.map RowGroup.place = (List.range 4).map (⟨⟨·, ["web-1"]⟩, 0⟩) ∧
        ∀ (position : Nat) group made, groups[position]? = some group →
          decoded.series[position]? = some made →
          ∃ value, MadeTogether 5000 groups group value made := by
  intro parts response
  have times : (decode ⟨parts, .aligned⟩ response).toOption.map (fun decoded =>
      decoded.series.map Series.times) =
        some [[5000, 8000], [5000], [5000, 6000, 7000], [5000, 8000]] := by decide +kernel
  cases success : decode ⟨parts, .aligned⟩ response with
  | error error => rw [success] at times; cases times
  | ok decoded =>
    obtain ⟨groups, grouped, _, made, _⟩ := decode_aligned_points parts response decoded success
    have order := (grouped_of_groupRows response.rows grouped).order
    rw [show ((Decoder.mk parts .aligned).reached response.rows).eraseDups =
      (List.range 4).map (⟨⟨·, ["web-1"]⟩, 0⟩) by decide +kernel] at order
    rw [success] at times
    refine ⟨decoded, rfl, Option.some.inj times, groups, grouped, order, ?_⟩
    intro position group series here there
    exact (made position group series here there).1

end MetricQuery.Decoder

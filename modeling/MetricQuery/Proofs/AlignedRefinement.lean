import MetricQuery.Proofs.Decodability
import MetricQuery.Proofs.Gating

/-!
# Aligned series refine gated ones

Aligned decoding accepts and refuses the same responses as gating by the own
confidence of each series, and describes the same series. It keeps all points
of that decoding, and adds interpolated ones where another series of the same
metadata and occurrence is confident.
-/

set_option autoImplicit false

namespace MetricQuery

variable {α : Type}

def Series.outline (series : Series α) : Part × String × Bindings String :=
  (series.part, series.name, series.tags)

def DecodedResponse.outline (decoded : DecodedResponse α) :
    Instant × List (Part × String × Bindings String) :=
  (decoded.start, decoded.series.map Series.outline)

/-- Lists that agree where a condition on the index holds have the same entries
there. -/
theorem filter_zipIdx_congr {condition : Nat → Bool} (xs : List α) :
    ∀ (ys : List α) (start : Nat), xs.length = ys.length →
      (∀ index, condition (start + index) = true → xs[index]? = ys[index]?) →
      (xs.zipIdx start).filter (fun entry => condition entry.2) =
        (ys.zipIdx start).filter (fun entry => condition entry.2) := by
  induction xs with
  | nil =>
    intro ys start lengths _
    rw [List.length_eq_zero_iff.1 lengths.symm]
  | cons x xs ih =>
    intro ys start lengths agree
    cases ys with
    | nil => cases lengths
    | cons y ys =>
      have rest := ih ys (start + 1) (Nat.succ.inj lengths) fun index holds => by
        simpa using agree (index + 1) (by rwa [Nat.add_right_comm] at holds)
      rw [List.zipIdx_cons, List.zipIdx_cons, List.filter_cons, List.filter_cons, rest]
      by_cases holds : condition start = true
      · have same : x = y := by simpa using agree 0 holds
        rw [same]
      · simp [holds]

namespace Decoder

/-! ## Points -/

theorem mem_map_pointOf {start resolution : Int} {values : List α} {condition : Nat → Bool}
    {point : Point α} :
    point ∈ (values.zipIdx.filter fun entry => condition entry.2).map (pointOf start resolution) ↔
      ∃ index value, values[index]? = some value ∧ condition index = true ∧
        point = ⟨value, start + index * resolution⟩ := by
  simp only [List.mem_map, List.mem_filter, Prod.exists, List.mem_zipIdx_iff_getElem?]
  constructor
  · rintro ⟨value, index, ⟨here, holds⟩, rfl⟩
    exact ⟨index, value, here, holds, rfl⟩
  · rintro ⟨index, value, here, holds, rfl⟩
    exact ⟨value, index, ⟨here, holds⟩, rfl⟩

theorem index_eq_of_times {start resolution : Int} (increasing : 0 < resolution) {index other : Nat}
    (same : start + (index : Int) * resolution = start + (other : Int) * resolution) :
    index = other := by
  have products : (index : Int) * resolution = other * resolution := by omega
  exact Int.ofNat.inj (Int.eq_of_mul_eq_mul_right (Int.ne_of_gt increasing) products)

variable [Sample α]

/-- How the points of an aligned series compare to those of the series gated by
its own confidence, where `shared` are the indexes at which some series of the
same metadata and occurrence is confident. -/
structure RefinesPoints (start : Int) (value : Row α) (own : Option (Row α)) (shared : Nat → Prop)
    (gated aligned : List (Point α)) : Prop where
  kept : gated.Sublist aligned
  /-- Without a confidence row there is a point for each value. -/
  plain : own = none → aligned = gated ∧
    gated = value.values.zipIdx.map (pointOf start value.resolution)
  confident : ∀ confidence, own = some confidence →
    gated = (value.values.zipIdx.filter fun entry =>
      Series.positiveAt confidence.values entry.2).map (pointOf start value.resolution)
  added : ∀ confidence, own = some confidence → ∀ point, (point ∈ aligned ∧ point ∉ gated) ↔
    ∃ index filled, (Series.interpolate value.values confidence.values)[index]? = some filled ∧
      Series.positiveAt confidence.values index = false ∧ shared index ∧
      point = ⟨filled, start + index * value.resolution⟩
  alone : (∀ confidence, own = some confidence → ∀ index, shared index →
    Series.positiveAt confidence.values index = true) → aligned = gated

/-- The gates of a series by its own confidence and by one that is positive
wherever its own is. -/
theorem refinesPoints_gate {start : Int} {value confidence : Row α} {overlay : List α}
    {shared : Nat → Prop} (increasing : 0 < value.resolution)
    (covered : ∀ index, Series.positiveAt confidence.values index = true →
      Series.positiveAt overlay index = true)
    (spread : ∀ index, Series.positiveAt overlay index = true ↔ shared index) :
    RefinesPoints start value (some confidence) shared
      (gate (pointsFrom start value.resolution value.values) confidence.values)
      (gate (pointsFrom start value.resolution
        (Series.interpolate value.values confidence.values)) overlay) := by
  have same : (value.values.zipIdx.filter fun entry =>
        Series.positiveAt confidence.values entry.2) =
      (Series.interpolate value.values confidence.values).zipIdx.filter fun entry =>
        Series.positiveAt confidence.values entry.2 := by
    refine filter_zipIdx_congr _ _ 0 (Series.length_interpolate _ _).symm fun index positive => ?_
    rw [Nat.zero_add] at positive
    exact (Series.getElem?_interpolate positive).symm
  rw [gate_pointsFrom, gate_pointsFrom]
  refine ⟨?_, nofun, ?_, ?_, ?_⟩
  · have inner : ((Series.interpolate value.values confidence.values).zipIdx.filter fun entry =>
          Series.positiveAt overlay entry.2).filter (fun entry =>
            Series.positiveAt confidence.values entry.2) =
        (Series.interpolate value.values confidence.values).zipIdx.filter fun entry =>
          Series.positiveAt confidence.values entry.2 := by
      rw [List.filter_filter]
      refine List.filter_congr fun entry _ => ?_
      cases positive : Series.positiveAt confidence.values entry.2 with
      | false => rfl
      | true => rw [covered _ positive]; rfl
    rw [same, ← inner]
    exact List.filter_sublist.map _
  · intro held own
    rw [Option.some.inj own]
  · intro held own point
    obtain rfl := Option.some.inj own
    rw [same, mem_map_pointOf, mem_map_pointOf]
    constructor
    · rintro ⟨⟨index, filled, here, positive, rfl⟩, outside⟩
      refine ⟨index, filled, here, ?_, (spread index).1 positive, rfl⟩
      by_contra confident
      exact outside ⟨index, filled, here, Bool.not_eq_false _ ▸ confident, rfl⟩
    · rintro ⟨index, filled, here, unsure, among, rfl⟩
      refine ⟨⟨index, filled, here, (spread index).2 among, rfl⟩, ?_⟩
      rintro ⟨other, value, _, positive, equal⟩
      obtain ⟨_, times⟩ := Point.mk.inj equal
      rw [← index_eq_of_times increasing times, unsure] at positive
      cases positive
  · intro own
    rw [same]
    refine congrArg _ (List.filter_congr fun entry _ => ?_)
    rw [Bool.eq_iff_iff]
    constructor
    · intro positive
      exact own confidence rfl entry.2 ((spread entry.2).1 positive)
    · exact covered entry.2

/-- The points of the series of a group, in both ways of decoding. -/
theorem refinesPoints_seriesPoints [LawfulSample α] {parts : List Part} {rows : List (Row α)}
    {groups : List (RowGroup α)} (grouped : Grouped ⟨parts, .on⟩ rows groups) (start : Int)
    {group : RowGroup α} (member : group ∈ groups) {value : Row α}
    (increasing : 0 < value.resolution) :
    RefinesPoints start value group.confidence (Shared ⟨parts, .on⟩ rows group.place)
      (seriesPoints ⟨parts, .on⟩ start groups group value)
      (seriesPoints ⟨parts, .aligned⟩ start groups group value) := by
  cases own : group.confidence with
  | none =>
    have points := pointsFrom_eq value.values start value.resolution 0
    rw [Int.natCast_zero, Int.zero_mul, Int.add_zero] at points
    have gated : seriesPoints ⟨parts, .on⟩ start groups group value =
        pointsFrom start value.resolution value.values := by simp [seriesPoints, own]
    have aligned : seriesPoints ⟨parts, .aligned⟩ start groups group value =
        pointsFrom start value.resolution value.values := by simp [seriesPoints, own]
    rw [gated, aligned]
    refine ⟨List.Sublist.refl _, fun _ => ⟨rfl, points⟩, ?_, ?_, fun _ => rfl⟩
    · intro confidence impossible
      cases impossible
    · intro confidence impossible
      cases impossible
  | some confidence =>
    have gated : seriesPoints ⟨parts, .on⟩ start groups group value =
        gate (pointsFrom start value.resolution value.values) confidence.values := by
      simp [seriesPoints, own]
    have aligned : seriesPoints ⟨parts, .aligned⟩ start groups group value =
        gate (pointsFrom start value.resolution
          (Series.interpolate value.values confidence.values)) (overlay groups group) := by
      simp [seriesPoints, own]
    have spread := positiveAt_overlay grouped group
    rw [gated, aligned]
    refine refinesPoints_gate increasing (fun index positive => (spread index).2 ?_) spread
    obtain ⟨_, made⟩ := (grouped.mem_iff group).1 member
    rw [made] at own
    exact ⟨group.key.index, confidence, own, positive⟩

/-! ## Responses -/

theorem outline_series (parts : List Part) (start : Int) (groups : List (RowGroup α))
    (group : RowGroup α) :
    (series ⟨parts, .on⟩ start groups group).map Series.outline =
      (series ⟨parts, .aligned⟩ start groups group).map Series.outline := by
  unfold series
  cases group.value with
  | none => rfl
  | some value =>
    cases parts[group.key.index]? with
    | none => rfl
    | some part =>
      by_cases fitting : fits start value = true
      · simp only [if_pos fitting]
        rfl
      · simp only [if_neg fitting]

omit [Sample α] in
/-- Both ways of decoding group rows alike, as names are read alike. -/
theorem groupRows_aligned (parts : List Part) (rows : List (Row α)) :
    groupRows ⟨parts, .aligned⟩ rows = groupRows ⟨parts, .on⟩ rows := rfl

theorem outline_decode (parts : List Part) (response : Response α) :
    (decode ⟨parts, .on⟩ response).map DecodedResponse.outline =
      (decode ⟨parts, .aligned⟩ response).map DecodedResponse.outline := by
  cases begun : Instant.ofMillis? (1000 * response.start) with
  | none => simp only [decode, begun]
  | some instant =>
    cases grouped : groupRows ⟨parts, .on⟩ response.rows with
    | error error => simp only [decode, begun, groupRows_aligned, grouped]
    | ok groups =>
      have outlines : ∀ result : Except QueryError (List (Series α)),
          (result.map (DecodedResponse.mk instant)).map DecodedResponse.outline =
            (result.map (List.map Series.outline)).map (Prod.mk instant) := by
        intro result
        cases result <;> rfl
      have alike := funext (outline_series parts (1000 * response.start) groups)
      rw [decode_of_groupRows begun grouped, decode_of_groupRows begun
        ((groupRows_aligned parts response.rows).trans grouped), outlines, outlines, map_mapM,
        map_mapM, alike]

variable [LawfulSample α]

/-- Aligned decoding refuses a response exactly if gating does, and for the same
error. Otherwise it gives the same start and, in the same order, series of the
same parts, names and tags. Each has all points of the gated one. Its other
points are interpolated, at the indexes where its own confidence is missing or
not positive, and where that of a row of the same metadata and occurrence is. -/
theorem aligned_refines_gated (parts : List Part) (response : Response α) :
    (decode ⟨parts, .on⟩ response).map DecodedResponse.outline =
      (decode ⟨parts, .aligned⟩ response).map DecodedResponse.outline ∧
    ∀ gated aligned, decode ⟨parts, .on⟩ response = .ok gated →
      decode ⟨parts, .aligned⟩ response = .ok aligned →
      let decoder : Decoder := ⟨parts, .on⟩
      let places := (decoder.reached response.rows).eraseDups
      gated.series.length = places.length ∧ aligned.series.length = places.length ∧
      ∀ (position : Nat) place left right, places[position]? = some place →
        gated.series[position]? = some left → aligned.series[position]? = some right →
        ∃ value, (decoder.rowsOf place.1 .value response.rows)[place.2]? = some value ∧
          RefinesPoints (1000 * response.start) value
            (decoder.rowsOf place.1 .confidence response.rows)[place.2]?
            (Shared decoder response.rows place) left.points right.points ∧
          ((∀ (part : Nat) row, (decoder.rowsOf ⟨part, place.1.metadata⟩ .confidence
              response.rows)[place.2]? = some row → part = place.1.index) →
            right.points = left.points) := by
  refine ⟨outline_decode parts response, ?_⟩
  intro gated aligned gatedDecoded alignedDecoded decoder places
  obtain ⟨_, groups, success, gatedMade⟩ := decode_eq_ok gatedDecoded
  obtain ⟨_, others, again, alignedMade⟩ := decode_eq_ok alignedDecoded
  obtain rfl : groups = others := Except.ok.inj (success.symm.trans again)
  have grouped := grouped_of_groupRows response.rows success
  have count : groups.length = places.length := by
    rw [← List.length_map (f := RowGroup.place), grouped.order]
  refine ⟨gatedMade.length_eq.symm.trans count, alignedMade.length_eq.symm.trans count, ?_⟩
  intro position place left right placed leftHere rightHere
  obtain ⟨leftInside, rfl⟩ := List.getElem?_eq_some_iff.1 leftHere
  obtain ⟨rightInside, rfl⟩ := List.getElem?_eq_some_iff.1 rightHere
  have inside : position < groups.length := gatedMade.length_eq ▸ leftInside
  have member : groups[position] ∈ groups := List.getElem_mem inside
  have leftSuccess : series ⟨parts, .on⟩ (1000 * response.start) groups groups[position] =
      .ok gated.series[position] := gatedMade.get inside leftInside
  have rightSuccess : series ⟨parts, .aligned⟩ (1000 * response.start) groups groups[position] =
      .ok aligned.series[position] := alignedMade.get inside rightInside
  obtain ⟨value, _, valued, _, fitting, leftMade⟩ := series_eq_ok leftSuccess
  obtain ⟨other, _, same, _, _, rightMade⟩ := series_eq_ok rightSuccess
  obtain rfl := Option.some.inj (valued.symm.trans same)
  have here : groups[position].place = place := by
    have listed : (groups.map RowGroup.place)[position]? = some place := grouped.order ▸ placed
    simpa [inside] using listed
  have held : ∀ channel, groups[position].row? channel =
      (decoder.rowsOf place.1 channel response.rows)[place.2]? := by
    intro channel
    rw [((grouped.mem_iff _).1 member).2, row?_groupAt, ← here]
    rfl
  have refined := refinesPoints_seriesPoints grouped (1000 * response.start) member
    (fits_iff.1 fitting).1
  rw [here, show groups[position].confidence = _ from held .confidence] at refined
  rw [leftMade, rightMade]
  refine ⟨value, (held .value).symm.trans valued, refined, fun only => refined.alone ?_⟩
  rintro confidence own index ⟨part, row, there, positive⟩
  rw [only part row there, own] at there
  rwa [Option.some.inj there]

/-- The first series is confident at its first value only, the second one at its
second value only. -/
theorem aligned_refines_gated_shared :
    let parts := [Part.ofSelector ⟨"org", .path ["cpu"], none, none⟩,
      Part.ofSelector ⟨"org", .path ["mem"], none, none⟩]
    let response : Response Float := ⟨0, [⟨"'1'.'c'.'web-1'", 1000, [0, 1]⟩,
      ⟨"'0'.'v'.'web-1'", 1000, [10, 20]⟩, ⟨"'1'.'v'.'web-1'", 1000, [1, 2]⟩,
      ⟨"'0'.'c'.'web-1'", 1000, [1, 0]⟩]⟩
    ∃ gated aligned left right, decode ⟨parts, .on⟩ response = .ok gated ∧
      decode ⟨parts, .aligned⟩ response = .ok aligned ∧ gated.series[1]? = some left ∧
      aligned.series[1]? = some right ∧ left.points.Sublist right.points ∧
      left.times = [0] ∧ right.times = [0, 1000] := by
  intro parts response
  have times : ∀ confidence : Confidence, confidence.isEnabled = true →
      (decode ⟨parts, confidence⟩ response).toOption.map (fun decoded =>
        decoded.series[1]?.map Series.times) =
          some (some (if confidence = .on then [0] else [0, 1000])) := by
    intro confidence enabled
    cases confidence
    · cases enabled
    · decide +kernel
    · decide +kernel
  have onTimes := times .on rfl
  have alignedTimes := times .aligned rfl
  cases gatedDecoded : decode ⟨parts, .on⟩ response with
  | error error => rw [gatedDecoded] at onTimes; cases onTimes
  | ok gated =>
    cases alignedDecoded : decode ⟨parts, .aligned⟩ response with
    | error error => rw [alignedDecoded] at alignedTimes; cases alignedTimes
    | ok aligned =>
      rw [gatedDecoded] at onTimes
      rw [alignedDecoded] at alignedTimes
      simp only [Except.toOption, Option.map_some, Option.some.injEq, Option.map_eq_some_iff]
        at onTimes alignedTimes
      obtain ⟨left, leftHere, leftTimes⟩ := onTimes
      obtain ⟨right, rightHere, rightTimes⟩ := alignedTimes
      have placed : ((Decoder.mk parts .on).reached response.rows).eraseDups[1]? =
          some (⟨0, ["web-1"]⟩, 0) := by decide +kernel
      obtain ⟨_, _, refined⟩ :=
        (aligned_refines_gated parts response).2 gated aligned gatedDecoded alignedDecoded
      obtain ⟨_, _, points, _⟩ := refined 1 _ left right placed leftHere rightHere
      exact ⟨gated, aligned, left, right, rfl, rfl, leftHere, rightHere, points.kept, leftTimes,
        rightTimes⟩

end Decoder

end MetricQuery

import MetricQuery.Proofs.Echo

/-!
# Aligned series

Aligned decoding gates the series of the same metadata and occurrence by one
overlay, so that they have the same times. The metadata of a series is all that
stands behind the channel in its name: the values of the tags, and the sections
that the label comes back as.
-/

set_option autoImplicit false

namespace MetricQuery

variable {α : Type}

namespace Series

variable [Sample α]

theorem length_fillGap (before after : Option α) (gap : List α) :
    (fillGap before after gap).length = gap.length := by
  cases before <;> cases after <;> simp [fillGap]

theorem length_markConfident (values confidence : List α) :
    (markConfident values confidence).length = values.length := by
  induction values generalizing confidence with
  | nil => rw [markConfident, List.length_nil, List.length_nil]
  | cons value values ih => cases confidence <;> simp [markConfident, ih]

theorem length_fillGaps (marked : List (α × Bool)) (before : Option α) (gap : List α) :
    (fillGaps before gap marked).length = gap.length + marked.length := by
  induction marked generalizing before gap with
  | nil => simp [fillGaps, length_fillGap]
  | cons head rest ih =>
    obtain ⟨value, confident⟩ := head
    cases confident with
    | true => simp [fillGaps, length_fillGap, ih]
    | false =>
      rw [fillGaps, ih, List.length_cons, List.length_cons]
      omega

theorem length_interpolate (values confidence : List α) :
    (interpolate values confidence).length = values.length := by
  rw [interpolate, length_fillGaps, length_markConfident, List.length_nil, Nat.zero_add]

end Series

/-! ## Times -/

def Series.times (series : Series α) : List Int :=
  series.points.map Point.timestamp

namespace Decoder

def timesFrom (timestamp resolution : Int) : Nat → List Int
  | 0 => []
  | count + 1 => timestamp :: timesFrom (timestamp + resolution) resolution count

theorem pointsFrom_timestamp (values : List α) (timestamp resolution : Int) :
    (pointsFrom timestamp resolution values).map Point.timestamp =
      timesFrom timestamp resolution values.length := by
  induction values generalizing timestamp with
  | nil => rfl
  | cons value values ih => rw [pointsFrom, List.map_cons, ih]; rfl

/-- The confidence rows of the groups of some metadata and occurrence. -/
def confidencesAt (groups : List (RowGroup α)) (metadata : List String) (occurrence : Nat) :
    List (Row α) :=
  (groups.filter fun group =>
    group.key.metadata == metadata && group.occurrence == occurrence).filterMap RowGroup.confidence

theorem mem_confidencesAt {decoder : Decoder} {rows : List (Row α)} {groups : List (RowGroup α)}
    (grouped : decoder.Grouped rows groups) (metadata : List String) (occurrence : Nat)
    (row : Row α) :
    row ∈ confidencesAt groups metadata occurrence ↔
      ∃ index, (decoder.rowsOf ⟨index, metadata⟩ .confidence rows)[occurrence]? = some row := by
  simp only [confidencesAt, List.mem_filterMap, List.mem_filter, Bool.and_eq_true, beq_iff_eq]
  constructor
  · rintro ⟨group, ⟨member, rfl, rfl⟩, held⟩
    rw [((grouped.mem_iff group).1 member).2] at held
    exact ⟨group.key.index, held⟩
  · rintro ⟨index, held⟩
    have inside := Nat.lt_of_lt_of_le (List.getElem?_eq_some_iff.1 held).1
      (length_rowsOf_le decoder rows ⟨index, metadata⟩ .confidence)
    exact ⟨_, ⟨grouped.groupAt_mem inside, rfl, rfl⟩, held⟩

variable [Sample α]

def gateTimes (times : List Int) (confidence : List α) : List Int :=
  ((times.zip confidence).filter fun pair => Sample.positive pair.2).map Prod.fst

theorem gate_timestamp (points : List (Point α)) (confidence : List α) :
    (gate points confidence).map Point.timestamp =
      gateTimes (points.map Point.timestamp) confidence := by
  simp [gate, gateTimes, List.zip_map_left, List.filter_map, Function.comp_def]

theorem overlay_eq (groups : List (RowGroup α)) (group : RowGroup α) :
    overlay groups group = Series.overlayOf
      ((confidencesAt groups group.key.metadata group.occurrence).map Row.values) := by
  rw [overlay, confidencesAt, List.map_filterMap]

/-- The times of an aligned series follow from the resolution and the number of its
values, and from the confidence of all series of its metadata and occurrence. -/
theorem seriesPoints_timestamp {decoder : Decoder} (aligned : decoder.confidence = .aligned)
    (start : Int) (groups : List (RowGroup α)) {group : RowGroup α} {confidence : Row α}
    (held : group.confidence = some confidence) (value : Row α) :
    (decoder.seriesPoints start groups group value).map Point.timestamp =
      gateTimes (timesFrom start value.resolution value.values.length) (Series.overlayOf
        ((confidencesAt groups group.key.metadata group.occurrence).map Row.values)) := by
  simp only [seriesPoints, aligned, held, gate_timestamp, pointsFrom_timestamp,
    Series.length_interpolate, overlay_eq]

end Decoder

/-! ## Echoed rows -/

theorem Confidence.mem_channels_aligned (channel : Channel) :
    channel ∈ Confidence.aligned.channels := by
  cases channel <;> decide

theorem Part.tags_copy (part : Part) (confidence : Confidence) (index : Nat) (channel : Channel) :
    (part.copy confidence index channel).tags = part.tags := by
  rw [Part.tags, Part.copy_annotated]
  rfl

/-- Rows that the server may answer to the query that is sent: each is named by
the alias of one of its parts, with values for the tags. -/
def Query.Echoed (query : Query) (confidence : Confidence) (rows : List (Row α)) : Prop :=
  ∀ row ∈ rows, ∃ copy ∈ (query.prepared confidence).parts, ∃ values : List String,
    values.length = copy.tags.length ∧ row.name = copy.annotated.echo values

theorem Query.Echoed.nil (query : Query) (confidence : Confidence) :
    query.Echoed confidence ([] : List (Row α)) := by
  intro row member
  cases member

theorem Query.Echoed.cons {query : Query} {confidence : Confidence} {rows : List (Row α)}
    (rest : query.Echoed confidence rows) {index : Nat} {part : Part} {channel : Channel}
    (known : query.parts[index]? = some part) (sent : channel ∈ confidence.channels)
    {values : List String} (valued : values.length = part.tags.length) {row : Row α}
    (named : row.name = (part.copy confidence index channel).annotated.echo values) :
    query.Echoed confidence (row :: rows) := by
  refine List.forall_mem_cons.2 ⟨⟨part.copy confidence index channel, ?_, values, ?_, named⟩, rest⟩
  · refine List.mem_of_getElem? (i := confidence.place index channel) ?_
    rw [Query.getElem?_prepared query confidence sent, known, Option.map_some]
  · rw [valued, Part.tags_copy]

def Part.echoes (part : Part) (confidence : Confidence) (index : Nat) (channel : Channel)
    (values : List String) (rows : List (Row α)) : List (Row α) :=
  rows.filter fun row => row.name = (part.copy confidence index channel).annotated.echo values

structure Answer (α : Type) where
  index : Nat
  part : Part
  value : Row α
  confidence : Row α

def Answer.row (answer : Answer α) : Channel → Row α
  | .value => answer.value
  | .confidence => answer.confidence

/-- A part of the query is answered by a value row and a confidence row, which come
at the same place among the rows that echo the copies for their channels. -/
structure Query.Answered (query : Query) (rows : List (Row α)) (values : List String)
    (occurrence : Nat) (answer : Answer α) : Prop where
  known : query.parts[answer.index]? = some answer.part
  valued : values.length = answer.part.tags.length
  held : ∀ channel, (answer.part.echoes .aligned answer.index channel values rows)[occurrence]? =
    some (answer.row channel)

namespace Decoder

/-- The series of a group. Series stand in the order in which the rows reach their
groups. -/
def seriesAt? (decoder : Decoder) (response : Response α) (decoded : DecodedResponse α)
    (place : RowKey × Nat) : Option (Series α) :=
  decoded.series[(decoder.reached response.rows).eraseDups.idxOf place]?

/-- Among echoed rows, those of a key are the ones of the name that was echoed. -/
theorem rowsOf_eq_echoes {query : Query} {confidence : Confidence} {rows : List (Row α)}
    (echoed : query.Echoed confidence rows) {index : Nat} {part : Part} {channel : Channel}
    (known : query.parts[index]? = some part) (sent : channel ∈ confidence.channels)
    (bound : index ≤ Text.maxUnsigned64) {label : List String}
    (labeled : part.annotated.labelSections? = some label) (values : List String) :
    (query.decoder confidence).rowsOf ⟨index, values ++ label⟩ channel rows =
      part.echoes confidence index channel values rows := by
  refine List.filter_congr fun row member => ?_
  rw [Bool.eq_iff_iff, decide_eq_true_iff, encodes_eq_true_iff]
  constructor
  · -- The name echoes some copy, but no other one than ours encodes this key.
    intro parsed
    obtain ⟨copy, among, others, _, named⟩ := echoed row member
    obtain ⟨place, other, through, there, allowed, rfl⟩ := Query.exists_of_mem_prepared among
    rw [named, parseName_echo_eq_ok_iff there allowed] at parsed
    obtain ⟨_, rfl, last, again, same⟩ := parsed
    obtain ⟨rfl, metadata⟩ := RowKey.mk.inj same
    obtain rfl := Option.some.inj (known.symm.trans there)
    obtain rfl := Option.some.inj (labeled.symm.trans again)
    rw [named, List.append_cancel_right metadata]
  · intro named
    rw [named, parseName_echo_eq_ok_iff known sent]
    exact ⟨bound, rfl, label, labeled, rfl⟩

theorem exists_parsed {decoder : Decoder} {rows : List (Row α)} {groups : List (RowGroup α)}
    (success : decoder.groupRows rows = .ok groups) {row : Row α} (member : row ∈ rows) :
    ∃ key channel, decoder.parseName row.name = .ok (key, channel) := by
  obtain ⟨position, here⟩ := List.mem_iff_getElem?.1 member
  obtain ⟨slot, _, _, own, _⟩ := step_of_groupRows success here
  obtain ⟨found, there, parsed, _⟩ := rowsOf_of_slotAt own
  obtain rfl := Option.some.inj (here.symm.trans there)
  exact ⟨_, _, parsed⟩

theorem mem_of_answered {query : Query} {rows : List (Row α)} {groups : List (RowGroup α)}
    (echoed : query.Echoed .aligned rows)
    (success : (query.decoder .aligned).groupRows rows = .ok groups) {values : List String}
    {occurrence : Nat} {answer : Answer α} (answered : query.Answered rows values occurrence answer)
    {label : List String} (labeled : answer.part.annotated.labelSections? = some label) :
    ∃ group ∈ groups, group.place = (⟨answer.index, values ++ label⟩, occurrence) ∧
      group.value = some answer.value ∧ group.confidence = some answer.confidence := by
  have sent := Confidence.mem_channels_aligned
  obtain ⟨member, named⟩ := List.mem_filter.1 (List.mem_of_getElem? (answered.held .value))
  obtain ⟨_, _, parsed⟩ := exists_parsed success member
  rw [of_decide_eq_true named, parseName_echo_eq_ok_iff answered.known (sent .value)] at parsed
  have own := fun channel =>
    rowsOf_eq_echoes echoed answered.known (sent channel) parsed.1 labeled values
  refine ⟨_, (placesRows_of_groupRows success).paired _ _ _ _ ?_ ?_, rfl, rfl, rfl⟩
  · rw [own .value, answered.held .value]
    rfl
  · rw [own .confidence, answered.held .confidence]
    rfl

theorem seriesAt?_of_mem [Sample α] {decoder : Decoder} {response : Response α}
    {decoded : DecodedResponse α} {groups : List (RowGroup α)}
    (grouped : decoder.groupRows response.rows = .ok groups)
    (success : decoder.decode response = .ok decoded) {group : RowGroup α}
    (member : group ∈ groups) :
    ∃ series, decoder.seriesAt? response decoded group.place = some series ∧
      decoder.series (1000 * response.start) groups group = .ok series := by
  obtain ⟨_, others, again, made⟩ := decode_eq_ok success
  obtain rfl : groups = others := Except.ok.inj (grouped.symm.trans again)
  obtain ⟨position, inside, rfl⟩ := List.mem_iff_getElem.1 member
  have known := grouped_of_groupRows response.rows grouped
  have listed : position < (groups.map RowGroup.place).length := by simpa using inside
  have here : (groups.map RowGroup.place).idxOf groups[position].place = position := by
    have unique := known.places_nodup.idxOf_getElem position listed
    simpa using unique
  have answered : position < decoded.series.length := made.length_eq ▸ inside
  refine ⟨decoded.series[position], ?_, made.get inside answered⟩
  rw [seriesAt?, ← known.order, here, List.getElem?_eq_getElem answered]

theorem exists_series_of_answered [Sample α] {query : Query} {response : Response α}
    {decoded : DecodedResponse α} {groups : List (RowGroup α)}
    (echoed : query.Echoed .aligned response.rows)
    (grouped : (query.decoder .aligned).groupRows response.rows = .ok groups)
    (success : (query.decoder .aligned).decode response = .ok decoded) {values : List String}
    {occurrence : Nat} {answer : Answer α}
    (answered : query.Answered response.rows values occurrence answer) {label : List String}
    (labeled : answer.part.annotated.labelSections? = some label) :
    ∃ series, (query.decoder .aligned).seriesAt? response decoded
        (⟨answer.index, values ++ label⟩, occurrence) = some series ∧
      Describes answer.part values series ∧
      series.times = gateTimes (timesFrom (1000 * response.start) answer.value.resolution
        answer.value.values.length) (Series.overlayOf
          ((confidencesAt groups (values ++ label) occurrence).map Row.values)) := by
  obtain ⟨group, member, placed, valued, confident⟩ :=
    mem_of_answered echoed grouped answered labeled
  obtain ⟨series, here, made⟩ := seriesAt?_of_mem grouped success member
  obtain ⟨keyed, counted⟩ := Prod.mk.inj placed
  have known : (query.decoder .aligned).parts[group.key.index]? = some answer.part := by
    rw [keyed]
    exact answered.known
  have metadata : group.key.metadata = values ++ label := by rw [keyed]
  have described := describes_of_series known metadata answered.valued made
  obtain ⟨value, _, found, _, _, rfl⟩ := series_eq_ok made
  obtain rfl := Option.some.inj (valued.symm.trans found)
  have aligned : (query.decoder .aligned).confidence = .aligned := rfl
  have times := seriesPoints_timestamp aligned (1000 * response.start) groups confident answer.value
  rw [metadata, counted] at times
  rw [placed] at here
  exact ⟨_, here, described, times⟩

/-- Two parts of a query are answered with the same values of their tags, for both
channels, at the same place among their rows, and with as many values of the same
resolution. Where their labels come back as the same sections, their series have
the same times: those at which the greatest confidence is positive, of all rows of
any part with these values and sections at that place. -/
theorem decode_aligned_times [Sample α] (query : Query) (response : Response α)
    (decoded : DecodedResponse α) (echoed : query.Echoed .aligned response.rows)
    (success : (query.decoder .aligned).decode response = .ok decoded) (values : List String)
    (occurrence : Nat) (left right : Answer α)
    (leftAnswered : query.Answered response.rows values occurrence left)
    (rightAnswered : query.Answered response.rows values occurrence right)
    (resolution : left.value.resolution = right.value.resolution)
    (count : left.value.values.length = right.value.values.length) (label : List String)
    (leftLabel : left.part.annotated.labelSections? = some label)
    (rightLabel : right.part.annotated.labelSections? = some label) :
    ∃ (leftSeries rightSeries : Series α) (confidences : List (Row α)),
      (query.decoder .aligned).seriesAt? response decoded
        (⟨left.index, values ++ label⟩, occurrence) = some leftSeries ∧
      (query.decoder .aligned).seriesAt? response decoded
        (⟨right.index, values ++ label⟩, occurrence) = some rightSeries ∧
      Describes left.part values leftSeries ∧ Describes right.part values rightSeries ∧
      (∀ row, row ∈ confidences ↔ ∃ index, ((query.decoder .aligned).rowsOf
        ⟨index, values ++ label⟩ .confidence response.rows)[occurrence]? = some row) ∧
      leftSeries.times = gateTimes (timesFrom (1000 * response.start) left.value.resolution
        left.value.values.length) (Series.overlayOf (confidences.map Row.values)) ∧
      leftSeries.times = rightSeries.times := by
  obtain ⟨_, groups, grouped, _⟩ := decode_eq_ok success
  obtain ⟨leftSeries, leftHere, leftDescribed, leftTimes⟩ :=
    exists_series_of_answered echoed grouped success leftAnswered leftLabel
  obtain ⟨rightSeries, rightHere, rightDescribed, rightTimes⟩ :=
    exists_series_of_answered echoed grouped success rightAnswered rightLabel
  have members := mem_confidencesAt (grouped_of_groupRows response.rows grouped) (values ++ label)
    occurrence
  refine ⟨leftSeries, rightSeries, _, leftHere, rightHere, leftDescribed, rightDescribed, members,
    leftTimes, ?_⟩
  rw [leftTimes, rightTimes, resolution, count]

theorem answered_of_names {query : Query} {values : List String} {left right : Answer α}
    (leftKnown : query.parts[left.index]? = some left.part)
    (rightKnown : query.parts[right.index]? = some right.part)
    (leftValued : values.length = left.part.tags.length)
    (rightValued : values.length = right.part.tags.length)
    (leftNamed : ∀ channel, (left.part.copy .aligned left.index channel).annotated.echo values =
      (left.row channel).name)
    (rightNamed : ∀ channel, (right.part.copy .aligned right.index channel).annotated.echo values =
      (right.row channel).name)
    (distinct : [left.value.name, left.confidence.name, right.value.name,
      right.confidence.name].Nodup) :
    let rows := [left.value, left.confidence, right.value, right.confidence]
    query.Echoed .aligned rows ∧ query.Answered rows values 0 left ∧
      query.Answered rows values 0 right := by
  intro rows
  have sent := Confidence.mem_channels_aligned
  have last := (Query.Echoed.nil query .aligned).cons rightKnown (sent .confidence) rightValued
    (rightNamed .confidence).symm
  have third := last.cons rightKnown (sent .value) rightValued (rightNamed .value).symm
  have second := third.cons leftKnown (sent .confidence) leftValued (leftNamed .confidence).symm
  have all := second.cons leftKnown (sent .value) leftValued (leftNamed .value).symm
  simp only [List.nodup_cons, List.mem_cons, List.not_mem_nil, not_or, or_false] at distinct
  refine ⟨all, ⟨leftKnown, leftValued, fun channel => ?_⟩,
    ⟨rightKnown, rightValued, fun channel => ?_⟩⟩ <;>
    cases channel <;> simp [Part.echoes, rows, leftNamed, rightNamed, Answer.row, distinct]

/-- One label stands between quotes already, the other one does not. Both series
have all times, though neither part is confident at both. -/
theorem decode_aligned_times_quoted :
    let left : Part := ⟨⟨"org", .path ["cpu"], none, none⟩, none,
      some ⟨some "sent", [⟨some "dl", "host"⟩], [], ∅⟩, none, false⟩
    let right : Part := ⟨⟨"org", .path ["mem"], none, none⟩, none,
      some ⟨some "'sent'", [⟨some "dl", "host"⟩], [], ∅⟩, none, false⟩
    let query : Query := { Query.empty with parts := [left, right] }
    let first : Answer Float := ⟨0, left, ⟨"'0'.'v'.'web-1'.'sent'", 1000, [10, 20]⟩,
      ⟨"'0'.'c'.'web-1'.'sent'", 1000, [1, 0]⟩⟩
    let second : Answer Float := ⟨1, right, ⟨"'1'.'v'.'web-1'.'sent'", 1000, [1, 2]⟩,
      ⟨"'1'.'c'.'web-1'.'sent'", 1000, [0, 1]⟩⟩
    let rows := [first.value, first.confidence, second.value, second.confidence]
    query.Echoed .aligned rows ∧ query.Answered rows ["web-1"] 0 first ∧
      query.Answered rows ["web-1"] 0 second ∧
      left.annotated.labelSections? = some ["sent"] ∧
      right.annotated.labelSections? = some ["sent"] ∧
      ∃ decoded leftSeries rightSeries, (query.decoder .aligned).decode ⟨0, rows⟩ = .ok decoded ∧
        (query.decoder .aligned).seriesAt? ⟨0, rows⟩ decoded (⟨0, ["web-1", "sent"]⟩, 0) =
          some leftSeries ∧
        (query.decoder .aligned).seriesAt? ⟨0, rows⟩ decoded (⟨1, ["web-1", "sent"]⟩, 0) =
          some rightSeries ∧
        leftSeries.times = rightSeries.times ∧ leftSeries.times = [0, 1000] := by
  intro left right query first second rows
  obtain ⟨echoed, leftAnswered, rightAnswered⟩ :=
    @answered_of_names Float query ["web-1"] first second rfl rfl rfl rfl
      (fun channel => by cases channel <;> decide +kernel)
      (fun channel => by cases channel <;> decide +kernel) (by decide +kernel)
  have leftLabel : left.annotated.labelSections? = some ["sent"] := by decide +kernel
  have rightLabel : right.annotated.labelSections? = some ["sent"] := by decide +kernel
  have count : first.value.values.length = second.value.values.length := by decide
  have times : ((query.decoder .aligned).decode ⟨0, rows⟩).toOption.map (fun decoded =>
      ((query.decoder .aligned).seriesAt? ⟨0, rows⟩ decoded (⟨0, ["web-1", "sent"]⟩, 0)).map
        Series.times) = some (some [0, 1000]) := by decide +kernel
  refine ⟨echoed, leftAnswered, rightAnswered, leftLabel, rightLabel, ?_⟩
  cases success : (query.decoder .aligned).decode ⟨0, rows⟩ with
  | error error =>
    rw [success] at times
    cases times
  | ok decoded =>
    obtain ⟨leftSeries, rightSeries, _, leftHere, rightHere, _, _, _, _, same⟩ :=
      decode_aligned_times query ⟨0, rows⟩ decoded echoed success ["web-1"] 0 first second
        leftAnswered rightAnswered rfl count ["sent"] leftLabel rightLabel
    rw [success] at times
    simp only [Except.toOption, Option.map_some, Option.some.injEq, Option.map_eq_some_iff] at times
    obtain ⟨found, here, computed⟩ := times
    obtain rfl := Option.some.inj (leftHere.symm.trans here)
    exact ⟨decoded, leftSeries, rightSeries, rfl, leftHere, rightHere, same, computed⟩

/-- Labels that come back as other sections keep the series of two parts apart:
each is gated by its own confidence, and their times differ. -/
theorem decode_aligned_times_apart :
    let left : Part := ⟨⟨"org", .path ["cpu"], none, none⟩, none,
      some ⟨some "sent", [⟨some "dl", "host"⟩], [], ∅⟩, none, false⟩
    let right : Part := ⟨⟨"org", .path ["mem"], none, none⟩, none,
      some ⟨some "received", [⟨some "dl", "host"⟩], [], ∅⟩, none, false⟩
    let query : Query := { Query.empty with parts := [left, right] }
    let first : Answer Float := ⟨0, left, ⟨"'0'.'v'.'web-1'.'sent'", 1000, [10, 20]⟩,
      ⟨"'0'.'c'.'web-1'.'sent'", 1000, [1, 0]⟩⟩
    let second : Answer Float := ⟨1, right, ⟨"'1'.'v'.'web-1'.'received'", 1000, [1, 2]⟩,
      ⟨"'1'.'c'.'web-1'.'received'", 1000, [0, 1]⟩⟩
    let rows := [first.value, first.confidence, second.value, second.confidence]
    query.Echoed .aligned rows ∧ query.Answered rows ["web-1"] 0 first ∧
      query.Answered rows ["web-1"] 0 second ∧
      first.value.resolution = second.value.resolution ∧
      first.value.values.length = second.value.values.length ∧
      ∃ decoded leftSeries rightSeries, (query.decoder .aligned).decode ⟨0, rows⟩ = .ok decoded ∧
        (query.decoder .aligned).seriesAt? ⟨0, rows⟩ decoded (⟨0, ["web-1", "sent"]⟩, 0) =
          some leftSeries ∧
        (query.decoder .aligned).seriesAt? ⟨0, rows⟩ decoded (⟨1, ["web-1", "received"]⟩, 0) =
          some rightSeries ∧
        leftSeries.times = [0] ∧ rightSeries.times = [1000] := by
  intro left right query first second rows
  obtain ⟨echoed, leftAnswered, rightAnswered⟩ :=
    @answered_of_names Float query ["web-1"] first second rfl rfl rfl rfl
      (fun channel => by cases channel <;> decide +kernel)
      (fun channel => by cases channel <;> decide +kernel) (by decide +kernel)
  have times : ((query.decoder .aligned).decode ⟨0, rows⟩).toOption.map (fun decoded =>
      [((query.decoder .aligned).seriesAt? ⟨0, rows⟩ decoded (⟨0, ["web-1", "sent"]⟩, 0)).map
        Series.times,
      ((query.decoder .aligned).seriesAt? ⟨0, rows⟩ decoded (⟨1, ["web-1", "received"]⟩, 0)).map
        Series.times]) = some [some [0], some [1000]] := by decide +kernel
  have count : first.value.values.length = second.value.values.length := by decide
  refine ⟨echoed, leftAnswered, rightAnswered, rfl, count, ?_⟩
  cases success : (query.decoder .aligned).decode ⟨0, rows⟩ with
  | error error =>
    rw [success] at times
    cases times
  | ok decoded =>
    rw [success] at times
    simp only [Except.toOption, Option.map_some, Option.some.injEq, List.cons.injEq,
      Option.map_eq_some_iff, and_true] at times
    obtain ⟨⟨leftSeries, leftHere, leftTimes⟩, rightSeries, rightHere, rightTimes⟩ := times
    exact ⟨decoded, leftSeries, rightSeries, rfl, leftHere, rightHere, leftTimes, rightTimes⟩

end Decoder

end MetricQuery

import MetricQuery.Proofs.Grouping
import MetricQuery.Proofs.Results

/-!
# Rows and series

Every row of a response stands once in its groups, and a value row and a
confidence row meet exactly if they come at the same place among the rows of
their key and channel, in whatever order the rows of other keys and channels
come. A decoded response has one series for each value row.
-/

set_option autoImplicit false

namespace MetricQuery

variable {α : Type}

namespace Decoder

structure PlacesRows (decoder : Decoder) (rows : List (Row α)) (groups : List (RowGroup α)) :
    Prop where
  /-- Every row has a slot to itself, which belongs to one group and holds the row. -/
  placed : ∀ position row, rows[position]? = some row →
    ∃ slot, decoder.slotAt rows position = some slot ∧
      (∀ other, decoder.slotAt rows other = some slot → other = position) ∧
      ∃ (index : Nat) (group : RowGroup α), groups[index]? = some group ∧
        group.place = slot.place ∧ group.row? slot.channel = some row ∧
        ∀ other alike, groups[other]? = some alike → alike.place = slot.place → other = index
  /-- No slot holds anything else. -/
  held : ∀ group ∈ groups, ∀ channel row, group.row? channel = some row →
    ∃ position, rows[position]? = some row ∧
      decoder.slotAt rows position = some ⟨group.key, group.occurrence, channel⟩
  /-- In its turn every row is put into its slot, which is free: the search for a
  free slot ends there. -/
  steps : ∀ position row, rows[position]? = some row →
    ∃ slot before after, decoder.slotAt rows position = some slot ∧
      decoder.groupRows (rows.take position) = .ok before ∧
      decoder.groupRows (rows.take (position + 1)) = .ok after ∧
      (∀ final, Search before slot.key slot.channel 0 final ↔ final = slot.occurrence) ∧
      Puts row slot before after
  /-- The value row and the confidence row at the same place among those of a key
  stand in one group. -/
  paired : ∀ key occurrence value confidence,
    (decoder.rowsOf key .value rows)[occurrence]? = some value →
    (decoder.rowsOf key .confidence rows)[occurrence]? = some confidence →
    ⟨key, occurrence, some value, some confidence⟩ ∈ groups
  /-- The groups stand in the order in which the rows reach them first. -/
  order : groups.map RowGroup.place = (decoder.reached rows).eraseDups

/-- How series come from value rows: each series is made of one group, each group
has a value row, and these are all of the value rows. Where confidence is off,
these are the rows themselves, in their order. -/
def SeriesOfRows [Sample α] (decoder : Decoder) (start : Int) (rows : List (Row α))
    (groups : List (RowGroup α)) (series : List (Series α)) : Prop :=
  List.Forall₂ (fun group made => decoder.series start groups group = .ok made) groups series ∧
  ∃ values, groups.map RowGroup.value = values.map some ∧
    values.Perm (rows.filter (decoder.inChannel .value)) ∧
    (decoder.confidence = .off → values = rows)

variable {decoder : Decoder} {rows : List (Row α)} {groups : List (RowGroup α)}

theorem step_of_groupRows (success : decoder.groupRows rows = .ok groups) {position : Nat}
    {row : Row α} (here : rows[position]? = some row) :
    ∃ slot before after, decoder.slotAt rows position = some slot ∧
      decoder.groupRows (rows.take position) = .ok before ∧
      decoder.groupRows (rows.take (position + 1)) = .ok after ∧
      (∀ final, Search before slot.key slot.channel 0 final ↔ final = slot.occurrence) ∧
      Puts row slot before after := by
  have taken : rows.take (position + 1) = rows.take position ++ [row] := by
    rw [List.take_add_one, here]
    rfl
  rw [← List.take_append_drop (position + 1) rows] at success
  obtain ⟨after, prefixed, _⟩ := foldlM_append_eq_ok success
  have last := prefixed
  rw [taken] at last
  obtain ⟨before, earlier, added⟩ := foldlM_concat_eq_ok last
  obtain ⟨key, channel, parsed, placed⟩ := addRow_eq_ok added
  have grouped := grouped_of_groupRows (rows.take position) earlier
  exact ⟨_, before, after, by rw [slotAt, here, Option.bind_some, slotAfter_eq parsed], earlier,
    prefixed, grouped.search_iff key channel, grouped.puts placed⟩

theorem index_unique (distinct : (groups.map RowGroup.place).Nodup) {first second : Nat}
    {left right : RowGroup α} (leftHere : groups[first]? = some left)
    (rightHere : groups[second]? = some right) (same : left.place = right.place) :
    first = second := by
  have inside : first < (groups.map RowGroup.place).length := by
    simpa using (List.getElem?_eq_some_iff.1 leftHere).1
  refine (List.getElem?_inj inside distinct).1 ?_
  rw [List.getElem?_map, List.getElem?_map, leftHere, rightHere, Option.map_some, Option.map_some,
    same]

theorem placesRows_of_groupRows (success : decoder.groupRows rows = .ok groups) :
    decoder.PlacesRows rows groups where
  placed position row here := by
    have grouped := grouped_of_groupRows rows success
    obtain ⟨slot, _, _, own, _⟩ := step_of_groupRows success here
    refine ⟨slot, own, fun other same => slotAt_injective same own, ?_⟩
    obtain ⟨found, there, _, counted⟩ := rowsOf_of_slotAt own
    obtain rfl := Option.some.inj (here.symm.trans there)
    obtain ⟨bound, _⟩ := List.getElem?_eq_some_iff.1 counted
    have member := grouped.groupAt_mem
      (Nat.lt_of_lt_of_le bound (length_rowsOf_le decoder rows slot.key slot.channel))
    obtain ⟨index, inside⟩ := List.mem_iff_getElem?.1 member
    refine ⟨index, _, inside, rfl, by rw [row?_groupAt, counted], ?_⟩
    intro other alike elsewhere same
    exact index_unique grouped.places_nodup elsewhere inside same
  held group member channel row found := by
    obtain ⟨_, made⟩ := ((grouped_of_groupRows rows success).mem_iff group).1 member
    rw [made, row?_groupAt] at found
    exact slotAt_of_rowsOf rows found
  steps _ _ here := step_of_groupRows success here
  paired key occurrence value confidence valued confident := by
    have grouped := grouped_of_groupRows rows success
    obtain ⟨bound, _⟩ := List.getElem?_eq_some_iff.1 valued
    have member := grouped.groupAt_mem
      (Nat.lt_of_lt_of_le bound (length_rowsOf_le decoder rows key .value))
    rwa [groupAt, valued, confident] at member
  order := (grouped_of_groupRows rows success).order

theorem decode_eq_ok [Sample α] {response : Response α} {decoded : DecodedResponse α}
    (success : decoder.decode response = .ok decoded) :
    Instant.ofMillis? (1000 * response.start) = some decoded.start ∧
    ∃ groups, decoder.groupRows response.rows = .ok groups ∧
      List.Forall₂ (fun group made => decoder.series (1000 * response.start) groups group = .ok made)
        groups decoded.series := by
  unfold decode at success
  simp only at success
  split at success
  · cases success
  · rename_i instant begun
    split at success
    · cases success
    · rename_i groups grouped
      split at success
      · cases success
      · rename_i series made
        obtain rfl := Except.ok.inj success
        exact ⟨begun, groups, grouped, (mapM_eq_ok_iff _ _ _).1 made⟩

theorem series_eq_ok [Sample α] {start : Int} {group : RowGroup α} {made : Series α}
    (success : decoder.series start groups group = .ok made) :
    ∃ value part, group.value = some value ∧ decoder.parts[group.key.index]? = some part ∧
      fits start value = true ∧
      made = ⟨part, seriesName part, seriesTags part group.key.metadata,
        decoder.seriesPoints start groups group value⟩ := by
  unfold series at success
  split at success
  · cases success
  · cases success
  · rename_i value part valued known
    split at success
    · rename_i fitting
      exact ⟨value, part, valued, known, fitting, (Except.ok.inj success).symm⟩
    · cases success

theorem seriesOfRows_of_decode [Sample α] {start : Int} {decoded : DecodedResponse α}
    (grouped : decoder.groupRows rows = .ok groups)
    (success : decoder.decode ⟨start, rows⟩ = .ok decoded) :
    decoder.SeriesOfRows (1000 * start) rows groups decoded.series := by
  obtain ⟨_, others, again, made⟩ := decode_eq_ok success
  obtain rfl : groups = others := Except.ok.inj (grouped.symm.trans again)
  have held : ∀ group ∈ groups, ∃ value, group.value = some value := by
    intro group member
    obtain ⟨series, _, success⟩ := forall₂_left made group member
    obtain ⟨value, _, valued, _⟩ := series_eq_ok success
    exact ⟨value, valued⟩
  have valued : groups.map RowGroup.value = (groups.filterMap RowGroup.value).map some := by
    rw [List.map_filterMap_some_eq_filter_map_isSome, List.filter_eq_self.2]
    intro value member
    obtain ⟨group, inside, rfl⟩ := List.mem_map.1 member
    obtain ⟨value, valued⟩ := held group inside
    rw [valued]
    rfl
  refine ⟨made, groups.filterMap RowGroup.value, valued,
    (grouped_of_groupRows rows grouped).kept .value, fun off => ?_⟩
  have same := values_of_off off rows grouped
  rw [valued] at same
  exact List.map_injective_iff.2 (fun _ _ => Option.some.inj) same

/-- Rows whose names encode keys and channels are grouped, unless two rows of one
group differ in their resolution: each row stands once in the groups, in the slot
at which the search for a free one ends, and a value row and a confidence row
meet exactly if they come at the same place among those of their key. A response
of such rows that is decoded has one series for each value row. -/
theorem groupRows_placesRows [Sample α] (decoder : Decoder) (rows : List (Row α))
    (parsed : ∀ row ∈ rows, ∃ name, decoder.parseName row.name = .ok name)
    (matched : ∀ index value confidence,
      decoder.groupRows rows ≠ .error (.mismatchedResolution index value confidence)) :
    ∃ groups, decoder.groupRows rows = .ok groups ∧ decoder.PlacesRows rows groups ∧
      ∀ start decoded, decoder.decode ⟨start, rows⟩ = .ok decoded →
        decoder.SeriesOfRows (1000 * start) rows groups decoded.series := by
  obtain ⟨groups, success⟩ := groupRows_success parsed matched
  refine ⟨groups, success, placesRows_of_groupRows success, ?_⟩
  intro start decoded decodes
  exact seriesOfRows_of_decode success decodes

/-- Confidence rows come before, between and after the value rows of their keys,
and one key comes twice. -/
theorem groupRows_placesRows_interleaved :
    let decoder : Decoder := ⟨[Part.ofSelector ⟨"org", .all, none, none⟩], .on⟩
    let rows : List (Row Float) := [⟨"'0'.'c'.'a'", 10, []⟩, ⟨"'0'.'v'.'b'", 20, []⟩,
      ⟨"'0'.'v'.'a'", 10, []⟩, ⟨"'0'.'v'.'a'", 30, []⟩, ⟨"'0'.'c'.'b'", 20, []⟩,
      ⟨"'0'.'c'.'a'", 30, []⟩]
    (∀ row ∈ rows, ∃ name, decoder.parseName row.name = .ok name) ∧
    (∀ index value confidence,
      decoder.groupRows rows ≠ .error (.mismatchedResolution index value confidence)) ∧
    ∃ groups, decoder.groupRows rows = .ok groups ∧ decoder.PlacesRows rows groups ∧
      ∀ start decoded, decoder.decode ⟨start, rows⟩ = .ok decoded →
        decoder.SeriesOfRows (1000 * start) rows groups decoded.series := by
  intro decoder rows
  have parsed : ∀ row ∈ rows, ∃ name, decoder.parseName row.name = .ok name := by
    simp only [rows, List.forall_mem_cons, List.not_mem_nil, false_implies, implies_true, and_true]
    exact ⟨⟨_, rfl⟩, ⟨_, rfl⟩, ⟨_, rfl⟩, ⟨_, rfl⟩, ⟨_, rfl⟩, ⟨_, rfl⟩⟩
  have matched : ∀ index value confidence,
      decoder.groupRows rows ≠ .error (.mismatchedResolution index value confidence) := by
    intro index value confidence failure
    have success : (decoder.groupRows rows).isOk = true := by decide +kernel
    rw [failure] at success
    cases success
  exact ⟨parsed, matched, groupRows_placesRows decoder rows parsed matched⟩

end Decoder

end MetricQuery

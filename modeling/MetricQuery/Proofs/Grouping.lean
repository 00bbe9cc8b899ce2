import Mathlib.Data.List.Nodup
import MetricQuery.Proofs.Placement
import MetricQuery.Proofs.Results

/-!
# Grouping rows

The groups that some rows lead to are known in full: of each key there are as
many as its channels need, each with the rows of its occurrence, and they stand
in the order in which the rows reach them. Placing one more row keeps this.
-/

set_option autoImplicit false

namespace MetricQuery

variable {α : Type}

namespace Decoder

/-- The group of an occurrence: the rows at that place among those of the key and
each channel. -/
def groupAt (decoder : Decoder) (rows : List (Row α)) (key : RowKey) (occurrence : Nat) :
    RowGroup α :=
  ⟨key, occurrence, (decoder.rowsOf key .value rows)[occurrence]?,
    (decoder.rowsOf key .confidence rows)[occurrence]?⟩

/-- As many groups as the channel with the most rows needs. -/
def groupCount (decoder : Decoder) (rows : List (Row α)) (key : RowKey) : Nat :=
  max (decoder.rowsOf key .value rows).length (decoder.rowsOf key .confidence rows).length

/-- The groups of rows: of each key all occurrences in their order, and all of
them in the order in which the rows reach them. Each channel holds its rows. -/
structure Grouped (decoder : Decoder) (rows : List (Row α)) (groups : List (RowGroup α)) :
    Prop where
  ofKey_eq : ∀ key, ofKey key groups =
    (List.range (decoder.groupCount rows key)).map (decoder.groupAt rows key)
  order : groups.map RowGroup.place = (decoder.reached rows).eraseDups
  kept : ∀ channel, (groups.filterMap (·.row? channel)).Perm
    (rows.filter (decoder.inChannel channel))

section Groups

variable {decoder : Decoder} {rows : List (Row α)} {groups after : List (RowGroup α)}
  {key : RowKey} {channel : Channel} {row : Row α}

@[simp] theorem groupAt_key (decoder : Decoder) (rows : List (Row α)) (key : RowKey)
    (occurrence : Nat) : (decoder.groupAt rows key occurrence).key = key :=
  rfl

@[simp] theorem groupAt_place (decoder : Decoder) (rows : List (Row α)) (key : RowKey)
    (occurrence : Nat) : (decoder.groupAt rows key occurrence).place = (key, occurrence) :=
  rfl

@[simp] theorem row?_groupAt (decoder : Decoder) (rows : List (Row α)) (key : RowKey)
    (occurrence : Nat) (channel : Channel) :
    (decoder.groupAt rows key occurrence).row? channel =
      (decoder.rowsOf key channel rows)[occurrence]? := by
  cases channel <;> rfl

theorem length_rowsOf_le (decoder : Decoder) (rows : List (Row α)) (key : RowKey)
    (channel : Channel) :
    (decoder.rowsOf key channel rows).length ≤ decoder.groupCount rows key := by
  cases channel
  · exact Nat.le_max_left _ _
  · exact Nat.le_max_right _ _

theorem nodup_eraseDups {β : Type} [BEq β] [LawfulBEq β] (xs : List β) :
    xs.eraseDups.Nodup := by
  match xs with
  | [] => simp
  | x :: xs =>
    rw [List.eraseDups_cons, List.nodup_cons, List.mem_eraseDups]
    exact ⟨by simp, nodup_eraseDups _⟩
termination_by xs.length
decreasing_by exact Nat.lt_succ_of_le (List.length_filter_le _ _)

/-- Changing a function at one place changes the list of its values there. -/
theorem map_range_eq_set {β : Type} {old new : Nat → β} {count place : Nat}
    (others : ∀ n, n ≠ place → new n = old n) :
    (List.range count).map new = ((List.range count).map old).set place (new place) := by
  refine List.ext_getElem? fun n => ?_
  rw [List.getElem?_set]
  by_cases here : place = n
  · subst here
    by_cases inside : place < count <;> simp [inside]
  · have same := others n (Ne.symm here)
    by_cases inside : n < count <;> simp [inside, here, same]

theorem groupCount_concat_other (parsed : decoder.parseName row.name = .ok (key, channel))
    {other : RowKey} (apart : other ≠ key) (rows : List (Row α)) :
    decoder.groupCount (rows ++ [row]) other = decoder.groupCount rows other := by
  simp only [groupCount, rowsOf_concat_other parsed (fun same => apart same.1)]

theorem groupAt_concat_other (parsed : decoder.parseName row.name = .ok (key, channel))
    {other : RowKey} {occurrence : Nat}
    (apart : ¬(other = key ∧ occurrence = (decoder.rowsOf key channel rows).length)) :
    decoder.groupAt (rows ++ [row]) other occurrence = decoder.groupAt rows other occurrence := by
  refine RowGroup.eq_of_rows rfl fun current => ?_
  simp only [row?_groupAt]
  by_cases here : other = key ∧ current = channel
  · obtain ⟨rfl, rfl⟩ := here
    rw [rowsOf_concat_self parsed, List.getElem?_append]
    split
    · rfl
    · rename_i beyond
      have further : occurrence ≠ (decoder.rowsOf other current rows).length :=
        fun same => apart ⟨rfl, same⟩
      rw [List.getElem?_eq_none (by simp; omega), List.getElem?_eq_none (by omega)]
  · rw [rowsOf_concat_other parsed here]

theorem groupAt_concat_self (parsed : decoder.parseName row.name = .ok (key, channel))
    (rows : List (Row α)) :
    decoder.groupAt (rows ++ [row]) key (decoder.rowsOf key channel rows).length =
      (decoder.groupAt rows key (decoder.rowsOf key channel rows).length).fill row channel := by
  refine RowGroup.eq_of_rows (by simp) fun current => ?_
  rw [RowGroup.row?_fill]
  simp only [row?_groupAt]
  by_cases same : current = channel
  · subst same
    simp [rowsOf_concat_self parsed]
  · rw [rowsOf_concat_other parsed (fun here => same here.2), if_neg same]

theorem Grouped.nil (decoder : Decoder) : decoder.Grouped ([] : List (Row α)) [] where
  ofKey_eq key := by simp [groupCount, rowsOf, ofKey]
  order := by simp [reached]
  kept channel := by simp

namespace Grouped

theorem mem_iff (grouped : decoder.Grouped rows groups) (group : RowGroup α) :
    group ∈ groups ↔ group.occurrence < decoder.groupCount rows group.key ∧
      group = decoder.groupAt rows group.key group.occurrence := by
  have here : group ∈ groups ↔ group ∈ ofKey group.key groups := by simp [ofKey]
  rw [here, grouped.ofKey_eq, List.mem_map]
  constructor
  · rintro ⟨occurrence, inside, made⟩
    have same : group.occurrence = occurrence := by rw [← made]; rfl
    rw [same]
    exact ⟨List.mem_range.1 inside, made.symm⟩
  · rintro ⟨inside, made⟩
    exact ⟨group.occurrence, List.mem_range.2 inside, made.symm⟩

theorem groupAt_mem (grouped : decoder.Grouped rows groups) {occurrence : Nat}
    (inside : occurrence < decoder.groupCount rows key) :
    decoder.groupAt rows key occurrence ∈ groups :=
  (grouped.mem_iff _).2 ⟨inside, rfl⟩

theorem taken_iff (grouped : decoder.Grouped rows groups) (slot : Slot) :
    Taken groups slot ↔
      slot.occurrence < (decoder.rowsOf slot.key slot.channel rows).length := by
  constructor
  · rintro ⟨group, member, same, held⟩
    obtain ⟨_, made⟩ := (grouped.mem_iff group).1 member
    obtain ⟨keys, occurrences⟩ := Prod.mk.inj same
    rw [made, row?_groupAt, keys, occurrences] at held
    exact (List.getElem?_eq_some_iff.1 (Option.some_get held).symm).1
  · intro inside
    refine ⟨decoder.groupAt rows slot.key slot.occurrence,
      grouped.groupAt_mem (Nat.lt_of_lt_of_le inside (length_rowsOf_le _ _ _ _)), rfl, ?_⟩
    rw [row?_groupAt, List.getElem?_eq_getElem inside]
    rfl

/-- The search for a free slot passes as many occurrences as its key and channel
have rows. -/
theorem search_iff (grouped : decoder.Grouped rows groups) (key : RowKey) (channel : Channel)
    (final : Nat) :
    Search groups key channel 0 final ↔ final = (decoder.rowsOf key channel rows).length := by
  have ends : Search groups key channel 0 (decoder.rowsOf key channel rows).length :=
    Search.of_taken (Nat.zero_le _)
      (fun occurrence _ before => (grouped.taken_iff ⟨key, occurrence, channel⟩).2 before)
      (fun taken => Nat.lt_irrefl _ ((grouped.taken_iff ⟨key, _, channel⟩).1 taken))
  constructor
  · intro search
    exact ends.final_unique search
  · rintro rfl
    exact ends

/-- A row is put behind all groups where its channel has as many rows as the key
has groups, and otherwise into the group of its occurrence. -/
theorem place_eq (grouped : decoder.Grouped rows groups) (key : RowKey) (channel : Channel)
    (row : Row α) :
    (decoder.groupCount rows key = (decoder.rowsOf key channel rows).length ∧
      place key channel row 0 groups = .ok (groups ++
        [RowGroup.ofRow key (decoder.rowsOf key channel rows).length channel row])) ∨
    ∃ front group back, groups = front ++ group :: back ∧
      group = decoder.groupAt rows key (decoder.rowsOf key channel rows).length ∧
      (ofKey key front).length = (decoder.rowsOf key channel rows).length ∧
      (decoder.rowsOf key channel rows).length < decoder.groupCount rows key ∧
      place key channel row 0 groups =
        (group.fill row channel).checked.map fun filled => front ++ filled :: back := by
  have count := length_rowsOf_le decoder rows key channel
  rcases Decoder.place_cases key channel row groups 0 with ⟨full, result⟩ |
    ⟨front, group, back, split, at_key, free, full, result⟩
  · have size : decoder.groupCount rows key = (decoder.rowsOf key channel rows).length := by
      refine Nat.le_antisymm (Nat.not_lt.1 fun less => ?_) count
      have held := full (decoder.groupAt rows key (decoder.rowsOf key channel rows).length) (by
        rw [grouped.ofKey_eq]
        exact List.mem_map_of_mem (List.mem_range.2 less))
      simp at held
    refine Or.inl ⟨size, ?_⟩
    rw [result, grouped.ofKey_eq, List.length_map, List.length_range, size, Nat.zero_add]
  · have listed : ofKey key front ++ group :: ofKey key back =
        (List.range (decoder.groupCount rows key)).map (decoder.groupAt rows key) := by
      rw [← grouped.ofKey_eq, split]
      simp [ofKey, at_key]
    have inside : (ofKey key front).length < decoder.groupCount rows key := by
      have lengths := congrArg List.length listed
      simp only [List.length_append, List.length_cons, List.length_map, List.length_range]
        at lengths
      omega
    have made : group = decoder.groupAt rows key (ofKey key front).length := by
      have element := congrArg (·[(ofKey key front).length]?) listed
      simpa [inside] using element
    have position : (ofKey key front).length = (decoder.rowsOf key channel rows).length := by
      refine Nat.le_antisymm (Nat.not_lt.1 fun less => ?_) ?_
      · -- The group at the count would stand in front, where the channel is full.
        have early : decoder.groupAt rows key (decoder.rowsOf key channel rows).length ∈
            ofKey key front := by
          have element := congrArg (·[(decoder.rowsOf key channel rows).length]?) listed
          simp only [List.getElem?_append_left less, List.getElem?_map,
            List.getElem?_range (Nat.lt_trans less inside), Option.map_some] at element
          exact List.mem_of_getElem? element
        have held := full _ early
        simp at held
      · rw [made, row?_groupAt] at free
        exact List.getElem?_eq_none_iff.1 free
    rw [position] at made inside
    exact Or.inr ⟨front, group, back, split, made, position, inside, result⟩

theorem place_cases (grouped : decoder.Grouped rows groups)
    (placed : place key channel row 0 groups = .ok after) :
    (decoder.groupCount rows key = (decoder.rowsOf key channel rows).length ∧
      after = groups ++
        [RowGroup.ofRow key (decoder.rowsOf key channel rows).length channel row]) ∨
    ∃ front group back, groups = front ++ group :: back ∧
      group = decoder.groupAt rows key (decoder.rowsOf key channel rows).length ∧
      (ofKey key front).length = (decoder.rowsOf key channel rows).length ∧
      (decoder.rowsOf key channel rows).length < decoder.groupCount rows key ∧
      after = front ++ group.fill row channel :: back := by
  rcases grouped.place_eq key channel row with ⟨size, result⟩ |
    ⟨front, group, back, split, made, position, inside, result⟩
  · exact Or.inl ⟨size, Except.ok.inj (placed.symm.trans result)⟩
  · refine Or.inr ⟨front, group, back, split, made, position, inside, ?_⟩
    obtain ⟨filled, check, rfl⟩ := map_eq_ok (result.symm.trans placed)
    rw [RowGroup.checked_eq_ok check]

theorem not_reached (grouped : decoder.Grouped rows groups) {occurrence : Nat}
    (beyond : decoder.groupCount rows key ≤ occurrence) :
    (key, occurrence) ∉ groups.map RowGroup.place := by
  intro member
  obtain ⟨group, inside, same⟩ := List.mem_map.1 member
  obtain ⟨rfl, rfl⟩ := Prod.mk.inj same
  exact absurd ((grouped.mem_iff group).1 inside).1 (Nat.not_lt.2 beyond)

theorem ofKey_concat (grouped : decoder.Grouped rows groups)
    (parsed : decoder.parseName row.name = .ok (key, channel))
    (placed : place key channel row 0 groups = .ok after) (other : RowKey) :
    ofKey other after = (List.range (decoder.groupCount (rows ++ [row]) other)).map
      (decoder.groupAt (rows ++ [row]) other) := by
  have old := grouped.ofKey_eq other
  by_cases same : other = key
  · subst same
    have longer : decoder.groupCount (rows ++ [row]) other =
        max (decoder.groupCount rows other) ((decoder.rowsOf other channel rows).length + 1) := by
      cases channel with
      | value =>
        simp [groupCount, rowsOf_concat_self parsed, rowsOf_concat_other parsed]
        omega
      | confidence =>
        simp [groupCount, rowsOf_concat_self parsed, rowsOf_concat_other parsed]
    rcases grouped.place_cases placed with ⟨size, rfl⟩ |
      ⟨front, group, back, split, made, position, inside, rfl⟩
    · have further : decoder.groupCount (rows ++ [row]) other =
          (decoder.rowsOf other channel rows).length + 1 := by omega
      have added : decoder.groupAt (rows ++ [row]) other
          (decoder.rowsOf other channel rows).length =
            RowGroup.ofRow other (decoder.rowsOf other channel rows).length channel row := by
        rw [groupAt_concat_self parsed]
        refine RowGroup.eq_of_rows (by simp) fun current => ?_
        rw [RowGroup.row?_fill, RowGroup.row?_ofRow, row?_groupAt,
          List.getElem?_eq_none (size ▸ length_rowsOf_le decoder rows other current)]
      have earlier : ∀ occurrence ∈ List.range (decoder.rowsOf other channel rows).length,
          decoder.groupAt (rows ++ [row]) other occurrence =
            decoder.groupAt rows other occurrence := by
        intro occurrence before
        have less := List.mem_range.1 before
        exact groupAt_concat_other parsed (fun here => Nat.ne_of_lt less here.2)
      rw [further, List.range_succ, List.map_append, List.map_congr_left earlier,
        List.map_singleton, added, ← size, ← old]
      simp [ofKey]
    · have unchanged : decoder.groupCount (rows ++ [row]) other = decoder.groupCount rows other := by
        omega
      have here : group.key = other := by rw [made]; rfl
      have filled : ofKey other (front ++ group.fill row channel :: back) =
          (ofKey other groups).set (decoder.rowsOf other channel rows).length
            (group.fill row channel) := by
        rw [split, ← position]
        simp [ofKey, here]
      rw [filled, old, unchanged, made, ← groupAt_concat_self parsed]
      refine (map_range_eq_set fun occurrence elsewhere => ?_).symm
      exact groupAt_concat_other parsed (fun own => elsewhere own.2)
  · rw [groupCount_concat_other parsed same]
    have kept : ∀ occurrence ∈ List.range (decoder.groupCount rows other),
        decoder.groupAt (rows ++ [row]) other occurrence =
          decoder.groupAt rows other occurrence := by
      intro occurrence _
      exact groupAt_concat_other parsed (fun here => same here.1)
    rw [List.map_congr_left kept, ← old]
    rcases grouped.place_cases placed with ⟨_, rfl⟩ | ⟨front, group, back, rfl, made, _, _, rfl⟩
    · simp [ofKey, Ne.symm same]
    · have elsewhere : group.key ≠ other := by
        rw [made]
        exact Ne.symm same
      simp [ofKey, elsewhere]

theorem order_concat (grouped : decoder.Grouped rows groups)
    (parsed : decoder.parseName row.name = .ok (key, channel))
    (placed : place key channel row 0 groups = .ok after) :
    after.map RowGroup.place = (decoder.reached (rows ++ [row])).eraseDups := by
  rw [reached_concat, slotAfter_eq parsed, List.eraseDups_append, ← grouped.order]
  rcases grouped.place_cases placed with ⟨size, rfl⟩ |
    ⟨front, group, back, rfl, made, _, inside, rfl⟩
  · have fresh := grouped.not_reached (Nat.le_of_eq size)
    rw [grouped.order, List.mem_eraseDups] at fresh
    simp [List.removeAll, Slot.place, fresh, List.eraseDups_cons]
  · have there : (key, (decoder.rowsOf key channel rows).length) ∈ decoder.reached rows := by
      rw [← List.mem_eraseDups, ← grouped.order]
      refine List.mem_map.2 ⟨group, by simp, ?_⟩
      rw [made]
      rfl
    simp [List.removeAll, Slot.place, there]

theorem kept_concat (grouped : decoder.Grouped rows groups)
    (parsed : decoder.parseName row.name = .ok (key, channel))
    (placed : place key channel row 0 groups = .ok after) (current : Channel) :
    (after.filterMap (·.row? current)).Perm
      ((rows ++ [row]).filter (decoder.inChannel current)) := by
  have old := grouped.kept current
  have listed : (rows ++ [row]).filter (decoder.inChannel current) =
      rows.filter (decoder.inChannel current) ++ if current = channel then [row] else [] := by
    by_cases same : current = channel
    · simp [inChannel, parsed, Except.toOption, same]
    · simp [inChannel, parsed, Except.toOption, same, Ne.symm same]
  rw [listed]
  rcases grouped.place_cases placed with ⟨_, rfl⟩ |
    ⟨front, group, back, rfl, made, _, inside, rfl⟩
  · rw [List.filterMap_append]
    refine old.append (List.Perm.of_eq ?_)
    by_cases same : current = channel <;> simp [RowGroup.row?_ofRow, same]
  · by_cases same : current = channel
    · subst same
      have free : group.row? current = none := by
        rw [made, row?_groupAt]
        exact List.getElem?_eq_none (Nat.le_refl _)
      simp only [List.filterMap_append, List.filterMap_cons, free, RowGroup.row?_fill, if_true]
        at old ⊢
      exact List.perm_middle.trans ((old.cons row).trans
        (List.perm_append_singleton row _).symm)
    · simp only [List.filterMap_append, List.filterMap_cons, RowGroup.row?_fill, if_neg same,
        List.append_nil] at old ⊢
      exact old

/-- Placing a row keeps the groups grouped. -/
theorem step (grouped : decoder.Grouped rows groups)
    (parsed : decoder.parseName row.name = .ok (key, channel))
    (placed : place key channel row 0 groups = .ok after) :
    decoder.Grouped (rows ++ [row]) after where
  ofKey_eq := grouped.ofKey_concat parsed placed
  order := grouped.order_concat parsed placed
  kept := grouped.kept_concat parsed placed

theorem puts (grouped : decoder.Grouped rows groups)
    (placed : place key channel row 0 groups = .ok after) :
    Puts row ⟨key, (decoder.rowsOf key channel rows).length, channel⟩ groups after := by
  rcases grouped.place_cases placed with ⟨size, rfl⟩ |
    ⟨front, group, back, rfl, made, _, _, rfl⟩
  · exact .added (grouped.not_reached (Nat.le_of_eq size))
  · refine .filled (by rw [made]; rfl) ?_
    rw [made, row?_groupAt]
    exact List.getElem?_eq_none (Nat.le_refl _)

theorem places_nodup (grouped : decoder.Grouped rows groups) :
    (groups.map RowGroup.place).Nodup := by
  rw [grouped.order]
  exact nodup_eraseDups _

end Grouped

/-- The groups that rows are put into are the groups of these rows. -/
theorem grouped_of_groupRows (rows : List (Row α)) :
    ∀ {groups : List (RowGroup α)}, decoder.groupRows rows = .ok groups →
      decoder.Grouped rows groups := by
  induction rows using List.reverseRecOn with
  | nil =>
    intro groups success
    obtain rfl : [] = groups := Except.ok.inj success
    exact Grouped.nil decoder
  | append_singleton rows row ih =>
    intro groups success
    obtain ⟨before, earlier, added⟩ := foldlM_concat_eq_ok success
    obtain ⟨key, channel, parsed, placed⟩ := addRow_eq_ok added
    exact (ih earlier).step parsed placed

/-- Rows with names are grouped, unless two of them differ in their resolution. -/
theorem groupRows_success (parsed : ∀ row ∈ rows, ∃ name, decoder.parseName row.name = .ok name)
    (matched : ∀ index value confidence,
      decoder.groupRows rows ≠ .error (.mismatchedResolution index value confidence)) :
    ∃ groups, decoder.groupRows rows = .ok groups := by
  cases result : decoder.groupRows rows with
  | ok groups => exact ⟨groups, rfl⟩
  | error error =>
    obtain ⟨front, row, back, before, rfl, _, failure⟩ := foldlM_eq_error_iff.1 result
    rcases addRow_error failure with unnamed | ⟨index, value, confidence, rfl⟩
    · obtain ⟨name, named⟩ := parsed row (by simp)
      rw [named] at unnamed
      cases unnamed
    · exact absurd result (matched index value confidence)

/-- Where confidence is off, the groups are the rows in their order. -/
theorem values_of_off (off : decoder.confidence = .off) (rows : List (Row α)) :
    ∀ {groups : List (RowGroup α)}, decoder.groupRows rows = .ok groups →
      groups.map RowGroup.value = rows.map some := by
  have valued : ∀ {name : String} {key : RowKey} {channel : Channel},
      decoder.parseName name = .ok (key, channel) → channel = .value := by
    intro name key channel parsed
    simp only [parseName, splitChannel, off, Confidence.isEnabled] at parsed
    repeat' split at parsed
    all_goals simp_all
  induction rows using List.reverseRecOn with
  | nil =>
    intro groups success
    obtain rfl : [] = groups := Except.ok.inj success
    rfl
  | append_singleton rows row ih =>
    intro groups success
    obtain ⟨before, earlier, added⟩ := foldlM_concat_eq_ok success
    obtain ⟨key, channel, parsed, placed⟩ := addRow_eq_ok added
    obtain rfl := valued parsed
    rcases (grouped_of_groupRows rows earlier).place_cases placed with ⟨_, rfl⟩ |
      ⟨front, group, back, rfl, made, _, _, _⟩
    · simp [ih earlier, RowGroup.ofRow, RowGroup.fill]
    · -- The value of the group would be free, but every group has one.
      have free : group.value = none := by
        have none := row?_groupAt decoder rows key (decoder.rowsOf key .value rows).length .value
        rw [← made] at none
        rw [List.getElem?_eq_none (Nat.le_refl _)] at none
        exact none
      have held : group.value ∈ (front ++ group :: back).map RowGroup.value := by simp
      rw [ih earlier, free] at held
      simp at held

end Groups

end Decoder

end MetricQuery

import MetricQuery.Proofs.Grouping
import MetricQuery.Proofs.Results
import MetricQuery.Proofs.Sections

/-!
# Faults of rows

Why rows are refused when they are grouped. A row is refused for its name, or
because the row of the other channel at the same place among those of its key
has another resolution. The first row with a fault is the one that counts.
-/

set_option autoImplicit false

namespace MetricQuery

namespace Decoder

/-! ## Names -/

/-- A name whose sections give a key and a channel. Where confidence is off,
there is no section for the channel. -/
inductive Reads (decoder : Decoder) (name : String) : RowKey → Channel → Prop
  | channeled {given : String} {index : Nat} {channel : Channel} {metadata : List String}
      (enabled : decoder.confidence.isEnabled = true)
      (split : Series.splitName? name = some (given :: channel.sectionText :: metadata))
      (denoted : index? given = some index) (known : index < decoder.parts.length) :
      Reads decoder name ⟨index, metadata⟩ channel
  | plain {given : String} {index : Nat} {metadata : List String}
      (disabled : decoder.confidence.isEnabled = false)
      (split : Series.splitName? name = some (given :: metadata))
      (denoted : index? given = some index) (known : index < decoder.parts.length) :
      Reads decoder name ⟨index, metadata⟩ .value

inductive NameFault (decoder : Decoder) (name : String) : QueryError → Prop
  | unsplit (broken : Series.splitName? name = none) :
      NameFault decoder name (.invalidSeriesName name)
  | unindexed {given : String} {sections : List String}
      (split : Series.splitName? name = some (given :: sections))
      (unread : index? given = none) : NameFault decoder name (.invalidSeriesName name)
  | unknown {given : String} {sections : List String} {index : Nat}
      (split : Series.splitName? name = some (given :: sections))
      (denoted : index? given = some index) (beyond : decoder.parts.length ≤ index) :
      NameFault decoder name (.unknownPart name index)
  | channelless {given : String} {index : Nat} (enabled : decoder.confidence.isEnabled = true)
      (split : Series.splitName? name = some [given]) (denoted : index? given = some index)
      (known : index < decoder.parts.length) : NameFault decoder name (.invalidChannel name "")
  | unchanneled {given other : String} {metadata : List String} {index : Nat}
      (enabled : decoder.confidence.isEnabled = true)
      (split : Series.splitName? name = some (given :: other :: metadata))
      (denoted : index? given = some index) (known : index < decoder.parts.length)
      (neither : ∀ channel : Channel, other ≠ channel.sectionText) :
      NameFault decoder name (.invalidChannel name other)

variable {decoder : Decoder} {name : String}

theorem ofSection?_eq_some {given : String} {channel : Channel}
    (found : Channel.ofSection? given = some channel) : given = channel.sectionText := by
  unfold Channel.ofSection? at found
  split at found
  · cases found
    rfl
  · cases found
    rfl
  · cases found

theorem Reads.parseName {key : RowKey} {channel : Channel}
    (reads : decoder.Reads name key channel) : decoder.parseName name = .ok (key, channel) := by
  cases reads with
  | channeled enabled split denoted known =>
    have recognised : Channel.ofSection? channel.sectionText = some channel := by
      cases channel <;> rfl
    simp [Decoder.parseName, splitChannel, split, denoted, Nat.not_le_of_lt known, enabled,
      recognised]
  | plain disabled split denoted known =>
    simp [Decoder.parseName, splitChannel, split, denoted, Nat.not_le_of_lt known, disabled]

theorem NameFault.parseName {error : QueryError} (fault : decoder.NameFault name error) :
    decoder.parseName name = .error error := by
  cases fault with
  | unsplit broken => simp [Decoder.parseName, broken]
  | unindexed split unread => simp [Decoder.parseName, split, unread]
  | unknown split denoted beyond => simp [Decoder.parseName, split, denoted, beyond]
  | channelless enabled split denoted known =>
    simp [Decoder.parseName, splitChannel, split, denoted, Nat.not_le_of_lt known, enabled]
  | @unchanneled given other metadata index enabled split denoted known neither =>
    have recognised : Channel.ofSection? other = none := by
      cases found : Channel.ofSection? other with
      | none => rfl
      | some channel => exact absurd (ofSection?_eq_some found) (neither channel)
    simp [Decoder.parseName, splitChannel, split, denoted, Nat.not_le_of_lt known, enabled,
      recognised]

theorem reads_or_nameFault (decoder : Decoder) (name : String) :
    (∃ key channel, decoder.Reads name key channel) ∨ ∃ error, decoder.NameFault name error := by
  cases split : Series.splitName? name with
  | none => exact Or.inr ⟨_, .unsplit split⟩
  | some sections =>
    cases sections with
    | nil =>
      obtain ⟨parts, found, empty⟩ := Option.map_eq_some_iff.1 split
      rw [List.map_eq_nil_iff.1 empty] at found
      exact absurd found (Series.sectionsWithin?_ne_nil none name.toList)
    | cons given rest =>
      cases denoted : index? given with
      | none => exact Or.inr ⟨_, .unindexed split denoted⟩
      | some index =>
        by_cases beyond : decoder.parts.length ≤ index
        · exact Or.inr ⟨_, .unknown split denoted beyond⟩
        · have known := Nat.lt_of_not_le beyond
          cases enabled : decoder.confidence.isEnabled with
          | false => exact Or.inl ⟨_, _, .plain enabled split denoted known⟩
          | true =>
            cases rest with
            | nil => exact Or.inr ⟨_, .channelless enabled split denoted known⟩
            | cons other metadata =>
              by_cases channeled : ∃ channel : Channel, other = channel.sectionText
              · obtain ⟨channel, rfl⟩ := channeled
                exact Or.inl ⟨_, _, .channeled enabled split denoted known⟩
              · have neither := not_exists.1 channeled
                exact Or.inr ⟨_, .unchanneled enabled split denoted known neither⟩

theorem parseName_eq_ok_iff {key : RowKey} {channel : Channel} :
    decoder.parseName name = .ok (key, channel) ↔ decoder.Reads name key channel := by
  constructor
  · intro success
    rcases reads_or_nameFault decoder name with ⟨_, _, reads⟩ | ⟨_, fault⟩
    · obtain ⟨rfl, rfl⟩ := Prod.mk.inj (Except.ok.inj (reads.parseName.symm.trans success))
      exact reads
    · rw [fault.parseName] at success
      cases success
  · exact Reads.parseName

/-! ## Rows -/

variable {α : Type}

/-- Why a row behind others is refused: for its name, or because its partner, the
row at the same place in the other channel of its key, has another resolution. -/
inductive RowFault (decoder : Decoder) (seen : List (Row α)) (row : Row α) : QueryError → Prop
  | name {error : QueryError} (fault : decoder.NameFault row.name error) :
      RowFault decoder seen row error
  | value {key : RowKey} {partner : Row α} (reads : decoder.Reads row.name key .value)
      (paired : (decoder.rowsOf key .confidence seen)[(decoder.rowsOf key .value seen).length]? =
        some partner)
      (apart : row.resolution ≠ partner.resolution) :
      RowFault decoder seen row
        (.mismatchedResolution key.index row.resolution partner.resolution)
  | confidence {key : RowKey} {partner : Row α} (reads : decoder.Reads row.name key .confidence)
      (paired : (decoder.rowsOf key .value seen)[(decoder.rowsOf key .confidence seen).length]? =
        some partner)
      (apart : partner.resolution ≠ row.resolution) :
      RowFault decoder seen row
        (.mismatchedResolution key.index partner.resolution row.resolution)

def RowsPass (decoder : Decoder) (rows : List (Row α)) : Prop :=
  ∀ front row back, rows = front ++ row :: back → ∀ error, ¬decoder.RowFault front row error

end Decoder

theorem RowGroup.checked_eq_error_iff {α : Type} {group : RowGroup α} {error : QueryError} :
    group.checked = .error error ↔
      ∃ value confidence, group.value = some value ∧ group.confidence = some confidence ∧
        value.resolution ≠ confidence.resolution ∧
        error = .mismatchedResolution group.key.index value.resolution confidence.resolution := by
  cases valued : group.value with
  | none => simp [checked, valued]
  | some value =>
    cases confident : group.confidence with
    | none => simp [checked, valued, confident]
    | some confidence =>
      by_cases same : value.resolution = confidence.resolution
      · simp [checked, valued, confident, same]
      · simp [checked, valued, confident, same, eq_comm]

namespace Decoder

section Adding

variable {α : Type} {decoder : Decoder} {seen : List (Row α)} {groups : List (RowGroup α)}
  {row : Row α} {key : RowKey} {channel : Channel} {error : QueryError}

theorem Grouped.place_eq_error_iff (grouped : decoder.Grouped seen groups) :
    place key channel row 0 groups = .error error ↔
      ((decoder.groupAt seen key (decoder.rowsOf key channel seen).length).fill row
        channel).checked = .error error := by
  rcases grouped.place_eq key channel row with ⟨size, result⟩ |
    ⟨front, group, back, _, made, _, _, result⟩
  · -- There is no group of that occurrence yet, so the row has no partner.
    refine iff_of_false (by rw [result]; nofun) fun failure => ?_
    obtain ⟨value, confidence, valued, confident, _⟩ := RowGroup.checked_eq_error_iff.1 failure
    have beyond : ∀ other : Channel,
        (decoder.rowsOf key other seen)[(decoder.rowsOf key channel seen).length]? = none :=
      fun other => List.getElem?_eq_none (size ▸ length_rowsOf_le decoder seen key other)
    cases channel with
    | value =>
      have missing : some confidence = none := confident.symm.trans (beyond .confidence)
      cases missing
    | confidence =>
      have missing : some value = none := valued.symm.trans (beyond .value)
      cases missing
  · rw [result, made]
    cases RowGroup.checked _ with
    | error cause => simp [Except.map]
    | ok filled => exact iff_of_false nofun nofun

theorem Grouped.addRow_eq_error_iff (grouped : decoder.Grouped seen groups) :
    decoder.addRow groups row = .error error ↔ decoder.RowFault seen row error := by
  rcases reads_or_nameFault decoder row.name with ⟨key, channel, reads⟩ | ⟨cause, fault⟩
  · have added : decoder.addRow groups row = place key channel row 0 groups := by
      simp only [addRow, reads.parseName]
    have only : ∀ {other : RowKey} {otherChannel : Channel},
        decoder.Reads row.name other otherChannel → other = key ∧ otherChannel = channel :=
      fun again => Prod.mk.inj (Except.ok.inj (again.parseName.symm.trans reads.parseName))
    rw [added, grouped.place_eq_error_iff, RowGroup.checked_eq_error_iff]
    constructor
    · rintro ⟨value, confidence, valued, confident, apart, rfl⟩
      cases channel with
      | value =>
        obtain rfl : row = value := Option.some.inj valued
        exact .value reads confident apart
      | confidence =>
        obtain rfl : row = confidence := Option.some.inj confident
        exact .confidence reads valued apart
    · intro fault
      cases fault with
      | name fault =>
        have both := fault.parseName.symm.trans reads.parseName
        cases both
      | value again paired apart =>
        obtain ⟨rfl, rfl⟩ := only again
        exact ⟨row, _, rfl, paired, apart, rfl⟩
      | confidence again paired apart =>
        obtain ⟨rfl, rfl⟩ := only again
        exact ⟨_, row, paired, rfl, apart, rfl⟩
  · have refused : decoder.addRow groups row = .error cause := by
      simp only [addRow, fault.parseName]
    have unread : ∀ {other : RowKey} {otherChannel : Channel},
        ¬decoder.Reads row.name other otherChannel := by
      intro other otherChannel reads
      have both := fault.parseName.symm.trans reads.parseName
      cases both
    rw [refused]
    constructor
    · intro same
      cases same
      exact .name fault
    · intro found
      cases found with
      | name other =>
        have same := Except.error.inj (fault.parseName.symm.trans other.parseName)
        exact congrArg Except.error same
      | value reads _ _ => exact absurd reads unread
      | confidence reads _ _ => exact absurd reads unread

end Adding

/-! ## Lists of rows -/

section Lists

variable {α : Type} {decoder : Decoder} {rows : List (Row α)}

theorem groupRows_of_rowsPass (rows : List (Row α)) (pass : decoder.RowsPass rows) :
    ∃ groups, decoder.groupRows rows = .ok groups := by
  cases result : decoder.groupRows rows with
  | ok groups => exact ⟨groups, rfl⟩
  | error error =>
    obtain ⟨front, row, back, before, split, passed, failure⟩ := foldlM_eq_error_iff.1 result
    have fault := (grouped_of_groupRows front passed).addRow_eq_error_iff.1 failure
    exact absurd fault (pass front row back split error)

theorem rowsPass_of_groupRows {groups : List (RowGroup α)}
    (success : decoder.groupRows rows = .ok groups) : decoder.RowsPass rows := by
  intro front row back split error fault
  subst split
  obtain ⟨before, passed, _⟩ := foldlM_append_eq_ok success
  have failure := (grouped_of_groupRows front passed).addRow_eq_error_iff.2 fault
  have failed : decoder.groupRows (front ++ row :: back) = .error error :=
    foldlM_eq_error_iff.2 ⟨front, row, back, before, rfl, passed, failure⟩
  rw [success] at failed
  cases failed

theorem groupRows_eq_error_iff {error : QueryError} :
    decoder.groupRows rows = .error error ↔
      ∃ front row back, rows = front ++ row :: back ∧ decoder.RowsPass front ∧
        decoder.RowFault front row error := by
  constructor
  · intro failure
    obtain ⟨front, row, back, before, split, passed, refused⟩ := foldlM_eq_error_iff.1 failure
    exact ⟨front, row, back, split, rowsPass_of_groupRows passed,
      (grouped_of_groupRows front passed).addRow_eq_error_iff.1 refused⟩
  · rintro ⟨front, row, back, split, pass, fault⟩
    obtain ⟨before, passed⟩ := groupRows_of_rowsPass front pass
    have refused := (grouped_of_groupRows front passed).addRow_eq_error_iff.2 fault
    exact foldlM_eq_error_iff.2 ⟨front, row, back, before, split, passed, refused⟩

theorem rowsOf_append (decoder : Decoder) (key : RowKey) (channel : Channel)
    (front back : List (Row α)) :
    decoder.rowsOf key channel (front ++ back) =
      decoder.rowsOf key channel front ++ decoder.rowsOf key channel back :=
  List.filter_append front back

theorem reads_of_mem_rowsOf {key : RowKey} {channel : Channel} {row : Row α}
    (member : row ∈ decoder.rowsOf key channel rows) :
    row ∈ rows ∧ decoder.Reads row.name key channel := by
  obtain ⟨inside, encoded⟩ := List.mem_filter.1 member
  exact ⟨inside, parseName_eq_ok_iff.1 (encodes_eq_true_iff.1 encoded)⟩

/-- A row stands at its place also among the rows in front of any later one. -/
theorem rowsOf_take {slot : Slot} {position later : Nat} {row : Row α}
    (here : rows[position]? = some row) (own : decoder.slotAt rows position = some slot)
    (less : position < later) (inside : later ≤ rows.length) :
    (decoder.rowsOf slot.key slot.channel (rows.take later))[slot.occurrence]? = some row := by
  have bound : position < (rows.take later).length := by
    rw [List.length_take]
    omega
  have whole := slotAt_append decoder (rows.drop later) bound
  rw [List.take_append_drop, own] at whole
  obtain ⟨found, there, _, counted⟩ := rowsOf_of_slotAt whole.symm
  rw [List.getElem?_take_of_lt less, here] at there
  exact there ▸ counted

theorem reads_of_slotAt {slot : Slot} {position : Nat} {row : Row α}
    (here : rows[position]? = some row) (own : decoder.slotAt rows position = some slot) :
    decoder.Reads row.name slot.key slot.channel ∧
      slot.occurrence = (decoder.rowsOf slot.key slot.channel (rows.take position)).length := by
  obtain ⟨found, there, parsed, _⟩ := rowsOf_of_slotAt own
  obtain rfl := Option.some.inj (here.symm.trans there)
  refine ⟨parseName_eq_ok_iff.1 parsed, ?_⟩
  rw [slotAt, here, Option.bind_some, slotAfter_eq parsed] at own
  exact (congrArg Slot.occurrence (Option.some.inj own)).symm

/-- None of some rows has a fault exactly if all of their names can be read, and
rows at the same place in both channels of a key have the same resolution. -/
theorem rowsPass_iff :
    decoder.RowsPass rows ↔
      (∀ row ∈ rows, ∃ key channel, decoder.Reads row.name key channel) ∧
      ∀ key (occurrence : Nat) (value confidence : Row α),
        (decoder.rowsOf key .value rows)[occurrence]? = some value →
        (decoder.rowsOf key .confidence rows)[occurrence]? = some confidence →
        value.resolution = confidence.resolution := by
  constructor
  · intro pass
    refine ⟨fun row member => ?_, fun key occurrence value confidence valued confident => ?_⟩
    · obtain ⟨front, back, split⟩ := List.append_of_mem member
      rcases reads_or_nameFault decoder row.name with reads | ⟨error, fault⟩
      · exact reads
      · exact absurd (.name fault) (pass front row back split error)
    · have splitAt : ∀ {position : Nat} {row : Row α}, rows[position]? = some row →
          rows = rows.take position ++ row :: rows.drop (position + 1) ∧
            position < rows.length := by
        intro position row here
        obtain ⟨inside, rfl⟩ := List.getElem?_eq_some_iff.1 here
        exact ⟨by simp, inside⟩
      obtain ⟨first, valuedHere, valuedAt⟩ := slotAt_of_rowsOf rows valued
      obtain ⟨second, confidentHere, confidentAt⟩ := slotAt_of_rowsOf rows confident
      by_contra apart
      -- The later one of both rows would be refused.
      rcases Nat.lt_trichotomy first second with less | same | more
      · obtain ⟨reads, counted⟩ := reads_of_slotAt confidentHere confidentAt
        obtain ⟨split, inside⟩ := splitAt confidentHere
        have paired := rowsOf_take valuedHere valuedAt less (Nat.le_of_lt inside)
        rw [counted] at paired
        exact pass _ _ _ split _ (.confidence reads paired apart)
      · subst same
        rw [valuedAt] at confidentAt
        cases confidentAt
      · obtain ⟨reads, counted⟩ := reads_of_slotAt valuedHere valuedAt
        obtain ⟨split, inside⟩ := splitAt valuedHere
        have paired := rowsOf_take confidentHere confidentAt more (Nat.le_of_lt inside)
        rw [counted] at paired
        exact pass _ _ _ split _ (.value reads paired apart)
  · rintro ⟨named, matched⟩ front row back rfl error fault
    have listed : ∀ {key : RowKey} {channel : Channel}, decoder.Reads row.name key channel →
        (decoder.rowsOf key channel (front ++ row :: back))[(decoder.rowsOf key channel
          front).length]? = some row := by
      intro key channel reads
      rw [List.append_cons, rowsOf_append, rowsOf_concat_self reads.parseName]
      simp
    have kept : ∀ {key : RowKey} {channel : Channel} {occurrence : Nat} {partner : Row α},
        (decoder.rowsOf key channel front)[occurrence]? = some partner →
        (decoder.rowsOf key channel (front ++ row :: back))[occurrence]? = some partner := by
      intro key channel occurrence partner found
      rw [rowsOf_append, List.getElem?_append_left (List.getElem?_eq_some_iff.1 found).1, found]
    cases fault with
    | name fault =>
      obtain ⟨key, channel, reads⟩ := named row (by simp)
      have both := fault.parseName.symm.trans reads.parseName
      cases both
    | value reads paired apart => exact apart (matched _ _ _ _ (listed reads) (kept paired))
    | confidence reads paired apart => exact apart (matched _ _ _ _ (kept paired) (listed reads))

end Lists

end Decoder

end MetricQuery

import MetricQuery.Proofs.Copies
import MetricQuery.Proofs.Lookups
import MetricQuery.Proofs.Names
import MetricQuery.Proofs.SeriesOfRows

/-!
# Echoed aliases

The server names a series by the alias of a part, with the value of each tag in
the place of its section. Such a name leads back to the part it was written for.
-/

set_option autoImplicit false

namespace MetricQuery

namespace Annotations

def sectionsAround (annotations : Annotations) (tagSections : List String) : List String :=
  annotations.lead.map writeSection ++ tagSections ++ annotations.label.toList.map writeSection

/-- The name of a series whose tags have the given values. -/
def echo (annotations : Annotations) (values : List String) : String :=
  ".".intercalate (annotations.sectionsAround (values.map quoted))

/-- A label that is written between quotes. -/
def HasPlainLabel (annotations : Annotations) : Prop :=
  ∀ label, annotations.label = some label →
    isReference label.toList = false ∧ isQuoted label.toList = false

/-- The sections that the label comes back as. One that is not written between
quotes is echoed as it is, and may be any number of sections, or none that can be
split. -/
def labelSections? (annotations : Annotations) : Option (List String) :=
  match annotations.label with
  | none => some []
  | some label => Series.splitName? (writeSection label)

theorem labelSections?_of_plain {annotations : Annotations} (plain : annotations.HasPlainLabel) :
    annotations.labelSections? = some annotations.label.toList := by
  cases labeled : annotations.label with
  | none => rw [labelSections?, labeled]; rfl
  | some label =>
    obtain ⟨notReference, notQuoted⟩ := plain label labeled
    simp only [labelSections?, labeled, writeSection_eq_quoted notReference notQuoted,
      Series.splitName?_quoted, Option.toList_some]

theorem splitName?_echo {annotations : Annotations}
    (written : ∀ name ∈ annotations.lead, writeSection name = quoted name)
    (led : annotations.lead ≠ []) (values : List String) :
    Series.splitName? (annotations.echo values) =
      annotations.labelSections?.map (annotations.lead ++ values ++ ·) := by
  have front : annotations.lead.map writeSection ++ values.map quoted =
      (annotations.lead ++ values).map quoted := by
    rw [List.map_congr_left written, List.map_append]
  rw [echo, sectionsAround, front, labelSections?]
  cases annotations.label with
  | none =>
    have present : annotations.lead ++ values ≠ [] := List.append_ne_nil_of_left_ne_nil led values
    have joined := Series.splitName?_joined present
    simpa using joined
  | some label => exact Series.splitName?_front _ _

end Annotations

theorem writeSection_copyLead (confidence : Confidence) (index : Nat) (channel : Channel) :
    ∀ name ∈ Part.copyLead confidence index channel, writeSection name = quoted name := by
  intro name member
  unfold Part.copyLead at member
  split at member
  · rcases List.mem_cons.1 member with rfl | member
    · exact writeSection_showNat index
    · obtain rfl := List.mem_singleton.1 member
      exact writeSection_sectionText channel
  · obtain rfl := List.mem_singleton.1 member
    exact writeSection_showNat index

theorem copyLead_ne_nil (confidence : Confidence) (index : Nat) (channel : Channel) :
    Part.copyLead confidence index channel ≠ [] := by
  cases confidence <;> simp [Part.copyLead, Confidence.isEnabled]

namespace Decoder

theorem parseName_echo_eq_ok_iff {query : Query} {confidence : Confidence} {index : Nat}
    {part : Part} {channel : Channel} (known : query.parts[index]? = some part)
    (sent : channel ∈ confidence.channels) (values : List String) {key : RowKey}
    {other : Channel} :
    (query.decoder confidence).parseName
        ((part.copy confidence index channel).annotated.echo values) = .ok (key, other) ↔
      index ≤ Text.maxUnsigned64 ∧ other = channel ∧
        ∃ label, part.annotated.labelSections? = some label ∧ key = ⟨index, values ++ label⟩ := by
  have inside : ¬query.parts.length ≤ index :=
    Nat.not_le_of_lt (List.getElem?_eq_some_iff.1 known).1
  have split : Series.splitName? ((part.copy confidence index channel).annotated.echo values) =
      part.annotated.labelSections?.map
        (Part.copyLead confidence index channel ++ values ++ ·) := by
    rw [Part.copy_annotated]
    exact Annotations.splitName?_echo (writeSection_copyLead confidence index channel)
      (copyLead_ne_nil confidence index channel) values
  cases labeled : part.annotated.labelSections? with
  | none => simp [parseName, split, labeled]
  | some label =>
    rw [labeled, Option.map_some] at split
    by_cases bound : index ≤ Text.maxUnsigned64
    · cases enabled : confidence.isEnabled with
      | true =>
        simp [parseName, split, Part.copyLead, enabled, index?_showNat, bound, Query.decoder,
          inside, splitChannel, ofSection?_sectionText, eq_comm, and_comm]
      | false =>
        obtain rfl : channel = .value := by
          simpa [Confidence.channels, enabled] using sent
        simp [parseName, split, Part.copyLead, enabled, index?_showNat, bound, Query.decoder,
          inside, splitChannel, eq_comm, and_comm]
    · cases enabled : confidence.isEnabled <;>
        simp [parseName, split, Part.copyLead, enabled, index?_showNat, bound]

theorem parseName_echo {query : Query} {confidence : Confidence} {index : Nat} {part : Part}
    {channel : Channel} (known : query.parts[index]? = some part)
    (fits : index ≤ Text.maxUnsigned64) (sent : channel ∈ confidence.channels)
    (plain : part.annotated.HasPlainLabel) (values : List String) :
    (query.decoder confidence).parseName
        ((part.copy confidence index channel).annotated.echo values) =
      .ok (⟨index, values ++ part.label?.toList⟩, channel) :=
  (parseName_echo_eq_ok_iff known sent values).2
    ⟨fits, rfl, _, Annotations.labelSections?_of_plain plain, rfl⟩

/-! ## Series of echoed names -/

variable {α : Type}

def NamesSeries (decoder : Decoder) (response : Response α) (decoded : DecodedResponse α)
    (name : String) (series : Series α) : Prop :=
  ∃ (groups : List (RowGroup α)) (position : Nat) (group : RowGroup α) (channel : Channel)
    (row : Row α), decoder.groupRows response.rows = .ok groups ∧
      groups[position]? = some group ∧ decoded.series[position]? = some series ∧
      group.row? channel = some row ∧ row.name = name

structure Describes (part : Part) (values : List String) (series : Series α) : Prop where
  origin : series.part = part
  named : series.name = part.label?.getD part.selector.text
  /-- Each tag has its own value, and there are no others. -/
  tagged : (part.tags.map Tag.key).Nodup →
    (∀ (position : Nat) tag value, part.tags[position]? = some tag →
      values[position]? = some value → series.tags.get? tag.key = some value) ∧
    ∀ key, key ∉ part.tags.map Tag.key → series.tags.get? key = none

theorem get?_seriesTags {part : Part} (distinct : (part.tags.map Tag.key).Nodup)
    {metadata : List String} (enough : part.tags.length ≤ metadata.length) (key : String) :
    (seriesTags part metadata).get? key = ((part.tags.map Tag.key).zip metadata).lookup key := by
  refine Bindings.get?_ofList ?_ key
  rwa [List.map_fst_zip (by simpa using enough)]

theorem describes_of_series [Sample α] {decoder : Decoder} {start : Int}
    {groups : List (RowGroup α)} {group : RowGroup α} {series : Series α} {part : Part}
    (known : decoder.parts[group.key.index]? = some part) {values more : List String}
    (metadata : group.key.metadata = values ++ more) (valued : values.length = part.tags.length)
    (success : decoder.series start groups group = .ok series) :
    Describes part values series := by
  obtain ⟨_, found, _, there, _, rfl⟩ := series_eq_ok success
  obtain rfl := Option.some.inj (known.symm.trans there)
  refine ⟨rfl, rfl, fun distinct => ?_⟩
  have enough : part.tags.length ≤ (values ++ more).length := by
    rw [List.length_append]
    omega
  have names : ((part.tags.map Tag.key).zip (values ++ more)).map Prod.fst =
      part.tags.map Tag.key :=
    List.map_fst_zip (by simpa using enough)
  simp only [metadata, get?_seriesTags distinct enough]
  constructor
  · intro position tag value tagged held
    have inside := (List.getElem?_eq_some_iff.1 held).1
    refine lookup_eq_some_of_mem (by rwa [names]) (List.mem_iff_getElem?.2 ⟨position, ?_⟩)
    rw [List.getElem?_zip_eq_some, List.getElem?_map, tagged, List.getElem?_append_left inside]
    exact ⟨rfl, held⟩
  · intro key missing
    exact lookup_eq_none_of_not_mem (by rwa [names])

/-- A group holds rows whose names encode its key. -/
theorem parsed_of_groupRows {decoder : Decoder} {rows : List (Row α)}
    {groups : List (RowGroup α)} (success : decoder.groupRows rows = .ok groups)
    {group : RowGroup α} (member : group ∈ groups) {channel : Channel} {row : Row α}
    (held : group.row? channel = some row) :
    decoder.parseName row.name = .ok (group.key, channel) := by
  obtain ⟨position, found, slot⟩ :=
    (placesRows_of_groupRows success).held group member channel row held
  obtain ⟨other, there, parsed, _⟩ := rowsOf_of_slotAt slot
  obtain rfl := Option.some.inj (found.symm.trans there)
  exact parsed

/-- Every row of a response that is decoded names a series. -/
theorem exists_namesSeries [Sample α] {decoder : Decoder} {response : Response α}
    {decoded : DecodedResponse α} (success : decoder.decode response = .ok decoded) {row : Row α}
    (member : row ∈ response.rows) :
    ∃ series, decoder.NamesSeries response decoded row.name series := by
  obtain ⟨_, groups, grouped, made⟩ := decode_eq_ok success
  obtain ⟨position, here⟩ := List.mem_iff_getElem?.1 member
  obtain ⟨slot, _, _, index, group, there, _, held, _⟩ :=
    (placesRows_of_groupRows grouped).placed position row here
  have inside : index < decoded.series.length := by
    rw [← made.length_eq]
    exact (List.getElem?_eq_some_iff.1 there).1
  exact ⟨decoded.series[index], groups, index, group, slot.channel, row, grouped, there,
    List.getElem?_eq_getElem inside, held, rfl⟩

theorem describes_of_namesSeries [Sample α] {decoder : Decoder} {response : Response α}
    {decoded : DecodedResponse α} (success : decoder.decode response = .ok decoded)
    {name : String} {index : Nat} {part : Part} {channel : Channel} {values more : List String}
    (parsed : decoder.parseName name = .ok (⟨index, values ++ more⟩, channel))
    (known : decoder.parts[index]? = some part) (valued : values.length = part.tags.length)
    {series : Series α} (named : decoder.NamesSeries response decoded name series) :
    Describes part values series := by
  obtain ⟨groups, position, group, other, row, grouped, there, here, held, rfl⟩ := named
  obtain ⟨_, others, again, made⟩ := decode_eq_ok success
  obtain rfl : groups = others := Except.ok.inj (grouped.symm.trans again)
  have own := parsed_of_groupRows grouped (List.mem_of_getElem? there) held
  have key : group.key = ⟨index, values ++ more⟩ :=
    (Prod.mk.inj (Except.ok.inj (own.symm.trans parsed))).1
  obtain ⟨left, rfl⟩ := List.getElem?_eq_some_iff.1 there
  obtain ⟨right, rfl⟩ := List.getElem?_eq_some_iff.1 here
  have metadata : groups[position].key.metadata = values ++ more := by rw [key]
  refine describes_of_series ?_ metadata valued (made.get left right)
  rwa [key]

/-- Every part of a query is sent in a copy for each channel, and a name that the
server makes of the alias of a copy encodes the index of the part, the channel,
and the values of the tags. In a decoded response, series of such a name are
described by the part as the query has it. -/
theorem decoder_finds_parts [Sample α] (query : Query) (confidence : Confidence)
    (index : UInt64) (part : Part) (channel : Channel) (values : List String)
    (known : query.parts[index.toNat]? = some part) (sent : channel ∈ confidence.channels)
    (plain : part.annotated.HasPlainLabel) (valued : values.length = part.tags.length) :
    ∃ copy, (query.prepared confidence).parts[confidence.place index.toNat channel]? = some copy ∧
      (query.decoder confidence).parseName (copy.annotated.echo values) =
        .ok (⟨index.toNat, values ++ part.label?.toList⟩, channel) ∧
      ∀ (response : Response α) decoded,
        (query.decoder confidence).decode response = .ok decoded →
        (∀ row ∈ response.rows, row.name = copy.annotated.echo values → ∃ series,
          (query.decoder confidence).NamesSeries response decoded row.name series) ∧
        ∀ series, (query.decoder confidence).NamesSeries response decoded
          (copy.annotated.echo values) series → Describes part values series := by
  have bound : index.toNat ≤ Text.maxUnsigned64 := Nat.le_sub_one_of_lt index.toNat_lt
  have parsed := parseName_echo known bound sent plain values
  refine ⟨part.copy confidence index.toNat channel, ?_, parsed, ?_⟩
  · rw [Query.getElem?_prepared query confidence sent, known, Option.map_some]
  · intro response decoded success
    exact ⟨fun row member _ => exists_namesSeries success member,
      fun series named => describes_of_namesSeries success parsed known valued named⟩

/-- The confidence copy of an excluded part, which has leading sections of its
own, two tags and a label with a dot and a quote, and a response to it. -/
theorem decoder_finds_parts_excluded :
    let annotations : Annotations :=
      ⟨some "cpu.load's", [⟨some "dl", "host"⟩, ⟨none, "path"⟩], ["x", "y"], ∅⟩
    let part : Part := ⟨⟨"org", .all, none, none⟩, none, some annotations, some "cpu", true⟩
    let query : Query := { Query.empty with parts := [Part.ofSelector part.selector, part] }
    let values := ["it's", "a.b\\c"]
    let name := "'1'.'c'.'it\\'s'.'a.b\\\\c'.'cpu.load\\'s'"
    let response : Response Float :=
      ⟨0, [⟨name, 1000, []⟩, ⟨"'1'.'v'.'it\\'s'.'a.b\\\\c'.'cpu.load\\'s'", 1000, []⟩]⟩
    query.parts[(1 : UInt64).toNat]? = some part ∧ .confidence ∈ Confidence.on.channels ∧
      part.annotated.HasPlainLabel ∧ values.length = part.tags.length ∧
      (query.decoder .on).parseName name =
        .ok (⟨1, ["it's", "a.b\\c", "cpu.load's"]⟩, .confidence) ∧
      ∃ decoded series, (query.decoder .on).decode response = .ok decoded ∧
        (query.decoder .on).NamesSeries response decoded name series ∧
        Describes part values series := by
  intro annotations part query values name response
  have known : query.parts[(1 : UInt64).toNat]? = some part := rfl
  have sent : Channel.confidence ∈ Confidence.on.channels := by decide
  have plain : part.annotated.HasPlainLabel := by
    intro label labeled
    obtain rfl : "cpu.load's" = label := Option.some.inj labeled
    exact ⟨rfl, rfl⟩
  obtain ⟨copy, placed, parsed, found⟩ := @decoder_finds_parts Float _ query .on 1 part
    .confidence values known sent plain rfl
  obtain rfl : part.copy .on 1 .confidence = copy := Option.some.inj placed
  have written : (part.copy .on 1 .confidence).annotated.echo values = name := rfl
  rw [written] at parsed found
  refine ⟨known, sent, plain, rfl, parsed, ?_⟩
  have answered : ((query.decoder .on).decode response).isOk = true := by decide +kernel
  cases success : (query.decoder .on).decode response with
  | error error =>
    rw [success] at answered
    cases answered
  | ok decoded =>
    obtain ⟨exists_series, describes⟩ := found response decoded success
    obtain ⟨series, named⟩ := exists_series _ List.mem_cons_self rfl
    exact ⟨decoded, series, rfl, named, describes series named⟩

end Decoder

end MetricQuery

import MetricQuery.Proofs.SelectorDocuments

/-!
# Documents of annotations are read back

The static fields of a part may hold any values, which are read back as they are
since their fields stand in the order of the names already.
-/

set_option autoImplicit false

namespace MetricQuery

open Json (Arranges)

variable {form : Json → Json}

/-! ## Static fields -/

theorem sorted_statics {statics : Bindings Json}
    (plain : ∀ entry ∈ statics.entries, entry.2.IsPlain) :
    (Json.object statics.entries).sorted = .object statics.entries := by
  rw [Json.sorted, Json.sortedFields_entries fun entry member => (plain entry member).sorted]

theorem asFields_statics (arranges : Arranges form) {statics : Bindings Json}
    (plain : ∀ entry ∈ statics.entries, entry.2.IsPlain) :
    (form (.object statics.entries)).asFields = .ok statics := by
  have readable : Json.allFieldsReadable statics.entries = true :=
    Json.allFieldsReadable_iff.2 fun entry member => (plain entry member).readable
  rw [arranges.kept _ (sorted_statics plain), Json.asFields, if_pos readable,
    Json.sortedFields_entries fun entry member => (plain entry member).sorted]

theorem plain_of_asFields {document : Json} {statics : Bindings Json}
    (success : document.asFields = .ok statics) :
    ∀ entry ∈ statics.entries, entry.2.IsPlain := by
  intro entry member
  unfold Json.asFields at success
  split at success
  · split at success
    · rename_i fields readable
      obtain rfl := Except.ok.inj success
      obtain ⟨field, inside, rfl⟩ := Json.sorted_of_mem_sortedFields member
      exact ⟨Json.isReadable_sorted _ (Json.allFieldsReadable_iff.1 readable field inside),
        Json.sorted_sorted field.2⟩
    · cases success
  · cases success

namespace Annotations

/-! ## Writing and reading -/

def writtenFields (annotations : Annotations) : List (String × Json) :=
  Json.optionalField "label" .string annotations.label ++
    Json.listField "tags" Tag.toJson annotations.tags ++
    Json.listField "prefix" .string annotations.lead ++ staticsField annotations.statics

/-- What has been read of annotations when some fields have been seen. -/
def draftOf (annotations : Annotations) (seen : String → Bool) : Annotations where
  label := if seen "label" then annotations.label else none
  tags := if seen "tags" then annotations.tags else []
  lead := if seen "prefix" then annotations.lead else []
  statics := if seen "static" then annotations.statics else ∅

theorem names_staticsField (statics : Bindings Json) :
    ((staticsField statics).map Prod.fst).Sublist ["static"] := by
  unfold staticsField
  split
  · exact List.nil_sublist _
  · exact List.Sublist.refl _

theorem names_writtenFields (annotations : Annotations) :
    (annotations.writtenFields.map Prod.fst).Nodup := by
  rw [writtenFields, List.map_append, List.map_append, List.map_append]
  exact ((((Json.names_optionalField _ _ _).append (Json.names_listField _ _ _)).append
    (Json.names_listField _ _ _)).append (names_staticsField _)).nodup
      (by decide : fieldNames.Nodup)

theorem mem_staticsField {statics : Bindings Json} {field : String × Json}
    (member : field ∈ staticsField statics) : field = ("static", .object statics.entries) := by
  unfold staticsField at member
  split at member
  · cases member
  · exact List.mem_singleton.1 member

theorem setField_draftOf (arranges : Arranges form) {annotations : Annotations}
    (wellFormed : annotations.WellFormed) (seen : String → Bool) :
    ∀ field ∈ annotations.writtenFields,
      setField (annotations.draftOf seen) field.1 (form field.2) =
        .ok (annotations.draftOf fun name => field.1 == name || seen name) := by
  intro field member
  simp only [writtenFields, List.mem_append, Json.mem_optionalField, Json.mem_listField] at member
  rcases member with ((⟨label, held, rfl⟩ | ⟨_, rfl⟩) | ⟨_, rfl⟩) | static
  · have read := Json.asOptional_of_ok rfl (arranges.asString label)
    simp [setField, read, draftOf, Except.map, held]
  · have read := arranges.asList fun tag member =>
      Tag.ofJson_toJson arranges (wellFormed.tags tag member)
    simp [setField, read, draftOf, Except.map]
  · have read := arranges.asList fun (name : String) (_ : name ∈ annotations.lead) =>
      arranges.asString name
    simp [setField, read, draftOf, Except.map]
  · rw [mem_staticsField static]
    simp [setField, asFields_statics arranges wellFormed.statics, draftOf, Except.map]

theorem any_staticsField (statics : Bindings Json) (key : String) :
    (staticsField statics).any (fun field => field.1 == key) =
      (!statics.isEmpty && "static" == key) := by
  unfold staticsField
  split
  · rename_i none
    simp [none]
  · rename_i some
    simp [some]

theorem eq_empty_of_isEmpty {statics : Bindings Json} (none : statics.isEmpty = true) :
    statics = ∅ := by
  obtain ⟨entries, ordered⟩ := statics
  obtain rfl : entries = [] := by simpa [Bindings.isEmpty] using none
  rfl

theorem draftOf_writtenFields (annotations : Annotations) :
    (annotations.draftOf fun name =>
      annotations.writtenFields.any fun field => field.1 == name) = annotations := by
  obtain ⟨label, tags, lead, statics⟩ := annotations
  have shown : (if !statics.isEmpty then statics else ∅) = statics := by
    cases none : statics.isEmpty with
    | true => exact (eq_empty_of_isEmpty none).symm
    | false => rfl
  simp only [draftOf, writtenFields, List.any_append, Json.any_optionalField, Json.any_listField,
    any_staticsField]
  congr 1
  · cases label <;> simp
  · cases tags <;> simp
  · cases lead <;> simp
  · simpa using shown

theorem ofJson_toJson (arranges : Arranges form) {annotations : Annotations}
    (wellFormed : annotations.WellFormed) :
    ofJson (form annotations.toJson) = .ok annotations := by
  have read := arranges.asStructure fieldNames annotations.draftOf rfl
    annotations.names_writtenFields (setField_draftOf arranges wellFormed)
  have start : (annotations.draftOf fun _ => false) = empty := rfl
  rw [ofJson, show annotations.toJson = .object annotations.writtenFields from rfl, ← start, read,
    draftOf_writtenFields]

theorem setField_wellFormed {draft next : Annotations} {name : String} {value : Json}
    (wellFormed : draft.WellFormed) (success : setField draft name value = .ok next) :
    next.WellFormed := by
  obtain ⟨tags, statics⟩ := wellFormed
  unfold setField at success
  split at success
  · obtain ⟨given, _, rfl⟩ := map_eq_ok success
    exact ⟨tags, statics⟩
  · obtain ⟨given, read, rfl⟩ := map_eq_ok success
    refine ⟨fun tag member => ?_, statics⟩
    obtain ⟨document, _, found⟩ := Json.mem_children_of_asList read tag member
    exact Tag.wellFormed_of_ofJson found
  · obtain ⟨given, _, rfl⟩ := map_eq_ok success
    exact ⟨tags, statics⟩
  · obtain ⟨given, read, rfl⟩ := map_eq_ok success
    exact ⟨tags, plain_of_asFields read⟩
  · obtain rfl := Except.ok.inj success
    exact ⟨tags, statics⟩

theorem wellFormed_of_ofJson {document : Json} {annotations : Annotations}
    (success : ofJson document = .ok annotations) : annotations.WellFormed :=
  Json.asStructure_invariant WellFormed
    (fun _ _ _ _ _ wellFormed success => setField_wellFormed wellFormed success)
    ⟨fun _ member => absurd member List.not_mem_nil, fun _ member => absurd member List.not_mem_nil⟩
    success

end Annotations

end MetricQuery

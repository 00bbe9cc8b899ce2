import MetricQuery.Proofs.ReachableNodes

/-!
# Keys of static fields in documents

Annotations that are read have exactly the static keys that their document sets. What
is written sets the reserved key only if it is held by some annotations.
-/

set_option autoImplicit false

namespace MetricQuery

/-! ## Documents that set a static field -/

namespace Json

theorem mem_names_sortedFields {key : String} {fields : List (String × Json)} :
    key ∈ (sortedFields ∅ fields).entries.map Prod.fst ↔ key ∈ fields.map Prod.fst := by
  rw [← Bindings.contains_iff, sortedFields_eq, Bindings.contains_insertAll, List.map_map]
  constructor
  · rintro (set | impossible)
    · exact set
    · cases impossible
  · exact Or.inl

/-- Static fields are read with the keys that they are written with. -/
theorem contains_of_asFields {document : Json} {statics : Bindings Json}
    (success : document.asFields = .ok statics) (key : String) :
    statics.contains key = true ↔
      ∃ fields, document = .object fields ∧ key ∈ fields.map Prod.fst := by
  unfold asFields at success
  split at success
  · rename_i fields
    split at success
    · obtain rfl := Except.ok.inj success
      rw [Bindings.contains_iff, mem_names_sortedFields]
      constructor
      · exact fun set => ⟨fields, rfl, set⟩
      · rintro ⟨_, ⟨⟩, set⟩
        exact set
    · cases success
  · cases success

/-- Whether a document sets a static field, if it is one of annotations. -/
def SetsStatic (key : String) (document : Json) : Prop :=
  ∃ fields statics, structureFields Annotations.fieldNames document = .ok fields ∧
    ("static", .object statics) ∈ fields ∧ key ∈ statics.map Prod.fst

/-- Documents of which no piece sets a static field of a key. -/
def LacksStatic (key : String) (document : Json) : Prop :=
  ∀ piece, document.HasPiece piece → ¬piece.SetsStatic key

end Json

namespace Annotations

theorem statics_of_setField {draft next : Annotations} {name : String} {value : Json}
    (success : setField draft name value = .ok next) :
    (name ≠ "static" ∧ next.statics = draft.statics) ∨
      (name = "static" ∧ value.asFields = .ok next.statics) := by
  unfold setField at success
  split at success
  · obtain ⟨given, _, rfl⟩ := map_eq_ok success
    exact Or.inl ⟨by decide, rfl⟩
  · obtain ⟨given, _, rfl⟩ := map_eq_ok success
    exact Or.inl ⟨by decide, rfl⟩
  · obtain ⟨given, _, rfl⟩ := map_eq_ok success
    exact Or.inl ⟨by decide, rfl⟩
  · obtain ⟨given, read, rfl⟩ := map_eq_ok success
    exact Or.inr ⟨rfl, read⟩
  · rename_i other
    obtain rfl := Except.ok.inj success
    exact Or.inl ⟨other, rfl⟩

/-- Annotations that are read have exactly the static keys that their document sets. -/
theorem contains_iff_setsStatic {document : Json} {annotations : Annotations}
    (success : ofJson document = .ok annotations) (key : String) :
    annotations.statics.contains key = true ↔ document.SetsStatic key := by
  obtain ⟨fields, found, read⟩ := Json.asStructure_eq_ok success
  constructor
  · refine foldlM_invariant (fun draft : Annotations => draft.statics.contains key = true →
      document.SetsStatic key) ?_ ?_ read
    · intro field member before after sets setField contains
      rcases statics_of_setField setField with ⟨_, same⟩ | ⟨isStatic, read⟩
      · exact sets (same ▸ contains)
      · obtain ⟨statics, isObject, set⟩ := (Json.contains_of_asFields read key).1 contains
        refine ⟨fields, statics, found, ?_, set⟩
        rwa [← isStatic, ← isObject]
    · intro impossible
      cases impossible
  · rintro ⟨sameFields, statics, sameFound, member, set⟩
    obtain rfl := Except.ok.inj (found.symm.trans sameFound)
    obtain ⟨front, back, rfl⟩ := List.append_of_mem member
    -- The field is set once, and what is read behind it is something else.
    have single := Json.repeatsField_append
      (Json.repeatsField_of_structureFields (by decide) found)
    have others : ∀ field ∈ back, field.1 ≠ "static" := by
      rw [Json.repeatsField, Bool.or_eq_false_iff] at single
      have known : fieldNames.contains "static" = true := by decide
      have fresh := single.1
      rw [known, Bool.true_and, List.any_eq_false] at fresh
      exact fun field inside same => fresh field inside (beq_iff_eq.2 same)
    obtain ⟨before, _, later⟩ := foldlM_append_eq_ok read
    rw [List.foldlM_cons] at later
    obtain ⟨middle, setField, rest⟩ := bind_eq_ok later
    rcases statics_of_setField setField with ⟨impossible, _⟩ | ⟨_, own⟩
    · exact absurd rfl impossible
    · have kept : annotations.statics = middle.statics := by
        refine foldlM_invariant (fun draft : Annotations => draft.statics = middle.statics) ?_ rfl rest
        intro field inside held next same setField
        rcases statics_of_setField setField with ⟨_, unchanged⟩ | ⟨isStatic, _⟩
        · exact unchanged.trans same
        · exact absurd isStatic (others field inside)
      rw [kept]
      exact (Json.contains_of_asFields own key).2 ⟨statics, rfl, set⟩

end Annotations

/-! ## Documents without a key -/

namespace Json

/-- Documents of which no object has a key, apart from what stands inside of static
fields. -/
def LacksKey (key : String) (document : Json) : Prop :=
  ∀ fields, document.HasPiece (.object fields) → key ∉ fields.map Prod.fst ∧
    ∀ statics, ("static", .object statics) ∈ fields → key ∉ statics.map Prod.fst

variable {key : String}

theorem LacksKey.lacksStatic {document : Json} (lacks : document.LacksKey key) :
    document.LacksStatic key := by
  rintro piece isPiece ⟨fields, statics, found, member, set⟩
  rcases structureFields_eq_ok found with ⟨rfl, _⟩ | ⟨items, rfl, rfl⟩
  · exact (lacks fields isPiece).2 statics member set
  · -- The static fields of a list of fields are an object by themselves.
    have inside : document.HasPiece (.object statics) := isPiece.tail (List.of_mem_zip member).2
    exact (lacks statics inside).1 set

theorem lacksKey_iff {document : Json} :
    document.LacksKey key ↔
      (∀ fields, document = .object fields → key ∉ fields.map Prod.fst ∧
        ∀ statics, ("static", .object statics) ∈ fields → key ∉ statics.map Prod.fst) ∧
      ∀ piece ∈ document.pieces, piece.LacksKey key := by
  constructor
  · intro lacks
    refine ⟨?_, fun piece inside fields isPiece => lacks fields (isPiece.head inside)⟩
    rintro fields rfl
    exact lacks fields .refl
  · rintro ⟨own, below⟩ fields isPiece
    rcases isPiece.cases_head with same | ⟨piece, inside, later⟩
    · exact own fields same
    · exact below piece inside fields later

theorem lacksKey_leaf {document : Json} (flat : document.pieces = [])
    (noObject : ∀ fields, document ≠ .object fields) : document.LacksKey key := by
  rw [lacksKey_iff, flat]
  exact ⟨fun fields same => absurd same (noObject fields), by simp⟩

@[simp] theorem lacksKey_null : LacksKey key .null := lacksKey_leaf rfl (by simp)

@[simp] theorem lacksKey_bool (value : Bool) : LacksKey key (.bool value) :=
  lacksKey_leaf rfl (by simp)

@[simp] theorem lacksKey_number (value : JsonNumber) : LacksKey key (.number value) :=
  lacksKey_leaf rfl (by simp)

@[simp] theorem lacksKey_string (text : String) : LacksKey key (.string text) :=
  lacksKey_leaf rfl (by simp)

@[simp] theorem lacksKey_array {items : List Json} :
    LacksKey key (.array items) ↔ ∀ item ∈ items, item.LacksKey key := by
  rw [lacksKey_iff]
  simp [pieces]

structure FieldLacks (key : String) (field : String × Json) : Prop where
  name : field.1 ≠ key
  value : field.1 ≠ "static" → field.2.LacksKey key
  statics : field.1 = "static" → ∀ statics, field.2 = .object statics → key ∉ statics.map Prod.fst

theorem fieldLacks {name : String} {value : Json} (other : name ∉ [key, "static"])
    (lacks : value.LacksKey key) : FieldLacks key (name, value) := by
  simp only [List.mem_cons, List.not_mem_nil, or_false, not_or] at other
  exact ⟨other.1, fun _ => lacks, fun impossible => absurd impossible other.2⟩

theorem lacksKey_object {fields : List (String × Json)}
    (each : ∀ field ∈ fields, FieldLacks key field) : LacksKey key (.object fields) := by
  rw [lacksKey_iff]
  constructor
  · rintro _ ⟨⟩
    constructor
    · intro set
      obtain ⟨field, member, same⟩ := List.mem_map.1 set
      exact (each field member).name same
    · exact fun statics member => (each _ member).statics rfl statics rfl
  · intro piece inside
    obtain ⟨field, kept, rfl⟩ := List.mem_map.1 inside
    obtain ⟨member, notStatic⟩ := List.mem_filter.1 kept
    exact (each field member).value (by simpa using notStatic)

theorem lacksKey_single {kind : String} {content : Json} (other : kind ∉ [key, "static"])
    (lacks : content.LacksKey key) : (Json.object [(kind, content)]).LacksKey key :=
  lacksKey_object (List.forall_mem_singleton.2 (fieldLacks other lacks))

/-- A piece of a sorted document is a sorted piece. -/
theorem exists_piece_of_sorted {document piece : Json} (isPiece : document.sorted.HasPiece piece) :
    ∃ original, document.HasPiece original ∧ piece = original.sorted := by
  induction isPiece with
  | refl => exact ⟨document, .refl, rfl⟩
  | tail _ inside ih =>
    obtain ⟨original, isOriginal, rfl⟩ := ih
    cases original with
    | array items =>
      rw [sorted, sortedItems_eq] at inside
      obtain ⟨item, member, rfl⟩ := List.mem_map.1 inside
      exact ⟨item, isOriginal.tail member, rfl⟩
    | object fields =>
      rw [sorted] at inside
      obtain ⟨entry, kept, rfl⟩ := List.mem_map.1 inside
      obtain ⟨member, notStatic⟩ := List.mem_filter.1 kept
      obtain ⟨field, there, rfl⟩ := sorted_of_mem_sortedFields member
      have read : field.1 ≠ "static" := by simpa using notStatic
      exact ⟨field.2, isOriginal.tail (mem_pieces_of_mem there read), rfl⟩
    | null | bool | number | string | unreadable => cases inside

theorem LacksKey.sorted {document : Json} (lacks : document.LacksKey key) :
    document.sorted.LacksKey key := by
  intro fields isPiece
  obtain ⟨original, isOriginal, same⟩ := exists_piece_of_sorted isPiece
  cases original with
  | object others =>
    obtain ⟨free, noStatic⟩ := lacks others isOriginal
    rw [Json.sorted] at same
    obtain rfl := Json.object.inj same
    constructor
    · exact fun set => free (mem_names_sortedFields.1 set)
    · intro statics member set
      obtain ⟨⟨name, value⟩, there, isSorted⟩ := sorted_of_mem_sortedFields member
      obtain ⟨rfl, isObject⟩ := Prod.mk.inj isSorted
      cases value with
      | object written =>
        rw [Json.sorted] at isObject
        obtain rfl := Json.object.inj isObject
        exact noStatic written there (mem_names_sortedFields.1 set)
      | null | bool | number | string | array | unreadable => cases isObject
  | null | bool | number | string | array | unreadable => cases same

end Json

/-! ## Documents that are written -/

open Annotations (reservedKey)

def Demand.unreserved : Demand where
  tag _ := True
  metric _ := True
  number _ := True
  duration _ := True
  statics statics := statics.contains reservedKey = false

theorem Json.lacksKey_ofFloat (x : Float) : (ofFloat x).LacksKey reservedKey := by
  unfold ofFloat
  split
  · exact lacksKey_number _
  · exact lacksKey_null

theorem Tag.lacksKey_toJson (tag : Tag) : tag.toJson.LacksKey reservedKey := by
  obtain ⟨scope, name⟩ := tag
  cases scope <;> simp [toJson]

theorem Metric.lacksKey_toJson (metric : Metric) : metric.toJson.LacksKey reservedKey := by
  cases metric <;> simp [toJson]

theorem Condition.lacksKey_opArgs (operator : String) {arguments : Json}
    (lacks : arguments.LacksKey reservedKey) :
    (Json.object [("op", .string operator), ("args", arguments)]).LacksKey reservedKey := by
  refine Json.lacksKey_object (List.forall_mem_cons.2 ⟨?_, List.forall_mem_singleton.2 ?_⟩)
  · exact Json.fieldLacks (by decide) (Json.lacksKey_string operator)
  · exact Json.fieldLacks (by decide) lacks

theorem Condition.lacksKey_toJson (condition : Condition) :
    condition.toJson.LacksKey reservedKey := by
  induction condition with
  | equals tag value | differs tag value =>
    exact lacksKey_opArgs _ (by simp [tag.lacksKey_toJson])
  | present tag => exact lacksKey_opArgs _ tag.lacksKey_toJson
  | and left right leftLacks rightLacks | or left right leftLacks rightLacks =>
    exact lacksKey_opArgs _ (by simp [leftLacks, rightLacks])
  | unknown => exact Json.lacksKey_single (by decide) (Json.lacksKey_string _)

theorem Timeshift.lacksKey_toJson (shift : Timeshift) : shift.toJson.LacksKey reservedKey :=
  Json.lacksKey_single (by decide) (Json.lacksKey_string _)

theorem Selector.lacksKey_toJson (selector : Selector) :
    selector.toJson.LacksKey reservedKey := by
  apply Json.lacksKey_object
  intro field member
  simp only [List.mem_append, List.mem_cons, List.not_mem_nil, or_false,
    Json.mem_optionalField] at member
  rcases member with ((rfl | rfl) | ⟨condition, _, rfl⟩) | ⟨shift, _, rfl⟩
  · exact Json.fieldLacks (by decide) (Json.lacksKey_string _)
  · exact Json.fieldLacks (by decide) selector.metric.lacksKey_toJson
  · exact Json.fieldLacks (by decide) condition.lacksKey_toJson
  · exact Json.fieldLacks (by decide) shift.lacksKey_toJson

theorem Annotations.lacksKey_toJson {annotations : Annotations}
    (unreserved : (Node.annotations annotations).Satisfies .unreserved) :
    annotations.toJson.LacksKey reservedKey := by
  apply Json.lacksKey_object
  intro field member
  simp only [List.mem_append, Json.mem_optionalField, Json.mem_listField] at member
  rcases member with ((⟨label, _, rfl⟩ | ⟨_, rfl⟩) | ⟨_, rfl⟩) | static
  · exact Json.fieldLacks (by decide) (Json.lacksKey_string _)
  · exact Json.fieldLacks (by decide) (by simp [Tag.lacksKey_toJson])
  · exact Json.fieldLacks (by decide) (by simp)
  · rw [mem_staticsField static]
    have free : reservedKey ∉ annotations.statics.entries.map Prod.fst := by
      rw [← Bindings.contains_iff, Bool.not_eq_true]
      exact (Node.satisfies_annotations.1 unreserved).1
    refine ⟨(by decide : "static" ≠ reservedKey), fun impossible => absurd rfl impossible, ?_⟩
    rintro _ _ ⟨⟩
    exact free

mutual

theorem Value.lacksKey_toJson : ∀ value : Value, (Node.value value).Satisfies .unreserved →
    value.toJson.LacksKey reservedKey
  | .text _, _ => Json.lacksKey_single (by decide) (Json.lacksKey_string _)
  | .number x, _ => Json.lacksKey_single (by decide) (Json.lacksKey_ofFloat x)
  | .selector selector, _ => Json.lacksKey_single (by decide) selector.lacksKey_toJson
  | .call call, unreserved =>
    Json.lacksKey_single (by decide)
      (Call.lacksKey_toJson call (unreserved.of_mem_children List.mem_cons_self))
  | .part part, unreserved =>
    Json.lacksKey_single (by decide)
      (Part.lacksKey_toJson part (unreserved.of_mem_children List.mem_cons_self))

theorem Argument.lacksKey_toJson : ∀ argument : Argument,
    (Node.argument argument).Satisfies .unreserved → argument.toJson.LacksKey reservedKey
  | .subject, _ => Json.lacksKey_string _
  | .reference _, _ => Json.lacksKey_single (by decide) (Json.lacksKey_string _)
  | .value value, unreserved =>
    Json.lacksKey_single (by decide)
      (Value.lacksKey_toJson value (unreserved.of_mem_children List.mem_cons_self))

theorem lacksKey_arguments : ∀ arguments : List Argument,
    (∀ argument ∈ arguments, (Node.argument argument).Satisfies .unreserved) →
    ∀ item ∈ argumentsToJson arguments, item.LacksKey reservedKey
  | [], _ => by simp [argumentsToJson]
  | argument :: rest, unreserved => by
    obtain ⟨own, later⟩ := List.forall_mem_cons.1 unreserved
    rw [argumentsToJson, List.forall_mem_cons]
    exact ⟨Argument.lacksKey_toJson argument own, lacksKey_arguments rest later⟩

theorem Call.lacksKey_toJson : ∀ call : Call, (Node.call call).Satisfies .unreserved →
    call.toJson.LacksKey reservedKey
  | ⟨function, arguments⟩, unreserved => by
    have items := lacksKey_arguments arguments (Node.satisfies_call.1 unreserved)
    rw [Call.toJson]
    refine Json.lacksKey_object (List.forall_mem_cons.2 ⟨?_, List.forall_mem_singleton.2 ?_⟩)
    · exact Json.fieldLacks (by decide) (Json.lacksKey_string function)
    · exact Json.fieldLacks (by decide) (Json.lacksKey_array.2 items)

theorem Part.lacksKey_toJson : ∀ part : Part, (Node.part part).Satisfies .unreserved →
    part.toJson.LacksKey reservedKey
  | ⟨selector, call, annotations, name, excluded⟩, unreserved => by
    obtain ⟨_, calls, annotated⟩ := Node.satisfies_part.1 unreserved
    rw [Part.toJson]
    apply Json.lacksKey_object
    intro field member
    simp only [List.mem_cons, List.mem_append, Json.mem_optionalField] at member
    rcases member with rfl | called | ⟨held, present, rfl⟩ | ⟨given, _, rfl⟩ | flag
    · exact Json.fieldLacks (by decide) selector.lacksKey_toJson
    · exact lacksKey_callField call calls field called
    · exact Json.fieldLacks (by decide) (Annotations.lacksKey_toJson (annotated held present))
    · exact Json.fieldLacks (by decide) (Json.lacksKey_string _)
    · obtain ⟨_, rfl⟩ := Part.mem_excludedField.1 flag
      exact Json.fieldLacks (by decide) (Json.lacksKey_bool _)

theorem lacksKey_callField : ∀ call : Option Call,
    (∀ held, call = some held → (Node.call held).Satisfies .unreserved) →
    ∀ field ∈ callField call, Json.FieldLacks reservedKey field
  | none, _ => by simp [callField]
  | some call, unreserved => by
    rw [callField, List.forall_mem_singleton]
    exact Json.fieldLacks (by decide) (Call.lacksKey_toJson call (unreserved call rfl))

end

theorem Query.lacksKey_toJson {query : Query}
    (unreserved : (Node.query query).Satisfies .unreserved) :
    query.toJson.LacksKey reservedKey := by
  obtain ⟨parts, _, _⟩ := Node.satisfies_query.1 unreserved
  rw [toJson_eq]
  apply Json.lacksKey_object
  intro field member
  simp only [writtenFields, List.mem_append, List.mem_singleton, Json.mem_optionalField] at member
  rcases member with (((⟨held, _, rfl⟩ | rfl) | ⟨held, _, rfl⟩) | ⟨held, _, rfl⟩) | ⟨held, _, rfl⟩
  · exact Json.fieldLacks (by decide) (Json.lacksKey_string _)
  · refine Json.fieldLacks (by decide) (Json.lacksKey_array.2 (List.forall_mem_map.2 ?_))
    exact fun part member => part.lacksKey_toJson (parts part member)
  · exact Json.fieldLacks (by decide) (Json.lacksKey_string _)
  · exact Json.fieldLacks (by decide) (Json.lacksKey_string _)
  · exact Json.fieldLacks (by decide) (Json.lacksKey_number _)

namespace Node

def document : Node → Json
  | .tag own => own.toJson
  | .metric own => own.toJson
  | .duration own => own.toJson
  | .condition own => own.toJson
  | .selector own => own.toJson
  | .annotations own => own.toJson
  | .value own => own.toJson
  | .argument own => own.toJson
  | .call own => own.toJson
  | .part own => own.toJson
  | .query own => own.toJson

theorem lacksKey_document {node : Node} (unreserved : node.Satisfies .unreserved) :
    node.document.LacksKey reservedKey := by
  cases node with
  | tag own => exact own.lacksKey_toJson
  | metric own => exact own.lacksKey_toJson
  | duration own => exact Json.lacksKey_number _
  | condition own => exact own.lacksKey_toJson
  | selector own => exact own.lacksKey_toJson
  | annotations own => exact Annotations.lacksKey_toJson unreserved
  | value own => exact own.lacksKey_toJson unreserved
  | argument own => exact own.lacksKey_toJson unreserved
  | call own => exact own.lacksKey_toJson unreserved
  | part own => exact own.lacksKey_toJson unreserved
  | query own => exact Query.lacksKey_toJson unreserved

end Node

end MetricQuery

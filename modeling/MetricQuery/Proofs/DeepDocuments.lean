import MetricQuery.Proofs.JsonTexts
import MetricQuery.Proofs.QueryDocuments

/-!
# Documents that are seen only in part are refused

Where a document is nested deeper than there is room for, reading it fails: every
part of a written document is needed by the one who reads it, down to the
innermost list or object.
-/

set_option autoImplicit false

namespace MetricQuery

namespace Json

/-! ## Readers that need all of a value -/

/-- A reader of values that fails on what is seen of a value too deep for the room. -/
def NeedsAll {α : Type} (read : Json → Decoded α) (value : Json) : Prop :=
  ∀ room, room < value.levels → Fails (read (value.within room))

theorem fails_malformed {α : Type} : Fails (malformed : Decoded α) :=
  ⟨_, rfl⟩

theorem itemsWithin_eq (room : Nat) (items : List Json) :
    itemsWithin room items = items.map (within room) := by
  induction items with
  | nil => rfl
  | cons item rest ih => rw [itemsWithin, ih, List.map_cons]

theorem fieldsWithin_eq (room : Nat) (fields : List (String × Json)) :
    fieldsWithin room fields = fields.map fun field => (field.1, field.2.within room) := by
  induction fields with
  | nil => rfl
  | cons field rest ih => rw [fieldsWithin, ih, List.map_cons]

theorem lt_itemsLevels {room : Nat} {items : List Json} :
    room < itemsLevels items ↔ ∃ item ∈ items, room < item.levels := by
  induction items with
  | nil => simp [itemsLevels]
  | cons item rest ih => simp [itemsLevels, ih]

theorem lt_fieldsLevels {room : Nat} {fields : List (String × Json)} :
    room < fieldsLevels fields ↔ ∃ field ∈ fields, room < field.2.levels := by
  induction fields with
  | nil => simp [fieldsLevels]
  | cons field rest ih => simp [fieldsLevels, ih]

theorem levels_lt_of_mem_items {item : Json} {items : List Json} (member : item ∈ items) :
    item.levels < (Json.array items).levels := by
  have inside : ¬ itemsLevels items < item.levels := fun beyond =>
    Nat.lt_irrefl _ (lt_itemsLevels.2 ⟨item, member, beyond⟩)
  rw [levels]
  omega

theorem levels_lt_of_mem_fields {name : String} {value : Json} {fields : List (String × Json)}
    (member : (name, value) ∈ fields) : value.levels < (Json.object fields).levels := by
  have inside : ¬ fieldsLevels fields < value.levels := fun beyond =>
    Nat.lt_irrefl _ (lt_fieldsLevels.2 ⟨(name, value), member, beyond⟩)
  rw [levels]
  omega

theorem within_zero {value : Json} (nested : 0 < value.levels) : value.within 0 = .unreadable := by
  cases value with
  | array | object => rfl
  | _ => exact absurd nested (Nat.lt_irrefl 0)

variable {α β : Type} {read : Json → Decoded α}

theorem NeedsAll.map {value : Json} (needs : NeedsAll read value) (f : α → β) :
    NeedsAll (fun value => (read value).map f) value :=
  fun room short => (needs room short).map f

/-- The reader of a value that has to be there. -/
theorem NeedsAll.some {value : Json} (needs : NeedsAll read value) :
    NeedsAll (fun value => do let given ← read value; pure (some given)) value := by
  intro room short
  obtain ⟨fault, failure⟩ := needs room short
  simp only [failure]
  exact ⟨fault, rfl⟩

theorem needsAll_array {items : List Json} (rejects : Fails (read .unreadable))
    (inside : ∀ room, (∃ item ∈ items, room < item.levels) →
      Fails (read (.array (items.map (within room))))) :
    NeedsAll read (.array items) := by
  intro room short
  cases room with
  | zero => exact rejects
  | succ room =>
    rw [levels, Nat.succ_lt_succ_iff, lt_itemsLevels] at short
    have opened := inside room short
    rwa [← itemsWithin_eq] at opened

theorem needsAll_object {fields : List (String × Json)} (rejects : Fails (read .unreadable))
    (inside : ∀ room, (∃ field ∈ fields, room < field.2.levels) →
      Fails (read (.object (fields.map fun field => (field.1, field.2.within room))))) :
    NeedsAll read (.object fields) := by
  intro room short
  cases room with
  | zero => exact rejects
  | succ room =>
    rw [levels, Nat.succ_lt_succ_iff, lt_fieldsLevels] at short
    have opened := inside room short
    rwa [← fieldsWithin_eq] at opened

/-- A value without lists or objects inside is seen in full or not at all. -/
theorem needsAll_of_flat {value : Json} (rejects : Fails (read .unreadable))
    (flat : value.levels ≤ 1) : NeedsAll read value := by
  intro room short
  obtain rfl : room = 0 := by omega
  rw [within_zero short]
  exact rejects

/-- A value that is no list or object needs no room. -/
theorem needsAll_leaf {value : Json} (leaf : value.levels = 0) : NeedsAll read value := by
  intro room short
  omega

theorem needsAll_asList {items : List Json} (needs : ∀ item ∈ items, NeedsAll read item) :
    NeedsAll (asList read) (.array items) := by
  apply needsAll_array fails_malformed
  rintro room ⟨item, member, short⟩
  apply fails_mapM
  exact ⟨item.within room, List.mem_map_of_mem member, needs item member room short⟩

theorem needsAll_asOptional {value : Json} (needs : NeedsAll read value) :
    NeedsAll (asOptional read) value := by
  intro room short
  have failure := needs room short
  cases shown : value.within room with
  | null =>
    -- only `null` itself is seen as `null`, and it needs no room
    cases value with
    | null => exact absurd short (Nat.not_lt_zero room)
    | array items | object fields =>
      rw [within, ifRoom] at shown
      split at shown <;> cases shown
    | _ => cases shown
  | _ =>
    rw [shown] at failure
    exact failure.map some

theorem needsAll_asStructure (known : List String) (draft : α)
    {set : α → String → Json → Decoded α} {fields : List (String × Json)}
    (needs : ∀ field ∈ fields, ∀ held, NeedsAll (set held field.1) field.2) :
    NeedsAll (fun document => document.asStructure known draft set) (.object fields) := by
  apply needsAll_object fails_malformed
  rintro room ⟨field, member, short⟩
  simp only [asStructure, structureFields]
  cases repeatsField known (fields.map fun field => (field.1, field.2.within room)) with
  | true => exact fails_malformed
  | false =>
    apply fails_foldlM
    exact ⟨_, List.mem_map_of_mem member, fun held => needs field member held room short⟩

/-- A structure from which something is made, if all its fields are read. -/
theorem needsAll_finish {known : List String} {draft : α} {set : α → String → Json → Decoded α}
    {read : Json → Decoded β}
    (passed : ∀ document fault, document.asStructure known draft set = .error fault →
      read document = .error fault)
    {fields : List (String × Json)}
    (needs : ∀ field ∈ fields, ∀ held, NeedsAll (set held field.1) field.2) :
    NeedsAll read (.object fields) := by
  intro room short
  obtain ⟨fault, failure⟩ := needsAll_asStructure known draft needs room short
  exact ⟨fault, passed _ fault failure⟩

mutual

theorem isReadable_within : ∀ (value : Json) {room : Nat}, room < value.levels →
    (value.within room).isReadable = false
  | .null, _, short | .bool _, _, short | .number _, _, short | .string _, _, short
  | .unreadable, _, short => absurd short (Nat.not_lt_zero _)
  | .array _, 0, _ | .object _, 0, _ => rfl
  | .array items, _ + 1, short => allReadable_itemsWithin items (Nat.succ_lt_succ_iff.1 short)
  | .object fields, _ + 1, short =>
    allFieldsReadable_fieldsWithin fields (Nat.succ_lt_succ_iff.1 short)

theorem allReadable_itemsWithin : ∀ (items : List Json) {room : Nat}, room < itemsLevels items →
    allReadable (itemsWithin room items) = false
  | [], _, short => absurd short (Nat.not_lt_zero _)
  | item :: rest, room, short => by
    rw [itemsWithin, allReadable, Bool.and_eq_false_iff]
    rcases Nat.lt_or_ge room item.levels with own | enough
    · exact Or.inl (isReadable_within item own)
    · rw [itemsLevels] at short
      exact Or.inr (allReadable_itemsWithin rest (by omega))

theorem allFieldsReadable_fieldsWithin : ∀ (fields : List (String × Json)) {room : Nat},
    room < fieldsLevels fields → allFieldsReadable (fieldsWithin room fields) = false
  | [], _, short => absurd short (Nat.not_lt_zero _)
  | (name, value) :: rest, room, short => by
    rw [fieldsWithin, allFieldsReadable, Bool.and_eq_false_iff]
    rcases Nat.lt_or_ge room value.levels with own | enough
    · exact Or.inl (isReadable_within value own)
    · rw [fieldsLevels] at short
      exact Or.inr (allFieldsReadable_fieldsWithin rest (by omega))

end

/-- Static fields may be any values, all of which have to be readable. -/
theorem needsAll_asFields (fields : List (String × Json)) : NeedsAll asFields (.object fields) := by
  apply needsAll_object fails_malformed
  intro room short
  have unread := allFieldsReadable_fieldsWithin fields (lt_fieldsLevels.2 short)
  rw [fieldsWithin_eq] at unread
  rw [asFields, unread]
  exact fails_malformed

end Json

/-! ## Selectors -/

open Json (NeedsAll)

theorem Tag.needsAll (tag : Tag) : NeedsAll Tag.ofJson tag.toJson := by
  obtain ⟨scope, name⟩ := tag
  apply Json.needsAll_of_flat Json.fails_malformed
  cases scope <;> exact Nat.le_refl 1

theorem Json.itemsLevels_strings (texts : List String) : itemsLevels (texts.map .string) = 0 := by
  induction texts with
  | nil => rfl
  | cons text rest ih => simp [itemsLevels, levels, ih]

theorem Metric.needsAll (metric : Metric) : NeedsAll Metric.ofJson metric.toJson := by
  apply Json.needsAll_of_flat Json.fails_malformed
  cases metric with
  | all => exact Nat.zero_le 1
  | path segments => rw [toJson, Json.levels, Json.itemsLevels_strings]

namespace Condition

theorem ofJson_opArgs (operator : String) (arguments : Json) :
    ofJson (.object [("op", .string operator), ("args", arguments)]) =
      ofArguments (.ofName operator) arguments := by
  rw [ofJson]
  rfl

theorem fails_unreadable (operator : Operator) : Fails (ofArguments operator .unreadable) := by
  cases operator <;> exact ⟨_, rfl⟩

theorem needsAll_opArgs {operator : String} {arguments : Json}
    (needs : NeedsAll (ofArguments (.ofName operator)) arguments) :
    NeedsAll ofJson (.object [("op", .string operator), ("args", arguments)]) := by
  apply Json.needsAll_object Json.fails_malformed
  rintro room ⟨field, member, short⟩
  change Fails (ofJson (.object [("op", .string operator), ("args", arguments.within room)]))
  rw [ofJson_opArgs]
  rcases List.mem_cons.1 member with rfl | member
  · exact absurd short (Nat.not_lt_zero room)
  · obtain rfl := List.mem_singleton.1 member
    exact needs room short

/-- The arguments of an operator on a tag and a text, or on two conditions. -/
theorem needsAll_pair {operator : Operator} {first second : Json}
    (inside : ∀ room, room < first.levels ∨ room < second.levels →
      Fails (ofArguments operator (.array [first.within room, second.within room]))) :
    NeedsAll (ofArguments operator) (.array [first, second]) := by
  apply Json.needsAll_array (fails_unreadable operator)
  rintro room ⟨item, member, short⟩
  apply inside room
  rcases List.mem_cons.1 member with rfl | member
  · exact Or.inl short
  · obtain rfl := List.mem_singleton.1 member
    exact Or.inr short

theorem needsAll (condition : Condition) : NeedsAll ofJson condition.toJson := by
  induction condition with
  | equals tag value | differs tag value =>
    apply needsAll_opArgs
    apply needsAll_pair
    rintro room (short | short)
    · obtain ⟨fault, failure⟩ := tag.needsAll room short
      simp only [Operator.ofName, ofArguments, failure]
      exact Json.fails_malformed
    · exact absurd short (Nat.not_lt_zero room)
  | present tag =>
    have same : ofArguments .present = fun document =>
        (Tag.ofJson document).map Condition.present := by
      funext document
      rw [ofArguments]
    apply needsAll_opArgs
    change NeedsAll (ofArguments .present) tag.toJson
    rw [same]
    exact tag.needsAll.map Condition.present
  | and left right leftNeeds rightNeeds | or left right leftNeeds rightNeeds =>
    apply needsAll_opArgs
    apply needsAll_pair
    rintro room (short | short)
    · obtain ⟨fault, failure⟩ := leftNeeds room short
      simp only [Operator.ofName, ofArguments, failure]
      exact Json.fails_malformed
    · obtain ⟨fault, failure⟩ := rightNeeds room short
      simp only [Operator.ofName, ofArguments, failure]
      cases ofJson (left.toJson.within room) <;> exact Json.fails_malformed
  | unknown => exact Json.needsAll_of_flat Json.fails_malformed (Nat.le_refl 1)

end Condition

theorem Timeshift.needsAll (shift : Timeshift) : NeedsAll ofJson shift.toJson :=
  Json.needsAll_of_flat Json.fails_malformed (Nat.le_refl 1)

namespace Selector

theorem needsAll (selector : Selector) : NeedsAll ofJson selector.toJson := by
  have passed : ∀ document fault, document.asStructure fieldNames {} setField = .error fault →
      ofJson document = .error fault := by
    intro document fault failure
    rw [ofJson, failure]
  apply Json.needsAll_finish passed
  change ∀ field ∈ selector.writtenFields, _
  intro field member held
  simp only [writtenFields, List.mem_append, List.mem_cons, List.not_mem_nil, or_false,
    Json.mem_optionalField] at member
  rcases member with ((rfl | rfl) | ⟨condition, _, rfl⟩) | ⟨shift, _, rfl⟩
  · exact Json.needsAll_leaf rfl
  · exact selector.metric.needsAll.some.map _
  · exact (Json.needsAll_asOptional condition.needsAll).map _
  · exact (Json.needsAll_asOptional shift.needsAll).map _

end Selector

/-! ## Annotations -/

namespace Annotations

theorem needsAll (annotations : Annotations) : NeedsAll ofJson annotations.toJson := by
  apply Json.needsAll_asStructure
  change ∀ field ∈ annotations.writtenFields, _
  intro field member held
  simp only [writtenFields, List.mem_append, Json.mem_optionalField, Json.mem_listField] at member
  rcases member with ((⟨label, _, rfl⟩ | ⟨_, rfl⟩) | ⟨_, rfl⟩) | static
  · exact Json.needsAll_leaf rfl
  · have tags : ∀ item ∈ annotations.tags.map Tag.toJson, NeedsAll Tag.ofJson item :=
      List.forall_mem_map.2 fun tag _ => tag.needsAll
    exact (Json.needsAll_asList tags).map _
  · have lead : ∀ item ∈ annotations.lead.map Json.string, NeedsAll Json.asString item :=
      List.forall_mem_map.2 fun _ _ => Json.needsAll_leaf rfl
    exact (Json.needsAll_asList lead).map _
  · rw [mem_staticsField static]
    exact (Json.needsAll_asFields _).map _

end Annotations

/-! ## Expressions -/

/-- A value that names its kind, read by the reader of the kind. -/
theorem Json.needsAll_single {α : Type} {read : Json → Decoded α} {kind : String} {content : Json}
    (rejects : Fails (read .unreadable))
    (needs : NeedsAll (fun content => read (.object [(kind, content)])) content) :
    NeedsAll read (.object [(kind, content)]) := by
  apply needsAll_object rejects
  rintro room ⟨field, member, short⟩
  obtain rfl := List.mem_singleton.1 member
  exact needs room short

namespace Call

theorem needsAll_of {call : Call}
    (needs : ∀ argument ∈ call.arguments, NeedsAll Argument.ofJson argument.toJson) :
    NeedsAll ofJson call.toJson := by
  have items : ∀ item ∈ call.arguments.map Argument.toJson, NeedsAll Argument.ofJson item :=
    List.forall_mem_map.2 needs
  have passed : ∀ document fault, document.asStructure fieldNames {} setDocument = .error fault →
      ofJson document = .error fault := by
    intro document fault failure
    rw [ofJson_eq, failure]
  rw [toJson_eq]
  apply Json.needsAll_finish passed
  intro field member held
  simp only [writtenFields, List.mem_cons, List.not_mem_nil, or_false] at member
  rcases member with rfl | rfl
  · exact Json.needsAll_leaf rfl
  · exact (Json.needsAll_asList items).some.map _

end Call

namespace Part

theorem needsAll_of {part : Part}
    (needs : ∀ call, part.call = some call → NeedsAll Call.ofJson call.toJson) :
    NeedsAll ofJson part.toJson := by
  have passed : ∀ document fault, document.asStructure fieldNames {} setDocument = .error fault →
      ofJson document = .error fault := by
    intro document fault failure
    rw [ofJson_eq, failure]
  rw [toJson_eq]
  apply Json.needsAll_finish passed
  intro field member held
  simp only [writtenFields, List.mem_append, List.mem_singleton, Json.mem_optionalField,
    mem_excludedField] at member
  rcases member with (((rfl | ⟨call, called, rfl⟩) | ⟨annotations, _, rfl⟩) | ⟨name, _, rfl⟩) |
    ⟨_, rfl⟩
  · exact part.selector.needsAll.some.map _
  · have known : NeedsAll (fun value => value.asOptional fun _ => Call.ofJson value)
        call.toJson := by
      simp only [Json.asOptional_const]
      exact Json.needsAll_asOptional (needs call called)
    exact known.map _
  · exact (Json.needsAll_asOptional annotations.needsAll).map _
  · exact Json.needsAll_leaf rfl
  · exact Json.needsAll_leaf rfl

end Part

mutual

theorem Value.needsAll : ∀ value : Value, NeedsAll Value.ofJson value.toJson
  | .text _ => Json.needsAll_of_flat Json.fails_malformed (Nat.le_refl 1)
  | .number x => by
    apply Json.needsAll_of_flat Json.fails_malformed
    rw [Value.toJson, Json.ofFloat]
    split <;> exact Nat.le_refl 1
  | .selector selector =>
    Json.needsAll_single Json.fails_malformed (selector.needsAll.map Value.selector)
  | .call call => Json.needsAll_single Json.fails_malformed ((Call.needsAll call).map Value.call)
  | .part part => Json.needsAll_single Json.fails_malformed ((Part.needsAll part).map Value.part)

theorem Argument.needsAll : ∀ argument : Argument, NeedsAll Argument.ofJson argument.toJson
  | .subject => Json.needsAll_leaf rfl
  | .reference _ => Json.needsAll_of_flat Json.fails_malformed (Nat.le_refl 1)
  | .value value =>
    Json.needsAll_single Json.fails_malformed ((Value.needsAll value).map Argument.value)

theorem needsAll_arguments : ∀ arguments : List Argument, ∀ argument ∈ arguments,
    NeedsAll Argument.ofJson argument.toJson
  | [] => fun _ member => absurd member List.not_mem_nil
  | first :: rest => by
    intro argument member
    rcases List.mem_cons.1 member with same | later
    · rw [same]
      exact Argument.needsAll first
    · exact needsAll_arguments rest argument later

theorem Call.needsAll : ∀ call : Call, NeedsAll Call.ofJson call.toJson
  | ⟨_, arguments⟩ => Call.needsAll_of (needsAll_arguments arguments)

theorem Part.needsAll : ∀ part : Part, NeedsAll Part.ofJson part.toJson
  | ⟨_, call, _, _, _⟩ => Part.needsAll_of (needsAll_call call)

theorem needsAll_call : ∀ call : Option Call, ∀ held, call = some held →
    NeedsAll Call.ofJson held.toJson
  | none => fun _ impossible => absurd impossible (by simp)
  | some call => by
    intro held same
    rw [← Option.some.inj same]
    exact Call.needsAll call

end

/-! ## Queries -/

theorem Query.needsAll (query : Query) : NeedsAll ofJson query.toJson := by
  rw [toJson_eq]
  apply Json.needsAll_asStructure
  intro field member held
  simp only [writtenFields, List.mem_append, List.mem_singleton, Json.mem_optionalField] at member
  rcases member with (((⟨collection, _, rfl⟩ | rfl) | ⟨instant, _, rfl⟩) | ⟨instant, _, rfl⟩) |
    ⟨duration, _, rfl⟩
  · exact Json.needsAll_leaf rfl
  · have parts : ∀ item ∈ query.parts.map Part.toJson, NeedsAll Part.ofJson item :=
      List.forall_mem_map.2 fun part _ => part.needsAll
    exact (Json.needsAll_asList parts).map _
  · exact Json.needsAll_leaf rfl
  · exact Json.needsAll_leaf rfl
  · exact Json.needsAll_leaf rfl

end MetricQuery

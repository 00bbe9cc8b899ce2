import Mathlib.Logic.Relation
import MetricQuery.Document.Reading
import MetricQuery.Proofs.Arrangements
import MetricQuery.Proofs.Results

/-!
# Documents of structures

A structure is written as an object of distinct names and read field by field.
What has been read at any moment is determined by the names that have been seen,
so that the order of the fields does not matter.
-/

set_option autoImplicit false

namespace MetricQuery.Json

/-! ## Fields -/

theorem repeatsField_of_nodup (known : List String) {fields : List (String × Json)}
    (distinct : (fields.map Prod.fst).Nodup) : repeatsField known fields = false := by
  induction fields with
  | nil => rfl
  | cons field rest ih =>
    obtain ⟨fresh, later⟩ := List.nodup_cons.1 distinct
    have alone : (rest.any fun other => other.1 == field.1) = false := by
      rw [List.any_eq_false]
      intro other member same
      exact fresh (List.mem_map.2 ⟨other, member, beq_iff_eq.1 same⟩)
    rw [repeatsField, alone, Bool.and_false, Bool.false_or, ih later]

theorem repeatsField_append {known : List String} {front back : List (String × Json)}
    (single : repeatsField known (front ++ back) = false) : repeatsField known back = false := by
  induction front with
  | nil => exact single
  | cons field front ih =>
    obtain ⟨name, value⟩ := field
    rw [List.cons_append, repeatsField, Bool.or_eq_false_iff] at single
    exact ih single.2

theorem names_zip (known : List String) (items : List Json) :
    ((known.zip items).map Prod.fst).Sublist known := by
  induction known generalizing items with
  | nil => exact List.Sublist.refl _
  | cons name known ih =>
    cases items with
    | nil => exact List.nil_sublist _
    | cons item items => exact (ih items).cons_cons name

/-- The fields of a structure are those of an object, none of them given twice, or the
values of a list by the places of the names. -/
theorem structureFields_eq_ok {known : List String} {document : Json}
    {fields : List (String × Json)} (success : structureFields known document = .ok fields) :
    (document = .object fields ∧ repeatsField known fields = false) ∨
      ∃ items, document = .array items ∧ fields = known.zip items := by
  unfold structureFields at success
  split at success
  · split at success
    · cases success
    · rename_i single
      obtain rfl := Except.ok.inj success
      exact Or.inl ⟨rfl, Bool.eq_false_of_not_eq_true single⟩
  · rename_i items
    split at success
    · cases success
    · exact Or.inr ⟨items, rfl, (Except.ok.inj success).symm⟩
  · cases success

/-- No known name occurs twice among the fields that are read. -/
theorem repeatsField_of_structureFields {known : List String} (distinct : known.Nodup)
    {document : Json} {fields : List (String × Json)}
    (success : structureFields known document = .ok fields) : repeatsField known fields = false := by
  rcases structureFields_eq_ok success with ⟨_, single⟩ | ⟨items, _, rfl⟩
  · exact single
  · exact repeatsField_of_nodup known ((names_zip known items).nodup distinct)

/-- Reading field by field, where `state` is what has been read when some names
have been seen. -/
theorem foldlM_fields {α : Type} {set : α → String → Json → Decoded α}
    (state : (String → Bool) → α) {fields : List (String × Json)}
    (step : ∀ seen, ∀ field ∈ fields, set (state seen) field.1 field.2 =
      .ok (state fun name => field.1 == name || seen name)) :
    ∀ seen, fields.foldlM (fun draft field => set draft field.1 field.2) (state seen) =
      .ok (state fun name => (fields.any fun field => field.1 == name) || seen name) := by
  induction fields with
  | nil => intro seen; rfl
  | cons field rest ih =>
    intro seen
    have later := ih (fun seen other member => step seen other (List.mem_cons_of_mem _ member))
      fun name => field.1 == name || seen name
    rw [List.foldlM_cons, step seen field List.mem_cons_self]
    refine later.trans ?_
    congr 2
    funext name
    rw [List.any_cons, Bool.or_assoc, Bool.or_left_comm]

/-- A structure that was written as an object is read in any arrangement. -/
theorem Arranges.asStructure {form : Json → Json} (arranges : Arranges form) {α : Type}
    (known : List String) {set : α → String → Json → Decoded α} {draft : α}
    (state : (String → Bool) → α) (start : state (fun _ => false) = draft)
    {fields : List (String × Json)} (distinct : (fields.map Prod.fst).Nodup)
    (step : ∀ seen, ∀ field ∈ fields, set (state seen) field.1 (form field.2) =
      .ok (state fun name => field.1 == name || seen name)) :
    (form (.object fields)).asStructure known draft set =
      .ok (state fun name => fields.any fun field => field.1 == name) := by
  obtain ⟨arranged, formed, perm⟩ := arranges.object fields distinct
  have names : (arranged.map Prod.fst).Nodup := by
    rw [(perm.map Prod.fst).nodup_iff, List.map_map]
    exact distinct
  have moved : ∀ seen, ∀ field ∈ arranged, set (state seen) field.1 field.2 =
      .ok (state fun name => field.1 == name || seen name) := by
    intro seen field member
    obtain ⟨original, inside, rfl⟩ := List.mem_map.1 (perm.mem_iff.1 member)
    exact step seen original inside
  have read := foldlM_fields state moved fun _ => false
  rw [formed, Json.asStructure, structureFields, repeatsField_of_nodup known names, ← start]
  simp only [Bool.false_eq_true, if_false, read]
  congr 2
  funext name
  rw [Bool.or_false, perm.any_eq, List.any_map]
  rfl

/-! ## Optional fields -/

theorem mem_optionalField {α : Type} {name : String} {write : α → Json} {value : Option α}
    {field : String × Json} :
    field ∈ optionalField name write value ↔ ∃ held, value = some held ∧ field = (name, write held) := by
  cases value with
  | none => simp [optionalField]
  | some held => simp [optionalField]

theorem mem_listField {α : Type} {name : String} {write : α → Json} {values : List α}
    {field : String × Json} :
    field ∈ listField name write values ↔
      values ≠ [] ∧ field = (name, .array (values.map write)) := by
  cases values with
  | nil => simp [listField]
  | cons value rest => simp [listField]

theorem names_optionalField {α : Type} (name : String) (write : α → Json) (value : Option α) :
    ((optionalField name write value).map Prod.fst).Sublist [name] := by
  cases value with
  | none => exact List.nil_sublist _
  | some held => exact List.Sublist.refl _

theorem names_listField {α : Type} (name : String) (write : α → Json) (values : List α) :
    ((listField name write values).map Prod.fst).Sublist [name] := by
  cases values with
  | nil => exact List.nil_sublist _
  | cons value rest => exact List.Sublist.refl _

/-- Whether an optional field is there. -/
theorem any_optionalField {α : Type} (name key : String) (write : α → Json) (value : Option α) :
    (optionalField name write value).any (fun field => field.1 == key) =
      (value.isSome && name == key) := by
  cases value <;> simp [optionalField]

theorem any_listField {α : Type} (name key : String) (write : α → Json) (values : List α) :
    (listField name write values).any (fun field => field.1 == key) =
      (!values.isEmpty && name == key) := by
  cases values <;> simp [listField]

/-- An optional value that is read where its field is there. -/
@[simp] theorem ite_isSome {α : Type} (value : Option α) :
    (if value.isSome then value else none) = value := by
  cases value <;> rfl

/-! ## Values -/

namespace Arranges

variable {form : Json → Json}

theorem asString (arranges : Arranges form) (text : String) :
    (form (.string text)).asString = .ok text := by
  rw [arranges.string]
  rfl

theorem asList {α : Type} (arranges : Arranges form) {read : Json → Decoded α}
    {write : α → Json} {values : List α}
    (readsBack : ∀ value ∈ values, read (form (write value)) = .ok value) :
    (form (.array (values.map write))).asList read = .ok values := by
  rw [arranges.array, Json.asList, mapM_eq_ok_iff, List.forall₂_map_left_iff,
    List.forall₂_map_left_iff, List.forall₂_same]
  exact readsBack

end Arranges

/-- A value that is there is read as such, where `null` would not be one. -/
theorem asOptional_of_ok {α : Type} {read : Json → Decoded α} {document : Json} {value : α}
    (rejects : read .null = malformed) (success : read document = .ok value) :
    document.asOptional read = .ok (some value) := by
  unfold asOptional
  split
  · rw [rejects] at success
    cases success
  · rw [success]
    rfl

theorem asOptional_const {α : Type} (read : Json → Decoded α) (document : Json) :
    document.asOptional (fun _ => read document) = document.asOptional read := by
  cases document <;> rfl

theorem asOptional_eq_ok {α : Type} {read : Json → Decoded α} {document : Json}
    {value : Option α} (success : document.asOptional read = .ok value) :
    ∀ held, value = some held → read document = .ok held := by
  intro held same
  subst same
  unfold asOptional at success
  split at success
  · cases success
  · obtain ⟨found, read, inner⟩ := map_eq_ok success
    rw [read, Option.some.inj inner]

/-! ## Parts of a document -/

def children : Json → List Json
  | .array items => items
  | .object fields => fields.map Prod.snd
  | _ => []

/-- The values directly inside of a value that are read further. The static fields of
annotations are not, as they may hold anything. -/
def pieces : Json → List Json
  | .array items => items
  | .object fields => (fields.filter fun field => field.1 != "static").map Prod.snd
  | _ => []

/-- A value is a piece of itself, and has the pieces of the values inside of it. -/
def HasPiece : Json → Json → Prop :=
  Relation.ReflTransGen fun outer inner => inner ∈ outer.pieces

theorem mem_pieces_of_mem {fields : List (String × Json)} {name : String} {value : Json}
    (member : (name, value) ∈ fields) (read : name ≠ "static") : value ∈ (object fields).pieces :=
  List.mem_map.2 ⟨(name, value), List.mem_filter.2 ⟨member, by simpa using read⟩, rfl⟩

theorem sizeOf_lt_of_mem_children {document child : Json} (inside : child ∈ document.children) :
    sizeOf child < sizeOf document := by
  unfold children at inside
  split at inside
  · have bound := List.sizeOf_lt_of_mem inside
    simp only [array.sizeOf_spec]
    omega
  · obtain ⟨field, member, rfl⟩ := List.mem_map.1 inside
    have bound := List.sizeOf_lt_of_mem member
    have own : sizeOf field = 1 + sizeOf field.1 + sizeOf field.2 := by
      obtain ⟨name, value⟩ := field
      rfl
    simp only [object.sizeOf_spec]
    omega
  · cases inside

theorem mem_children_of_structureFields {known : List String} {document : Json}
    {fields : List (String × Json)} (success : structureFields known document = .ok fields) :
    ∀ field ∈ fields, field.2 ∈ document.children := by
  intro field member
  rcases structureFields_eq_ok success with ⟨rfl, _⟩ | ⟨items, rfl, rfl⟩
  · exact List.mem_map_of_mem member
  · exact (List.of_mem_zip member).2

theorem mem_pieces_of_structureFields {known : List String} {document : Json}
    {fields : List (String × Json)} (success : structureFields known document = .ok fields) :
    ∀ field ∈ fields, field.1 ≠ "static" → field.2 ∈ document.pieces := by
  intro field member notStatic
  rcases structureFields_eq_ok success with ⟨rfl, _⟩ | ⟨items, rfl, rfl⟩
  · exact mem_pieces_of_mem member notStatic
  · exact (List.of_mem_zip member).2

/-- Each value of a list is read from one of its items. -/
theorem asList_eq_ok {α : Type} {read : Json → Decoded α} {document : Json} {values : List α}
    (success : document.asList read = .ok values) :
    ∃ items, document = .array items ∧ ∀ value ∈ values, ∃ item ∈ items, read item = .ok value := by
  unfold asList at success
  split at success
  · rename_i items
    exact ⟨items, rfl, forall₂_left ((mapM_eq_ok_iff _ _ _).1 success).flip⟩
  · cases success

theorem mem_children_of_asList {α : Type} {read : Json → Decoded α} {document : Json}
    {values : List α} (success : document.asList read = .ok values) :
    ∀ value ∈ values, ∃ item ∈ document.children, read item = .ok value := by
  obtain ⟨items, rfl, each⟩ := asList_eq_ok success
  exact each

/-- A structure is read field by field. -/
theorem asStructure_eq_ok {α : Type} {known : List String} {draft final : α}
    {set : α → String → Json → Decoded α} {document : Json}
    (success : document.asStructure known draft set = .ok final) :
    ∃ fields, structureFields known document = .ok fields ∧
      fields.foldlM (fun draft field => set draft field.1 field.2) draft = .ok final := by
  unfold asStructure at success
  split at success
  · rename_i fields found
    exact ⟨fields, found, success⟩
  · cases success

/-- What every field that is read keeps holds of the structure. -/
theorem asStructure_invariant {α : Type} {known : List String} {draft final : α}
    {set : α → String → Json → Decoded α} {document : Json} (invariant : α → Prop)
    (step : ∀ name, ∀ value ∈ document.children, ∀ before after, invariant before →
      set before name value = .ok after → invariant after)
    (holds : invariant draft) (success : document.asStructure known draft set = .ok final) :
    invariant final := by
  obtain ⟨fields, found, read⟩ := asStructure_eq_ok success
  have inside := mem_children_of_structureFields found
  exact foldlM_invariant invariant
    (fun field member => step field.1 field.2 (inside field member)) holds read

end MetricQuery.Json

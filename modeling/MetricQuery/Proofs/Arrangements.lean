import Mathlib.Data.List.Permutation
import MetricQuery.Json.Value
import MetricQuery.Proofs.Lookups

/-!
# Arrangements of documents

A document is read alike in the order in which it is written and in the order of
its names. Both are arrangements: they go through a document and only move the
fields of its objects.
-/

set_option autoImplicit false

namespace MetricQuery.Json

/-! ## Sorted documents -/

theorem sortedItems_eq (items : List Json) : sortedItems items = items.map sorted := by
  induction items with
  | nil => rfl
  | cons item rest ih => rw [sortedItems, ih, List.map_cons]

theorem sortedFields_eq (fields : List (String × Json)) :
    ∀ held, sortedFields held fields =
      held.insertAll (fields.map fun field => (field.1, field.2.sorted)) := by
  induction fields with
  | nil => intro held; rfl
  | cons field rest ih => intro held; exact ih _

theorem sorted_of_mem_sortedFields {fields : List (String × Json)} {entry : String × Json}
    (member : entry ∈ (sortedFields ∅ fields).entries) :
    ∃ field ∈ fields, entry = (field.1, field.2.sorted) := by
  rw [sortedFields_eq] at member
  rcases Bindings.mem_of_mem_insertAll member with none | inside
  · exact absurd none List.not_mem_nil
  · obtain ⟨field, there, same⟩ := List.mem_map.1 inside
    exact ⟨field, there, same.symm⟩

/-- Fields that are in order, and their values too, stay as they are. -/
theorem sortedFields_entries {held : Bindings Json}
    (fixed : ∀ entry ∈ held.entries, entry.2.sorted = entry.2) :
    sortedFields ∅ held.entries = held := by
  have kept : held.entries.map (fun field => (field.1, field.2.sorted)) = held.entries := by
    conv_rhs => rw [← List.map_id held.entries]
    refine List.map_congr_left fun entry member => ?_
    rw [fixed entry member]
    rfl
  rw [sortedFields_eq, kept]
  exact Bindings.ofList_entries held

mutual

theorem sorted_sorted : ∀ document : Json, document.sorted.sorted = document.sorted
  | .null | .bool _ | .number _ | .string _ | .unreadable => rfl
  | .array items => by
    rw [sorted, sorted, sortedItems_sortedItems items]
  | .object fields => by
    rw [sorted, sorted, sortedFields_entries]
    intro entry member
    obtain ⟨field, inside, rfl⟩ := sorted_of_mem_sortedFields member
    exact sorted_sorted_of_mem fields field inside

theorem sortedItems_sortedItems :
    ∀ items : List Json, sortedItems (sortedItems items) = sortedItems items
  | [] => rfl
  | item :: rest => by
    rw [sortedItems, sortedItems, sorted_sorted item, sortedItems_sortedItems rest]

theorem sorted_sorted_of_mem : ∀ fields : List (String × Json), ∀ field ∈ fields,
    field.2.sorted.sorted = field.2.sorted
  | (_, value) :: rest => by
    intro field member
    rcases List.mem_cons.1 member with same | later
    · rw [same]
      exact sorted_sorted value
    · exact sorted_sorted_of_mem rest field later
  | [] => fun _ member => absurd member List.not_mem_nil

end

theorem allFieldsReadable_iff {fields : List (String × Json)} :
    allFieldsReadable fields = true ↔ ∀ field ∈ fields, field.2.isReadable = true := by
  induction fields with
  | nil => simp [allFieldsReadable]
  | cons field rest ih => simp [allFieldsReadable, ih]

mutual

theorem isReadable_sorted : ∀ document : Json, document.isReadable = true →
    document.sorted.isReadable = true
  | .null | .bool _ | .number _ | .string _ => fun _ => rfl
  | .unreadable => fun readable => readable
  | .array items => by
    intro readable
    rw [sorted, isReadable]
    exact allReadable_sorted items readable
  | .object fields => by
    intro readable
    rw [isReadable] at readable
    rw [sorted, isReadable, allFieldsReadable_iff]
    intro entry member
    obtain ⟨field, inside, rfl⟩ := sorted_of_mem_sortedFields member
    exact isReadable_sorted_of_mem fields field inside (allFieldsReadable_iff.1 readable _ inside)

theorem allReadable_sorted : ∀ items : List Json, allReadable items = true →
    allReadable (sortedItems items) = true
  | [] => fun _ => rfl
  | item :: rest => by
    intro readable
    rw [allReadable, Bool.and_eq_true] at readable
    rw [sortedItems, allReadable, isReadable_sorted item readable.1,
      allReadable_sorted rest readable.2]
    rfl

theorem isReadable_sorted_of_mem : ∀ fields : List (String × Json), ∀ field ∈ fields,
    field.2.isReadable = true → field.2.sorted.isReadable = true
  | (_, value) :: rest => by
    intro field member
    rcases List.mem_cons.1 member with same | later
    · rw [same]
      exact isReadable_sorted value
    · exact isReadable_sorted_of_mem rest field later
  | [] => fun _ member => absurd member List.not_mem_nil

end

/-! ## Arrangements -/

structure Arranges (form : Json → Json) : Prop where
  null : form .null = .null
  bool : ∀ value, form (.bool value) = .bool value
  number : ∀ value, form (.number value) = .number value
  string : ∀ text, form (.string text) = .string text
  array : ∀ items, form (.array items) = .array (items.map form)
  /-- Fields of distinct names may be moved. -/
  object : ∀ fields : List (String × Json), (fields.map Prod.fst).Nodup →
    ∃ arranged, form (.object fields) = .object arranged ∧
      arranged.Perm (fields.map fun field => (field.1, form field.2))
  /-- A document in the order of its names is not changed. -/
  kept : ∀ document : Json, document.sorted = document → form document = document
  readable : ∀ document : Json, document.isReadable = true → (form document).isReadable = true

theorem arranges_id : Arranges id where
  null := rfl
  bool _ := rfl
  number _ := rfl
  string _ := rfl
  array items := by rw [List.map_id]; rfl
  object fields _ := ⟨fields, rfl, by simp⟩
  kept _ _ := rfl
  readable _ readable := readable

theorem arranges_sorted : Arranges sorted where
  null := rfl
  bool _ := rfl
  number _ := rfl
  string _ := rfl
  array items := by rw [sorted, sortedItems_eq]
  object fields distinct := by
    refine ⟨_, by rw [sorted], ?_⟩
    rw [sortedFields_eq]
    refine Bindings.entries_insertAll_perm ∅ ?_
    show ((fields.map fun field => (field.1, field.2.sorted)).map Prod.fst).Nodup
    rwa [List.map_map]
  kept _ fixed := fixed
  readable := isReadable_sorted

namespace Arranges

variable {form : Json → Json}

theorem single (arranges : Arranges form) (name : String) (value : Json) :
    form (.object [(name, value)]) = .object [(name, form value)] := by
  obtain ⟨arranged, formed, perm⟩ := arranges.object [(name, value)] (by simp)
  rw [formed, perm.eq_singleton]

theorem pair (arranges : Arranges form) {one other : String} (apart : one ≠ other)
    (first second : Json) :
    form (.object [(one, first), (other, second)]) =
        .object [(one, form first), (other, form second)] ∨
      form (.object [(one, first), (other, second)]) =
        .object [(other, form second), (one, form first)] := by
  obtain ⟨arranged, formed, perm⟩ := arranges.object [(one, first), (other, second)] (by
    simpa using apart)
  rcases List.perm_pair.1 perm with same | swapped
  · exact Or.inl (by rw [formed, same])
  · exact Or.inr (by rw [formed, swapped])

end Arranges

end MetricQuery.Json

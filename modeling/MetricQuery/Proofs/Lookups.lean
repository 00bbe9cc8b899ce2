import Mathlib.Data.List.Nodup
import MetricQuery.Bindings

/-!
# Look-ups

What bindings answer after a list of entries or other bindings are set.
-/

set_option autoImplicit false

namespace MetricQuery

variable {α β : Type}

theorem Ordered.names_nodup {entries : List (String × α)} (ordered : Ordered entries) :
    (entries.map Prod.fst).Nodup := by
  rw [List.Nodup, List.pairwise_map]
  refine List.Pairwise.imp ?_ ordered
  intro left right less same
  exact absurd (same ▸ less) (String.lt_irrefl _)

theorem lookup_eq_none_of_not_mem {key : String} {entries : List (String × α)}
    (missing : key ∉ entries.map Prod.fst) : entries.lookup key = none := by
  refine List.lookup_eq_none_iff.2 fun entry member => ?_
  have apart : key ≠ entry.1 := by
    rintro rfl
    exact missing (List.mem_map_of_mem member)
  simp [apart]

theorem lookup_eq_some_of_mem {key : String} {value : α} {entries : List (String × α)}
    (distinct : (entries.map Prod.fst).Nodup) (member : (key, value) ∈ entries) :
    entries.lookup key = some value := by
  induction entries with
  | nil => cases member
  | cons head rest ih =>
    obtain ⟨held, old⟩ := head
    obtain ⟨fresh, later⟩ := List.nodup_cons.1 distinct
    rw [lookup_entry]
    rcases List.mem_cons.1 member with same | inside
    · rw [if_pos (Prod.mk.inj same).1, (Prod.mk.inj same).2]
    · have apart : key ≠ held := by
        rintro rfl
        exact fresh (List.mem_map.2 ⟨_, inside, rfl⟩)
      rw [if_neg apart, ih later inside]

/-- Where names are distinct, the order of the entries does not matter. -/
theorem lookup_eq_of_perm {entries arranged : List (String × α)}
    (distinct : (entries.map Prod.fst).Nodup) (perm : arranged.Perm entries) (key : String) :
    arranged.lookup key = entries.lookup key := by
  have stillDistinct := (perm.map Prod.fst).nodup_iff.2 distinct
  by_cases present : key ∈ entries.map Prod.fst
  · obtain ⟨⟨held, value⟩, member, rfl⟩ := List.mem_map.1 present
    rw [lookup_eq_some_of_mem distinct member,
      lookup_eq_some_of_mem stillDistinct (perm.mem_iff.2 member)]
  · rw [lookup_eq_none_of_not_mem present,
      lookup_eq_none_of_not_mem fun inside => present ((perm.map Prod.fst).mem_iff.1 inside)]

/-! ## Entries -/

/-- A name that is new takes its place among the entries. -/
theorem insertEntry_perm {name : String} (value : α) {entries : List (String × α)}
    (fresh : name ∉ entries.map Prod.fst) :
    (insertEntry name value entries).Perm ((name, value) :: entries) := by
  induction entries with
  | nil => exact .refl _
  | cons head rest ih =>
    obtain ⟨held, old⟩ := head
    rw [List.map_cons, List.mem_cons, not_or] at fresh
    simp only [insertEntry]
    split
    · exact .refl _
    · rw [if_neg fresh.1]
      exact ((ih fresh.2).cons _).trans (.swap _ _ _)

theorem mem_of_mem_insertEntry {name : String} {value : α} {entries : List (String × α)}
    {entry : String × α} (member : entry ∈ insertEntry name value entries) :
    entry = (name, value) ∨ entry ∈ entries := by
  induction entries with
  | nil => exact Or.inl (List.mem_singleton.1 member)
  | cons head rest ih =>
    obtain ⟨held, old⟩ := head
    simp only [insertEntry] at member
    split at member
    · exact List.mem_cons.1 member
    · split at member
      · rcases List.mem_cons.1 member with same | later
        · exact Or.inl same
        · exact Or.inr (List.mem_cons_of_mem _ later)
      · rcases List.mem_cons.1 member with same | later
        · exact Or.inr (same ▸ List.mem_cons_self)
        · rcases ih later with same | kept
          · exact Or.inl same
          · exact Or.inr (List.mem_cons_of_mem _ kept)

namespace Bindings

theorem entries_insertAll_perm {entries : List (String × α)} (bindings : Bindings α)
    (distinct : ((bindings.entries ++ entries).map Prod.fst).Nodup) :
    (bindings.insertAll entries).entries.Perm (bindings.entries ++ entries) := by
  induction entries generalizing bindings with
  | nil => rw [List.append_nil]; exact .refl _
  | cons head rest ih =>
    have moved : (bindings.entries ++ head :: rest).Perm (head :: bindings.entries ++ rest) :=
      List.perm_middle
    have apart := (moved.map Prod.fst).nodup_iff.1 distinct
    have inserted := @insertEntry_perm _ head.1 head.2 bindings.entries (by
      rw [List.cons_append, List.map_cons, List.nodup_cons, List.map_append, List.mem_append,
        not_or] at apart
      exact apart.1.1)
    have whole : ((bindings.insert head.1 head.2).entries ++ rest).Perm
        (bindings.entries ++ head :: rest) := (inserted.append_right rest).trans moved.symm
    exact (ih _ ((whole.map Prod.fst).nodup_iff.2 distinct)).trans whole

theorem mem_of_mem_insertAll {entries : List (String × α)} {bindings : Bindings α}
    {entry : String × α} (member : entry ∈ (bindings.insertAll entries).entries) :
    entry ∈ bindings.entries ∨ entry ∈ entries := by
  induction entries generalizing bindings with
  | nil => exact Or.inl member
  | cons head rest ih =>
    rcases ih member with held | later
    · rcases mem_of_mem_insertEntry held with same | kept
      · exact Or.inr (same ▸ List.mem_cons_self)
      · exact Or.inl kept
    · exact Or.inr (List.mem_cons_of_mem _ later)

/-- Entries of distinct names are answered first. -/
theorem get?_insertAll {entries : List (String × α)} (distinct : (entries.map Prod.fst).Nodup)
    (bindings : Bindings α) (key : String) :
    (bindings.insertAll entries).get? key = (entries.lookup key).or (bindings.get? key) := by
  induction entries generalizing bindings with
  | nil => rfl
  | cons head rest ih =>
    obtain ⟨held, value⟩ := head
    obtain ⟨fresh, later⟩ := List.nodup_cons.1 distinct
    rw [insertAll, List.foldl_cons, ← insertAll, ih later, get?_insert, lookup_entry]
    by_cases same : key = held
    · subst same
      rw [lookup_eq_none_of_not_mem fresh, if_pos rfl, if_pos rfl]
      rfl
    · rw [if_neg same, if_neg same]

/-- Of several entries of a name the last one is answered. -/
theorem get?_insertAll_reverse (bindings : Bindings α) (entries : List (String × α))
    (key : String) :
    (bindings.insertAll entries).get? key =
      (entries.reverse.lookup key).or (bindings.get? key) := by
  induction entries generalizing bindings with
  | nil => rfl
  | cons head rest ih =>
    obtain ⟨held, value⟩ := head
    rw [insertAll, List.foldl_cons, ← insertAll, ih, get?_insert, List.reverse_cons,
      List.lookup_append, lookup_entry]
    by_cases same : key = held
    · rw [if_pos same, if_pos same, Option.or_assoc]
      rfl
    · rw [if_neg same, if_neg same, Option.or_assoc]
      rfl

theorem get?_ofList_reverse (entries : List (String × α)) (key : String) :
    (ofList entries).get? key = entries.reverse.lookup key := by
  rw [ofList, get?_insertAll_reverse]
  exact Option.or_none

theorem get?_ofList {entries : List (String × α)} (distinct : (entries.map Prod.fst).Nodup)
    (key : String) : (ofList entries).get? key = entries.lookup key := by
  rw [ofList, get?_insertAll distinct]
  exact Option.or_none

/-- Bindings are made of their entries. -/
theorem ofList_entries (bindings : Bindings α) : ofList bindings.entries = bindings :=
  ext_get? fun name => get?_ofList bindings.ordered.names_nodup name

theorem get?_overlaid (below above : Bindings α) (key : String) :
    (below.overlaid above).get? key = (above.get? key).or (below.get? key) :=
  get?_insertAll above.ordered.names_nodup below key

theorem contains_eq_isSome (bindings : Bindings α) (key : String) :
    bindings.contains key = (bindings.get? key).isSome := by
  rw [Bool.eq_iff_iff, get?, List.lookup_isSome_iff, contains, List.any_eq_true]
  simp only [beq_iff_eq, @eq_comm _ key]

theorem contains_iff {bindings : Bindings α} {key : String} :
    bindings.contains key = true ↔ key ∈ bindings.entries.map Prod.fst := by
  simp [contains]

theorem contains_insertAll {bindings : Bindings α} {entries : List (String × α)} {key : String} :
    (bindings.insertAll entries).contains key = true ↔
      key ∈ entries.map Prod.fst ∨ bindings.contains key = true := by
  rw [contains_eq_isSome, contains_eq_isSome, get?_insertAll_reverse, Option.isSome_or,
    Bool.or_eq_true, List.lookup_isSome_iff]
  simp only [List.mem_reverse, beq_iff_eq, List.mem_map, @eq_comm _ key]

/-- Bindings that answer alike still do when alike entries are set. -/
theorem rel_get?_insertAll {relation : α → β → Prop} {left : List (String × α)}
    {right : List (String × β)}
    (alike : List.Forall₂ (fun one other => one.1 = other.1 ∧ relation one.2 other.2) left right)
    {one : Bindings α} {other : Bindings β}
    (held : ∀ key, Option.Rel relation (one.get? key) (other.get? key)) (key : String) :
    Option.Rel relation ((one.insertAll left).get? key) ((other.insertAll right).get? key) := by
  induction alike generalizing one other with
  | nil => exact held key
  | cons first _ ih =>
    obtain ⟨name, related⟩ := first
    refine ih fun key => ?_
    rw [get?_insert, get?_insert, name]
    split
    · exact .some related
    · exact held key

end Bindings

end MetricQuery

import MetricQuery.Proofs.Alignment
import MetricQuery.Proofs.Samples

/-!
# Gated points

The points of a row by the index of their value: which of them a gate lets
through, and which values interpolation leaves as they are.
-/

set_option autoImplicit false

namespace MetricQuery

variable {α : Type}

namespace Decoder

def pointOf (start resolution : Int) (entry : α × Nat) : Point α :=
  ⟨entry.1, start + entry.2 * resolution⟩

theorem pointsFrom_eq (values : List α) (start resolution : Int) :
    ∀ index : Nat, pointsFrom (start + index * resolution) resolution values =
      (values.zipIdx index).map (pointOf start resolution) := by
  induction values with
  | nil => intro index; rfl
  | cons value values ih =>
    intro index
    have next : start + index * resolution + resolution =
        start + ((index + 1 : Nat) : Int) * resolution := by
      rw [Int.natCast_add, Int.add_mul, Int.natCast_one, Int.one_mul, Int.add_assoc]
    rw [pointsFrom, next, ih, List.zipIdx_cons, List.map_cons]
    rfl

variable [Sample α]

theorem gate_cons (point : Point α) (points : List (Point α)) (c : α) (confidence : List α) :
    gate (point :: points) (c :: confidence) =
      if Sample.positive c then point :: gate points confidence else gate points confidence := by
  by_cases positive : Sample.positive c = true <;> simp [gate, positive]

theorem gate_nil (points : List (Point α)) : gate points ([] : List α) = [] := by
  simp [gate]

theorem gate_map (confidence : List α) (toPoint : α × Nat → Point α) (values : List α) :
    ∀ index : Nat, gate ((values.zipIdx index).map toPoint) (confidence.drop index) =
      ((values.zipIdx index).filter fun entry => Series.positiveAt confidence entry.2).map
        toPoint := by
  induction values with
  | nil => intro index; rfl
  | cons value values ih =>
    intro index
    rw [List.zipIdx_cons, List.map_cons, List.filter_cons]
    cases here : confidence[index]? with
    | none =>
      have beyond := List.getElem?_eq_none_iff.1 here
      have notPositive : Series.positiveAt confidence index = false := by
        simp [Series.positiveAt, here]
      have later := ih (index + 1)
      rw [List.drop_eq_nil_of_le (Nat.le_succ_of_le beyond), gate_nil] at later
      rw [List.drop_eq_nil_of_le beyond, gate_nil, notPositive, later]
      rfl
    | some c =>
      obtain ⟨inside, rfl⟩ := List.getElem?_eq_some_iff.1 here
      have same : Series.positiveAt confidence index = Sample.positive confidence[index] := by
        simp [Series.positiveAt, here]
      rw [List.drop_eq_getElem_cons inside, gate_cons, ih, same]
      by_cases positive : Sample.positive confidence[index] = true <;> simp [positive]

/-- A gate lets through the points of the values whose index has a positive
confidence. -/
theorem gate_pointsFrom (start resolution : Int) (values confidence : List α) :
    gate (pointsFrom start resolution values) confidence =
      (values.zipIdx.filter fun entry => Series.positiveAt confidence entry.2).map
        (pointOf start resolution) := by
  have points := pointsFrom_eq values start resolution 0
  rw [Int.natCast_zero, Int.zero_mul, Int.add_zero] at points
  rw [points]
  exact gate_map confidence _ values 0

/-- Whether a confidence row of some part is positive at an index, of the metadata
and occurrence of a series. -/
def Shared (decoder : Decoder) (rows : List (Row α)) (place : RowKey × Nat) (index : Nat) : Prop :=
  ∃ part row, (decoder.rowsOf ⟨part, place.1.metadata⟩ .confidence rows)[place.2]? = some row ∧
    Series.positiveAt row.values index = true

theorem positiveAt_overlay [LawfulSample α] {decoder : Decoder} {rows : List (Row α)}
    {groups : List (RowGroup α)} (grouped : decoder.Grouped rows groups) (group : RowGroup α)
    (index : Nat) :
    Series.positiveAt (overlay groups group) index = true ↔
      decoder.Shared rows group.place index := by
  rw [overlay_eq, Series.positiveAt_overlayOf, List.any_map, List.any_eq_true]
  constructor
  · rintro ⟨row, held, positive⟩
    obtain ⟨part, there⟩ := (mem_confidencesAt grouped _ _ row).1 held
    exact ⟨part, row, there, positive⟩
  · rintro ⟨part, row, there, positive⟩
    exact ⟨row, (mem_confidencesAt grouped _ _ row).2 ⟨part, there⟩, positive⟩

end Decoder

/-! ## Interpolation -/

namespace Series

variable [Sample α]

theorem getElem?_markConfident (values : List α) :
    ∀ (confidence : List α) (index : Nat), (markConfident values confidence)[index]? =
      values[index]?.map fun value => (value, confidence[index]?.all Sample.positive) := by
  induction values with
  | nil => intro confidence index; simp [markConfident]
  | cons value values ih =>
    intro confidence index
    cases confidence with
    | nil => cases index <;> simp [markConfident, ih]
    | cons c confidence => cases index <;> simp [markConfident, ih]

theorem getElem?_fillGaps {value : α} (marked : List (α × Bool)) :
    ∀ (before : Option α) (gap : List α) (index : Nat), marked[index]? = some (value, true) →
      (fillGaps before gap marked)[gap.length + index]? = some value := by
  induction marked with
  | nil => intro before gap index confident; simp at confident
  | cons head rest ih =>
    intro before gap index confident
    obtain ⟨first, mark⟩ := head
    cases mark with
    | true =>
      have front : (fillGap before (some first) gap.reverse).length = gap.length := by
        rw [length_fillGap, List.length_reverse]
      rw [fillGaps, List.getElem?_append_right (by omega), front, Nat.add_sub_cancel_left]
      cases index with
      | zero => simpa using confident
      | succ index => simpa using ih (some first) [] index (by simpa using confident)
    | false =>
      cases index with
      | zero => simp at confident
      | succ index =>
        have later := ih before (first :: gap) index (by simpa using confident)
        rw [List.length_cons, Nat.add_assoc, Nat.add_comm 1] at later
        rwa [fillGaps]

/-- A value with a positive confidence stays as it is. -/
theorem getElem?_interpolate {values confidence : List α} {index : Nat}
    (positive : positiveAt confidence index = true) :
    (interpolate values confidence)[index]? = values[index]? := by
  cases here : values[index]? with
  | none =>
    rw [List.getElem?_eq_none_iff, length_interpolate]
    exact List.getElem?_eq_none_iff.1 here
  | some value =>
    have marked : (markConfident values confidence)[index]? = some (value, true) := by
      rw [getElem?_markConfident, here, Option.map_some]
      unfold positiveAt at positive
      cases held : confidence[index]? with
      | none => rfl
      | some c => rw [held] at positive; simpa using positive
    simpa [interpolate] using getElem?_fillGaps _ none [] index marked

end Series

end MetricQuery

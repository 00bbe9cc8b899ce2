import MetricQuery.Proofs.Decodability
import MetricQuery.Proofs.Gating

/-!
# The order of rows

Rows of different keys or channels may change places: the groups are the same
ones in another order, and what a series has of other groups is only whether one
of them is confident at an index.
-/

set_option autoImplicit false

namespace MetricQuery.Decoder

variable {α : Type} {decoder : Decoder} {rows others : List (Row α)}
  {groups moved : List (RowGroup α)}

/-! ## Groups -/

theorem Grouped.perm (grouped : decoder.Grouped rows groups)
    (regrouped : decoder.Grouped others moved)
    (alike : ∀ key channel, decoder.rowsOf key channel others = decoder.rowsOf key channel rows) :
    moved.Perm groups := by
  have nodup : ∀ {rows : List (Row α)} {groups : List (RowGroup α)},
      decoder.Grouped rows groups → groups.Nodup := fun grouped =>
    List.Nodup.of_map _ grouped.places_nodup
  apply (List.perm_ext_iff_of_nodup (nodup regrouped) (nodup grouped)).2
  intro group
  rw [regrouped.mem_iff, grouped.mem_iff]
  simp only [groupCount, groupAt, alike]

/-! ## Series -/

variable [Sample α]

theorem Shared.congr
    (alike : ∀ key channel, decoder.rowsOf key channel others = decoder.rowsOf key channel rows)
    (place : RowKey × Nat) (index : Nat) :
    decoder.Shared others place index ↔ decoder.Shared rows place index := by
  simp only [Shared, alike]

theorem gate_congr {start resolution : Int} {values left right : List α}
    (same : ∀ index, Series.positiveAt left index = true ↔ Series.positiveAt right index = true) :
    gate (pointsFrom start resolution values) left =
      gate (pointsFrom start resolution values) right := by
  rw [gate_pointsFrom, gate_pointsFrom]
  apply congrArg
  apply List.filter_congr
  intro entry _
  rw [Bool.eq_iff_iff]
  exact same entry.2

variable [LawfulSample α]

theorem seriesPoints_congr (grouped : decoder.Grouped rows groups)
    (regrouped : decoder.Grouped others moved)
    (alike : ∀ key channel, decoder.rowsOf key channel others = decoder.rowsOf key channel rows)
    (start : Int) (group : RowGroup α) (value : Row α) :
    decoder.seriesPoints start moved group value =
      decoder.seriesPoints start groups group value := by
  have overlays : ∀ index, Series.positiveAt (overlay moved group) index = true ↔
      Series.positiveAt (overlay groups group) index = true := by
    intro index
    rw [positiveAt_overlay regrouped, positiveAt_overlay grouped]
    exact Shared.congr alike group.place index
  cases mode : decoder.confidence with
  | off => simp [seriesPoints, mode]
  | on => cases own : group.confidence <;> simp [seriesPoints, mode, own]
  | aligned =>
    cases own : group.confidence with
    | none => simp [seriesPoints, mode, own]
    | some confidence =>
      simp only [seriesPoints, mode, own]
      exact gate_congr overlays

theorem series_congr (grouped : decoder.Grouped rows groups)
    (regrouped : decoder.Grouped others moved)
    (alike : ∀ key channel, decoder.rowsOf key channel others = decoder.rowsOf key channel rows)
    (start : Int) (group : RowGroup α) :
    decoder.series start moved group = decoder.series start groups group := by
  simp only [series, seriesPoints_congr grouped regrouped alike]

/-- Two responses have the same rows, in the same order within each channel of a
key. One is decoded exactly if the other one is, from the same start, and to the
same series up to their order. -/
theorem decode_rowOrder (decoder : Decoder) (start : Int) (rows others : List (Row α))
    (perm : others.Perm rows)
    (alike : ∀ key channel, decoder.rowsOf key channel others = decoder.rowsOf key channel rows) :
    ((∃ decoded, decoder.decode ⟨start, others⟩ = .ok decoded) ↔
      ∃ decoded, decoder.decode ⟨start, rows⟩ = .ok decoded) ∧
    ∀ left right, decoder.decode ⟨start, rows⟩ = .ok left →
      decoder.decode ⟨start, others⟩ = .ok right →
      right.start = left.start ∧ right.series.Perm left.series := by
  constructor
  · rw [decode_isOk_iff, decode_isOk_iff]
    constructor
    · intro decodable
      exact Decodable.of_perm decodable perm.symm fun key channel => (alike key channel).symm
    · intro decodable
      exact Decodable.of_perm decodable perm alike
  · intro left right leftDecoded rightDecoded
    obtain ⟨leftBegun, groups, success, leftMade⟩ := decode_eq_ok leftDecoded
    obtain ⟨rightBegun, moved, again, rightMade⟩ := decode_eq_ok rightDecoded
    have grouped := grouped_of_groupRows rows success
    have regrouped := grouped_of_groupRows others again
    constructor
    · exact Option.some.inj (rightBegun.symm.trans leftBegun)
    · have same : (fun group => (decoder.series (1000 * start) moved group).toOption) =
          fun group => (decoder.series (1000 * start) groups group).toOption := by
        funext group
        rw [series_congr grouped regrouped alike]
      rw [eq_filterMap_toOption leftMade, eq_filterMap_toOption rightMade, same]
      exact (grouped.perm regrouped alike).filterMap _

/-- Aligned rows of two parts with the same metadata, in an order in which the
groups come the other way round. -/
theorem decode_rowOrder_swapped :
    let decoder : Decoder := ⟨[Part.ofSelector ⟨"org", .path ["cpu"], none, none⟩,
      Part.ofSelector ⟨"org", .path ["mem"], none, none⟩], .aligned⟩
    let first : Row Float := ⟨"'0'.'v'.'web-1'", 1000, [10, 20]⟩
    let own : Row Float := ⟨"'0'.'c'.'web-1'", 1000, [1, 0]⟩
    let second : Row Float := ⟨"'1'.'v'.'web-1'", 1000, [1, 2]⟩
    let other : Row Float := ⟨"'1'.'c'.'web-1'", 1000, [0, 1]⟩
    let rows := [first, own, second, other]
    let others := [second, first, own, other]
    others.Perm rows ∧
      (∀ key channel, decoder.rowsOf key channel others = decoder.rowsOf key channel rows) ∧
      ∃ left right, decoder.decode ⟨0, rows⟩ = .ok left ∧ decoder.decode ⟨0, others⟩ = .ok right ∧
        right.series.Perm left.series ∧ left.series.map Series.times = [[0, 1000], [0, 1000]] := by
  intro decoder first own second other rows others
  have perm : others.Perm rows :=
    (List.Perm.swap first second [own, other]).trans
      (List.Perm.cons first (.swap own second [other]))
  have apart : decoder.parseName first.name ≠ decoder.parseName second.name ∧
      decoder.parseName own.name ≠ decoder.parseName second.name := by decide +kernel
  have alike : ∀ key channel, decoder.rowsOf key channel others =
      decoder.rowsOf key channel rows := by
    intro key channel
    have early := rowsOf_swap apart.1 [] [own, other] key channel
    have late := rowsOf_swap apart.2 [first] [other] key channel
    exact early.symm.trans late.symm
  have times : (decoder.decode ⟨0, rows⟩).toOption.map (fun decoded =>
      decoded.series.map Series.times) = some [[0, 1000], [0, 1000]] := by decide +kernel
  cases leftDecoded : decoder.decode ⟨0, rows⟩ with
  | error error => rw [leftDecoded] at times; cases times
  | ok left =>
    rw [leftDecoded] at times
    obtain ⟨right, rightDecoded⟩ :=
      (decode_rowOrder decoder 0 rows others perm alike).1.2 ⟨left, leftDecoded⟩
    obtain ⟨_, same⟩ :=
      (decode_rowOrder decoder 0 rows others perm alike).2 left right leftDecoded rightDecoded
    exact ⟨perm, alike, left, right, rfl, rightDecoded, same, Option.some.inj times⟩

end MetricQuery.Decoder

import Mathlib.Data.Nat.Find
import MetricQuery.Proofs.Gating

/-!
# Filled gaps

What interpolation puts at each index. A confident value stays. Any other one
gives way to what the nearest confident values on either side say, so that nothing
depends on the values that lack confidence as long as there is a confident one.
-/

set_option autoImplicit false

namespace MetricQuery.Series

variable {α : Type} [Sample α]

/-- Whether the value at an index counts: its confidence is positive or missing. -/
def confidentAt (confidence : List α) (index : Nat) : Bool :=
  confidence[index]?.all Sample.positive

structure NearestBelow (confidence : List α) (index below : Nat) : Prop where
  lt : below < index
  confident : confidentAt confidence below = true
  gap : ∀ other, below < other → other < index → confidentAt confidence other = false

structure NearestAbove (confidence : List α) (count index above : Nat) : Prop where
  lt : index < above
  inside : above < count
  confident : confidentAt confidence above = true
  gap : ∀ other, index < other → other < above → confidentAt confidence other = false

def NoneBelow (confidence : List α) (index : Nat) : Prop :=
  ∀ other < index, confidentAt confidence other = false

def NoneAbove (confidence : List α) (count index : Nat) : Prop :=
  ∀ other, index < other → other < count → confidentAt confidence other = false

inductive Filled (values confidence : List α) (index : Nat) : α → Prop
  | kept {value : α} (confident : confidentAt confidence index = true)
      (here : values[index]? = some value) : Filled values confidence index value
  | between {below above : Nat} {first last : α}
      (unconfident : confidentAt confidence index = false)
      (left : NearestBelow confidence index below)
      (right : NearestAbove confidence values.length index above)
      (first_eq : values[below]? = some first) (last_eq : values[above]? = some last) :
      Filled values confidence index (Sample.between first last (index - below) (above - below))
  | fromBelow {below : Nat} {value : α} (inside : index < values.length)
      (unconfident : confidentAt confidence index = false)
      (left : NearestBelow confidence index below)
      (right : NoneAbove confidence values.length index)
      (there : values[below]? = some value) : Filled values confidence index value
  | fromAbove {above : Nat} {value : α} (unconfident : confidentAt confidence index = false)
      (left : NoneBelow confidence index)
      (right : NearestAbove confidence values.length index above)
      (there : values[above]? = some value) : Filled values confidence index value
  | untouched {value : α} (unconfident : confidentAt confidence index = false)
      (left : NoneBelow confidence index) (right : NoneAbove confidence values.length index)
      (here : values[index]? = some value) : Filled values confidence index value

theorem noneBelow_or_exists (confidence : List α) (index : Nat) :
    NoneBelow confidence index ∨ ∃ below, NearestBelow confidence index below := by
  induction index with
  | zero => exact Or.inl fun other impossible => absurd impossible (Nat.not_lt_zero other)
  | succ index ih =>
    cases here : confidentAt confidence index with
    | true =>
      refine Or.inr ⟨index, Nat.lt_succ_self index, here, fun other above below => ?_⟩
      omega
    | false =>
      have last : ∀ other < index + 1, other = index ∨ other < index := by omega
      rcases ih with none | ⟨below, lt, confident, gap⟩
      · refine Or.inl fun other inside => ?_
        rcases last other inside with rfl | less
        · exact here
        · exact none other less
      · refine Or.inr ⟨below, Nat.lt_succ_of_lt lt, confident, fun other above inside => ?_⟩
        rcases last other inside with rfl | less
        · exact here
        · exact gap other above less

theorem noneAbove_or_exists (confidence : List α) (count index : Nat) :
    NoneAbove confidence count index ∨ ∃ above, NearestAbove confidence count index above := by
  by_cases some : ∃ above, index < above ∧ above < count ∧ confidentAt confidence above = true
  · obtain ⟨lt, inside, confident⟩ := Nat.find_spec some
    refine Or.inr ⟨Nat.find some, lt, inside, confident, fun other above below => ?_⟩
    have notLeast := Nat.find_min some below
    have within : other < count := Nat.lt_trans below inside
    simpa [above, within] using notLeast
  · refine Or.inl fun other above inside => ?_
    simpa [above, inside] using fun confident => some ⟨other, above, inside, confident⟩

/-! ## Gaps -/

/-- What lies in front of a gap: nothing, or values with a confident one last. -/
def Opens : (front : List (α × Bool)) → (before : Option α) → Prop
  | front, none => front = []
  | front, some value => ∃ others, front = others ++ [(value, true)]

/-- What lies behind a gap: nothing, or values with a confident one first. -/
def Closes : (rest : List (α × Bool)) → (after : Option α) → Prop
  | rest, none => rest = []
  | rest, some value => ∃ others, rest = (value, true) :: others

/-- Up to a confident value gaps are filled without regard to what follows. -/
theorem fillGaps_confident (others : List (α × Bool)) (value : α) :
    ∀ (before : Option α) (gap : List α), ∃ start : List α,
      start.length = gap.length + others.length + 1 ∧
      ∀ rest, fillGaps before gap (others ++ (value, true) :: rest) =
        start ++ fillGaps (some value) [] rest := by
  induction others with
  | nil =>
    intro before gap
    refine ⟨fillGap before (some value) gap.reverse ++ [value], ?_, fun rest => ?_⟩
    · simp [length_fillGap]
    · simp [fillGaps]
  | cons head others ih =>
    intro before gap
    obtain ⟨first, confident⟩ := head
    cases confident with
    | true =>
      obtain ⟨start, count, filled⟩ := ih (some first) []
      refine ⟨fillGap before (some first) gap.reverse ++ first :: start, ?_, fun rest => ?_⟩
      · simp [length_fillGap, count, Nat.add_assoc]
      · simp [fillGaps, filled rest]
    | false =>
      obtain ⟨start, count, filled⟩ := ih before (first :: gap)
      refine ⟨start, ?_, fun rest => ?_⟩
      · rw [count, List.length_cons, List.length_cons]
        omega
      · rw [List.cons_append, fillGaps, filled rest]

theorem fillGaps_opens {front : List (α × Bool)} {before : Option α} (opens : Opens front before) :
    ∃ start : List α, start.length = front.length ∧
      ∀ rest, fillGaps none [] (front ++ rest) = start ++ fillGaps before [] rest := by
  cases before with
  | none =>
    obtain rfl : front = [] := opens
    exact ⟨[], rfl, fun rest => rfl⟩
  | some value =>
    obtain ⟨others, rfl⟩ := opens
    obtain ⟨start, count, filled⟩ := fillGaps_confident others value none []
    refine ⟨start, ?_, fun rest => ?_⟩
    · simpa using count
    · rw [List.append_assoc, List.singleton_append, filled]

theorem fillGaps_run (run : List α) (before : Option α) (rest : List (α × Bool)) :
    ∀ gap : List α, fillGaps before gap (run.map (·, false) ++ rest) =
      fillGaps before (run.reverse ++ gap) rest := by
  induction run with
  | nil => intro gap; rfl
  | cons value run ih =>
    intro gap
    rw [List.map_cons, List.cons_append, fillGaps, ih, List.reverse_cons, List.append_assoc,
      List.singleton_append]

theorem fillGaps_closes {rest : List (α × Bool)} {after : Option α} (closes : Closes rest after)
    (before : Option α) (gap : List α) :
    ∃ tail, fillGaps before gap rest = fillGap before after gap.reverse ++ tail := by
  cases after with
  | none =>
    obtain rfl : rest = [] := closes
    exact ⟨[], by rw [fillGaps, List.append_nil]⟩
  | some value =>
    obtain ⟨others, rfl⟩ := closes
    exact ⟨_, by rw [fillGaps]⟩

/-- Within a gap there is what it is filled with. -/
theorem getElem?_fillGaps_run {front rest : List (α × Bool)} {before after : Option α}
    {run : List α} {step : Nat} (opens : Opens front before) (closes : Closes rest after)
    (inside : step < run.length) :
    (fillGaps none [] (front ++ (run.map (·, false) ++ rest)))[front.length + step]? =
      (fillGap before after run)[step]? := by
  obtain ⟨start, count, filled⟩ := fillGaps_opens opens
  obtain ⟨tail, last⟩ := fillGaps_closes closes before run.reverse
  have long : step < (fillGap before after run).length := by rwa [length_fillGap]
  rw [filled, fillGaps_run, List.append_nil, last, List.reverse_reverse, ← count,
    List.getElem?_append_right (Nat.le_add_right _ _), Nat.add_sub_cancel_left,
    List.getElem?_append_left long]

/-! ## Indexes -/

section Marked

variable {values confidence : List α}

/-- Between two indexes there is a gap if no index is confident there. -/
theorem drop_markConfident {low high : Nat} (order : low ≤ high) (inside : high ≤ values.length)
    (gap : ∀ index, low ≤ index → index < high → confidentAt confidence index = false) :
    (markConfident values confidence).drop low =
      ((values.drop low).take (high - low)).map (·, false) ++
        (markConfident values confidence).drop high := by
  have count : (((values.drop low).take (high - low)).map fun value => (value, false)).length =
      high - low := by
    simp only [List.length_map, List.length_take, List.length_drop]
    omega
  apply List.ext_getElem?
  intro step
  rw [List.getElem?_drop, getElem?_markConfident]
  by_cases within : step < high - low
  · have unconfident := gap (low + step) (Nat.le_add_right _ _) (by omega)
    rw [List.getElem?_append_left (by omega), List.getElem?_map, List.getElem?_take_of_lt within,
      List.getElem?_drop]
    rw [confidentAt] at unconfident
    rw [unconfident]
  · rw [List.getElem?_append_right (by omega), count, List.getElem?_drop, getElem?_markConfident]
    rw [show high + (step - (high - low)) = low + step by omega]

theorem getElem?_interpolate_gap {low high index : Nat} {before after : Option α}
    (opens : Opens ((markConfident values confidence).take low) before)
    (closes : Closes ((markConfident values confidence).drop high) after)
    (inside : high ≤ values.length)
    (gap : ∀ index, low ≤ index → index < high → confidentAt confidence index = false)
    (above : low ≤ index) (below : index < high) :
    (interpolate values confidence)[index]? =
      (fillGap before after ((values.drop low).take (high - low)))[index - low]? := by
  have split := List.take_append_drop low (markConfident values confidence)
  rw [drop_markConfident (by omega) inside gap] at split
  have front : ((markConfident values confidence).take low).length = low := by
    rw [List.length_take, length_markConfident]
    omega
  have within : index - low < ((values.drop low).take (high - low)).length := by
    rw [List.length_take, List.length_drop]
    omega
  have filled := getElem?_fillGaps_run opens closes within
  rw [split, front, Nat.add_sub_cancel' above] at filled
  exact filled

theorem markConfident_of_confident {index : Nat} {value : α}
    (confident : confidentAt confidence index = true) (here : values[index]? = some value) :
    (markConfident values confidence)[index]? = some (value, true) := by
  rw [getElem?_markConfident, here, Option.map_some, ← confidentAt, confident]

theorem opens_of_nearestBelow {index below : Nat} {value : α}
    (nearest : NearestBelow confidence index below) (there : values[below]? = some value) :
    Opens ((markConfident values confidence).take (below + 1)) (some value) := by
  refine ⟨(markConfident values confidence).take below, ?_⟩
  rw [List.take_add_one, markConfident_of_confident nearest.confident there]
  rfl

theorem closes_of_nearestAbove {count index above : Nat} {value : α}
    (nearest : NearestAbove confidence count index above) (there : values[above]? = some value) :
    Closes ((markConfident values confidence).drop above) (some value) := by
  obtain ⟨inside, marked⟩ := List.getElem?_eq_some_iff.1
    (markConfident_of_confident nearest.confident there)
  exact ⟨_, by rw [List.drop_eq_getElem_cons inside, marked]⟩

theorem closes_end : Closes ((markConfident values confidence).drop values.length) none :=
  List.drop_eq_nil_of_le (Nat.le_of_eq (length_markConfident values confidence))

omit [Sample α] in
theorem getElem?_run {low high index : Nat} (above : low ≤ index) (below : index < high) :
    ((values.drop low).take (high - low))[index - low]? = values[index]? := by
  rw [List.getElem?_take_of_lt (by omega), List.getElem?_drop, Nat.add_sub_cancel' above]

end Marked

theorem getElem?_fillGap_between (first last : α) {gap : List α} {step : Nat}
    (inside : step < gap.length) :
    (fillGap (some first) (some last) gap)[step]? =
      some (Sample.between first last (step + 1) (gap.length + 1)) := by
  rw [fillGap, List.getElem?_map, List.getElem?_range' inside, Option.map_some, Nat.one_mul,
    Nat.add_comm 1]

theorem NoneBelow.gap {confidence : List α} {index : Nat} (none : NoneBelow confidence index) :
    ∀ other, 0 ≤ other → other < index → confidentAt confidence other = false :=
  fun other _ => none other

/-- An index that is not confident lies in a gap that reaches as far as the ones on
both sides of it. -/
theorem gap_of_sides {confidence : List α} {low index high : Nat}
    (unconfident : confidentAt confidence index = false)
    (left : ∀ other, low ≤ other → other < index → confidentAt confidence other = false)
    (right : ∀ other, index < other → other < high → confidentAt confidence other = false) :
    ∀ other, low ≤ other → other < high → confidentAt confidence other = false := by
  intro other behind front
  rcases Nat.lt_trichotomy other index with less | rfl | greater
  · exact left other behind less
  · exact unconfident
  · exact right other greater front

namespace Filled

variable {values confidence : List α} {index : Nat} {value : α}

theorem inside (filled : Filled values confidence index value) : index < values.length := by
  cases filled with
  | kept _ here => exact (List.getElem?_eq_some_iff.1 here).1
  | between _ _ right _ _ => exact Nat.lt_trans right.lt right.inside
  | fromBelow inside _ _ _ _ => exact inside
  | fromAbove _ _ right _ => exact Nat.lt_trans right.lt right.inside
  | untouched _ _ _ here => exact (List.getElem?_eq_some_iff.1 here).1

/-- What fills an index is what interpolation puts there. -/
theorem getElem?_interpolate (filled : Filled values confidence index value) :
    (interpolate values confidence)[index]? = some value := by
  have within := filled.inside
  have start : Opens ((markConfident values confidence).take 0) none := List.take_zero
  cases filled with
  | kept confident here =>
    simpa [interpolate] using
      getElem?_fillGaps _ none [] index (markConfident_of_confident confident here)
  | @between below above first last unconfident left right first_eq last_eq =>
    have lower : below < index := left.lt
    have upper : index < above := right.lt
    have inside : above < values.length := right.inside
    have gap := gap_of_sides unconfident left.gap right.gap
    have count : ((values.drop (below + 1)).take (above - (below + 1))).length + 1 =
        above - below := by
      rw [List.length_take, List.length_drop]
      omega
    rw [getElem?_interpolate_gap (opens_of_nearestBelow left first_eq)
      (closes_of_nearestAbove right last_eq) (Nat.le_of_lt inside) gap lower upper,
      getElem?_fillGap_between _ _ (by omega), count]
    rw [show index - (below + 1) + 1 = index - below by omega]
  | @fromBelow below value _ unconfident left right there =>
    have gap := gap_of_sides unconfident left.gap right
    rw [getElem?_interpolate_gap (opens_of_nearestBelow left there) closes_end (Nat.le_refl _) gap
      left.lt within, fillGap, List.getElem?_map, getElem?_run left.lt within,
      List.getElem?_eq_getElem within, Option.map_some]
  | @fromAbove above value unconfident left right there =>
    have gap := gap_of_sides unconfident left.gap right.gap
    rw [getElem?_interpolate_gap start (closes_of_nearestAbove right there)
      (Nat.le_of_lt right.inside) gap (Nat.zero_le _) right.lt, fillGap, List.getElem?_map,
      getElem?_run (Nat.zero_le _) right.lt, List.getElem?_eq_getElem within, Option.map_some]
  | untouched unconfident left right here =>
    have gap := gap_of_sides unconfident left.gap right
    rw [getElem?_interpolate_gap start closes_end (Nat.le_refl _) gap (Nat.zero_le _) within,
      fillGap, getElem?_run (Nat.zero_le _) within, here]

/-- Some value fills every index of the values. -/
theorem exists_of_lt (confidence : List α) (within : index < values.length) :
    ∃ value, Filled values confidence index value := by
  have valueAt : ∀ {other : Nat}, other < values.length →
      ∃ value, values[other]? = some value := fun inside => ⟨_, List.getElem?_eq_getElem inside⟩
  cases confident : confidentAt confidence index with
  | true =>
    obtain ⟨value, here⟩ := valueAt within
    exact ⟨value, .kept confident here⟩
  | false =>
    rcases noneBelow_or_exists confidence index with left | ⟨below, left⟩
    · rcases noneAbove_or_exists confidence values.length index with right | ⟨above, right⟩
      · obtain ⟨value, here⟩ := valueAt within
        exact ⟨value, .untouched confident left right here⟩
      · obtain ⟨value, there⟩ := valueAt right.inside
        exact ⟨value, .fromAbove confident left right there⟩
    · obtain ⟨first, first_eq⟩ := valueAt (Nat.lt_trans left.lt within)
      rcases noneAbove_or_exists confidence values.length index with right | ⟨above, right⟩
      · exact ⟨first, .fromBelow within confident left right first_eq⟩
      · obtain ⟨last, last_eq⟩ := valueAt right.inside
        exact ⟨_, .between confident left right first_eq last_eq⟩

/-- The value that fills an index follows from the confident values. -/
theorem congr {others : List α} (filled : Filled values confidence index value)
    (count : others.length = values.length)
    (some : ∃ other < values.length, confidentAt confidence other = true)
    (agree : ∀ other, confidentAt confidence other = true → others[other]? = values[other]?) :
    Filled others confidence index value := by
  cases filled with
  | kept confident here => exact .kept confident ((agree index confident).trans here)
  | between unconfident left right first_eq last_eq =>
    rw [← count] at right
    exact .between unconfident left right ((agree _ left.confident).trans first_eq)
      ((agree _ right.confident).trans last_eq)
  | fromBelow within unconfident left right there =>
    rw [← count] at within right
    exact .fromBelow within unconfident left right ((agree _ left.confident).trans there)
  | fromAbove unconfident left right there =>
    rw [← count] at right
    exact .fromAbove unconfident left right ((agree _ right.confident).trans there)
  | untouched unconfident left right _ =>
    -- no index is confident, neither this one nor one on either side
    obtain ⟨other, inside, confident⟩ := some
    have gap := gap_of_sides unconfident left.gap right
    rw [gap other (Nat.zero_le _) inside] at confident
    cases confident

end Filled

section Interpolate

variable {values confidence : List α}

theorem getElem?_interpolate_eq_some_iff {index : Nat} {value : α} :
    (interpolate values confidence)[index]? = some value ↔
      Filled values confidence index value := by
  refine ⟨fun here => ?_, Filled.getElem?_interpolate⟩
  have within := (List.getElem?_eq_some_iff.1 here).1
  rw [length_interpolate] at within
  obtain ⟨other, filled⟩ := Filled.exists_of_lt confidence within
  obtain rfl : other = value :=
    Option.some.inj (filled.getElem?_interpolate.symm.trans here)
  exact filled

/-- Values that agree where they are confident, and are so somewhere, are
interpolated alike. -/
theorem interpolate_congr {others : List α} (count : others.length = values.length)
    (some : ∃ index < values.length, confidentAt confidence index = true)
    (agree : ∀ index, confidentAt confidence index = true → others[index]? = values[index]?) :
    interpolate others confidence = interpolate values confidence := by
  apply List.ext_getElem?'
  intro index within
  rw [length_interpolate, length_interpolate, count, Nat.max_self] at within
  obtain ⟨value, filled⟩ := Filled.exists_of_lt confidence within
  rw [filled.getElem?_interpolate, (filled.congr count some agree).getElem?_interpolate]

theorem getElem?_interpolate_of_confident {index : Nat}
    (confident : confidentAt confidence index = true) :
    (interpolate values confidence)[index]? = values[index]? := by
  cases here : values[index]? with
  | none =>
    rw [List.getElem?_eq_none_iff, length_interpolate]
    exact List.getElem?_eq_none_iff.1 here
  | some value => exact (Filled.kept confident here).getElem?_interpolate

theorem interpolate_of_none
    (none : ∀ index < values.length, confidentAt confidence index = false) :
    interpolate values confidence = values := by
  apply List.ext_getElem?'
  intro index within
  rw [length_interpolate, Nat.max_self] at within
  have here := List.getElem?_eq_getElem within
  have left : NoneBelow confidence index :=
    fun other less => none other (Nat.lt_trans less within)
  have right : NoneAbove confidence values.length index := fun other _ => none other
  rw [(Filled.untouched (none index within) left right here).getElem?_interpolate, here]

theorem interpolate_interpolate :
    interpolate (interpolate values confidence) confidence = interpolate values confidence := by
  by_cases some : ∃ index < values.length, confidentAt confidence index = true
  · exact interpolate_congr (length_interpolate values confidence) some
      fun index => getElem?_interpolate_of_confident
  · have none : ∀ index < values.length, confidentAt confidence index = false := by
      intro index within
      simpa using fun confident => some ⟨index, within, confident⟩
    rw [interpolate_of_none none, interpolate_of_none none]

end Interpolate

/-- Interpolation keeps the number of values. At each index it puts exactly what
fills it: the value itself where it is confident, and otherwise the value on the
line between the nearest confident ones, of which the upper one is at least two
indexes from the lower one, or the only one there is, or the value itself where
there is none. So where some value is confident the ones that are not do not
matter, and interpolating once more changes nothing. -/
theorem interpolate_filled (values confidence : List Float) :
    (interpolate values confidence).length = values.length ∧
    (∀ index value, (interpolate values confidence)[index]? = some value ↔
      Filled values confidence index value) ∧
    (∀ index below above, NearestBelow confidence index below →
      NearestAbove confidence values.length index above → 2 ≤ above - below) ∧
    (∀ (first last : Float) (step steps : Nat), Sample.between first last step steps =
      first + (last - first) * (step.toFloat / steps.toFloat)) ∧
    (∀ others : List Float, others.length = values.length →
      (∃ index < values.length, confidentAt confidence index = true) →
      (∀ index, confidentAt confidence index = true → others[index]? = values[index]?) →
      interpolate others confidence = interpolate values confidence) ∧
    interpolate (interpolate values confidence) confidence = interpolate values confidence := by
  refine ⟨length_interpolate values confidence, fun index value => getElem?_interpolate_eq_some_iff,
    fun index below above left right => ?_, fun first last step steps => rfl,
    fun others => interpolate_congr, interpolate_interpolate⟩
  have lower := left.lt
  have upper := right.lt
  omega

end MetricQuery.Series

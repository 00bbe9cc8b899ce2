import Mathlib.Data.Int.Order.Basic
import Mathlib.Data.List.Basic
import Mathlib.Data.Prod.Lex
import Mathlib.Order.MinMax
import MetricQuery.Proofs.Samples

/-!
# Greatest confidence

An overlay is as long as the longest of the confidences merged into it, and at each
index it has the greatest of those that reach that far. So it does not depend on the
order in which they are merged, and what is merged already changes nothing.

Numbers are compared by their ranks in a linear order. What is no number has a rank
below all others.
-/

set_option autoImplicit false

namespace MetricQuery

/-- Ranks of samples in a linear order: the greater of two numbers is the one of the
higher rank, and positive are the samples above zero. -/
structure Ranked {α β : Type} [Sample α] [LinearOrder β] (rank : α → β) (zero : β) : Prop where
  greater_eq : ∀ x y, rank Sample.lowest ≤ rank x → rank Sample.lowest ≤ rank y →
    Sample.greater x y = if rank x < rank y then y else x
  positive_iff : ∀ x, Sample.positive x = true ↔ zero < rank x

namespace Series

variable {α β : Type} [Sample α] [LinearOrder β]

def Numbers (rank : α → β) (confidence : List α) : Prop :=
  ∀ c ∈ confidence, rank Sample.lowest ≤ rank c

/-- What confidences have at an index, as far as they reach. -/
def entriesAt (confidences : List (List α)) (index : Nat) : List α :=
  confidences.filterMap (·[index]?)

/-! ## Lengths -/

omit [LinearOrder β] in
theorem length_mergeOverlay (confidence : List α) :
    ∀ overlay : List α,
      (mergeOverlay overlay confidence).length = max overlay.length confidence.length := by
  induction confidence with
  | nil =>
    intro overlay
    cases overlay <;> simp [mergeOverlay]
  | cons c confidence ih =>
    intro overlay
    cases overlay with
    | nil => simp [mergeOverlay, ih]
    | cons held overlay => simp [mergeOverlay, ih]

theorem length_overlayOf (confidences : List (List α)) :
    (overlayOf confidences).length = (confidences.map List.length).foldr max 0 := by
  have merged : ∀ overlay : List α, (confidences.foldl mergeOverlay overlay).length =
      max overlay.length ((confidences.map List.length).foldr max 0) := by
    induction confidences with
    | nil =>
      intro overlay
      simp
    | cons confidence rest ih =>
      intro overlay
      rw [List.foldl_cons, ih, length_mergeOverlay, List.map_cons, List.foldr_cons, max_assoc]
  rw [overlayOf, merged, List.length_nil, Nat.zero_max]

/-! ## Entries -/

variable {rank : α → β} {zero : β}

theorem rank_greater (ranked : Ranked rank zero) {x y : α}
    (first : rank Sample.lowest ≤ rank x) (second : rank Sample.lowest ≤ rank y) :
    rank (Sample.greater x y) = max (rank x) (rank y) := by
  rw [ranked.greater_eq x y first second, max_def_lt]
  split <;> rfl

/-- What an overlay is filled up with is lost in the merge. -/
theorem rank_greater_lowest (ranked : Ranked rank zero) {c : α}
    (number : rank Sample.lowest ≤ rank c) :
    rank (Sample.greater Sample.lowest c) = rank c := by
  rw [rank_greater ranked (le_refl _) number, max_eq_right number]

theorem rank_mergeOverlay (ranked : Ranked rank zero) {confidence : List α}
    (numbers : Numbers rank confidence) :
    ∀ {overlay : List α}, Numbers rank overlay → ∀ index : Nat,
      ((mergeOverlay overlay confidence)[index]?).map rank =
        Option.merge max (overlay[index]?.map rank) (confidence[index]?.map rank) := by
  induction confidence with
  | nil =>
    intro overlay _ index
    cases overlay <;> simp [mergeOverlay]
  | cons c confidence ih =>
    obtain ⟨number, others⟩ := List.forall_mem_cons.1 numbers
    intro overlay held index
    cases overlay with
    | nil =>
      cases index with
      | zero => simp [mergeOverlay, rank_greater_lowest ranked number]
      | succ index => simpa [mergeOverlay] using ih others held index
    | cons first overlay =>
      obtain ⟨own, later⟩ := List.forall_mem_cons.1 held
      cases index with
      | zero => simp [mergeOverlay, rank_greater ranked own number]
      | succ index => simpa [mergeOverlay] using ih others later index

theorem numbers_mergeOverlay (ranked : Ranked rank zero) {confidence : List α}
    (numbers : Numbers rank confidence) :
    ∀ {overlay : List α}, Numbers rank overlay →
      Numbers rank (mergeOverlay overlay confidence) := by
  induction confidence with
  | nil =>
    intro overlay held
    cases overlay <;> exact held
  | cons c confidence ih =>
    obtain ⟨number, others⟩ := List.forall_mem_cons.1 numbers
    intro overlay held
    cases overlay with
    | nil =>
      refine List.forall_mem_cons.2 ⟨?_, ih others held⟩
      rwa [rank_greater_lowest ranked number]
    | cons first overlay =>
      obtain ⟨own, later⟩ := List.forall_mem_cons.1 held
      refine List.forall_mem_cons.2 ⟨?_, ih others later⟩
      rw [rank_greater ranked own number]
      exact le_max_of_le_left own

omit [Sample α] in
theorem entriesAt_cons (confidence : List α) (rest : List (List α)) (index : Nat) :
    entriesAt (confidence :: rest) index = confidence[index]?.toList ++ entriesAt rest index := by
  cases found : confidence[index]? <;> simp [entriesAt, found]

/-- By induction on what is merged: at each index the greatest so far is merged with the
greatest of the rest. -/
theorem rank_foldl_mergeOverlay (ranked : Ranked rank zero) (index : Nat)
    {confidences : List (List α)} (numbers : ∀ confidence ∈ confidences, Numbers rank confidence) :
    ∀ {overlay : List α}, Numbers rank overlay →
      ((confidences.foldl mergeOverlay overlay)[index]?).map rank =
        Option.merge max (overlay[index]?.map rank)
          ((entriesAt confidences index).map rank).max? := by
  have assoc : Std.Associative (Option.merge (max : β → β → β)) := inferInstance
  induction confidences with
  | nil =>
    intro overlay _
    simp [entriesAt]
  | cons confidence rest ih =>
    obtain ⟨first, later⟩ := List.forall_mem_cons.1 numbers
    intro overlay held
    have own : Option.merge max (confidence[index]?.map rank)
          ((entriesAt rest index).map rank).max? =
        ((entriesAt (confidence :: rest) index).map rank).max? := by
      rw [entriesAt_cons]
      cases confidence[index]? with
      | none => simp
      | some c =>
        rw [Option.toList_some, List.singleton_append, List.map_cons, List.max?_cons]
        cases ((entriesAt rest index).map rank).max? <;> rfl
    rw [List.foldl_cons, ih later (numbers_mergeOverlay ranked first held),
      rank_mergeOverlay ranked first held, assoc.assoc, own]

theorem rank_overlayOf (ranked : Ranked rank zero) {confidences : List (List α)}
    (numbers : ∀ confidence ∈ confidences, Numbers rank confidence) (index : Nat) :
    ((overlayOf confidences)[index]?).map rank =
      ((entriesAt confidences index).map rank).max? := by
  have empty : Numbers rank ([] : List α) := List.forall_mem_nil _
  rw [overlayOf, rank_foldl_mergeOverlay ranked index numbers empty]
  simp

theorem numbers_overlayOf (ranked : Ranked rank zero) {confidences : List (List α)}
    (numbers : ∀ confidence ∈ confidences, Numbers rank confidence) :
    Numbers rank (overlayOf confidences) :=
  List.foldlRecOn confidences mergeOverlay (List.forall_mem_nil _)
    fun _ held confidence member => numbers_mergeOverlay ranked (numbers confidence member) held

/-! ## Order and repetition -/

theorem max?_eq_of_perm {ranks others : List β} (perm : ranks.Perm others) :
    ranks.max? = others.max? := by
  apply Option.ext
  intro greatest
  rw [List.max?_eq_some_iff, List.max?_eq_some_iff, perm.mem_iff]
  simp only [perm.mem_iff]

theorem rank_overlayOf_perm (ranked : Ranked rank zero) {confidences arranged : List (List α)}
    (numbers : ∀ confidence ∈ confidences, Numbers rank confidence)
    (perm : arranged.Perm confidences) :
    (overlayOf arranged).map rank = (overlayOf confidences).map rank := by
  have others : ∀ confidence ∈ arranged, Numbers rank confidence :=
    fun confidence member => numbers confidence (perm.mem_iff.1 member)
  apply List.ext_getElem?
  intro index
  rw [List.getElem?_map, List.getElem?_map, rank_overlayOf ranked others,
    rank_overlayOf ranked numbers]
  exact max?_eq_of_perm ((perm.filterMap _).map rank)

/-- What lies below an overlay already is merged without a trace. -/
theorem mergeOverlay_of_below (ranked : Ranked rank zero) {confidence : List α}
    (numbers : Numbers rank confidence) :
    ∀ {overlay : List α}, Numbers rank overlay →
      (∀ (index : Nat) c, confidence[index]? = some c →
        ∃ held, overlay[index]? = some held ∧ rank c ≤ rank held) →
      mergeOverlay overlay confidence = overlay := by
  induction confidence with
  | nil =>
    intro overlay _ _
    cases overlay <;> rfl
  | cons c confidence ih =>
    obtain ⟨number, others⟩ := List.forall_mem_cons.1 numbers
    intro overlay held below
    obtain ⟨first, found, least⟩ := below 0 c rfl
    cases overlay with
    | nil => cases found
    | cons own overlay =>
      obtain rfl := Option.some.inj found
      obtain ⟨ownNumber, later⟩ := List.forall_mem_cons.1 held
      have kept : Sample.greater own c = own := by
        rw [ranked.greater_eq own c ownNumber number, if_neg (not_lt_of_ge least)]
      rw [mergeOverlay, kept, ih others later fun index => below (index + 1)]

/-- An entry of one of the confidences does not rank above that of the overlay. -/
theorem exists_overlayOf (ranked : Ranked rank zero) {confidences : List (List α)}
    (numbers : ∀ confidence ∈ confidences, Numbers rank confidence) {confidence : List α}
    (member : confidence ∈ confidences) {index : Nat} {c : α}
    (found : confidence[index]? = some c) :
    ∃ held, (overlayOf confidences)[index]? = some held ∧ rank c ≤ rank held := by
  have among : rank c ∈ (entriesAt confidences index).map rank :=
    List.mem_map_of_mem (List.mem_filterMap.2 ⟨confidence, member, found⟩)
  have greatest := rank_overlayOf ranked numbers index
  cases outcome : ((entriesAt confidences index).map rank).max? with
  | none =>
    rw [List.max?_eq_none_iff.1 outcome] at among
    cases among
  | some top =>
    rw [outcome] at greatest
    obtain ⟨held, holds, rfl⟩ := Option.map_eq_some_iff.1 greatest
    exact ⟨held, holds, (List.max?_eq_some_iff.1 outcome).2 _ among⟩

/-- The entry of an overlay has the rank of an entry of one of the confidences. -/
theorem exists_of_overlayOf (ranked : Ranked rank zero) {confidences : List (List α)}
    (numbers : ∀ confidence ∈ confidences, Numbers rank confidence) {index : Nat} {held : α}
    (found : (overlayOf confidences)[index]? = some held) :
    ∃ confidence ∈ confidences, ∃ c, confidence[index]? = some c ∧ rank c = rank held := by
  have greatest := rank_overlayOf ranked numbers index
  rw [found] at greatest
  obtain ⟨among, _⟩ := List.max?_eq_some_iff.1 greatest.symm
  obtain ⟨c, entry, same⟩ := List.mem_map.1 among
  obtain ⟨confidence, member, here⟩ := List.mem_filterMap.1 entry
  exact ⟨confidence, member, c, here, same⟩

theorem mergeOverlay_overlayOf (ranked : Ranked rank zero) {confidences : List (List α)}
    (numbers : ∀ confidence ∈ confidences, Numbers rank confidence) {confidence : List α}
    (member : confidence ∈ confidences) :
    mergeOverlay (overlayOf confidences) confidence = overlayOf confidences :=
  mergeOverlay_of_below ranked (numbers confidence member) (numbers_overlayOf ranked numbers)
    fun _ _ found => exists_overlayOf ranked numbers member found

theorem le_mergeOverlay (ranked : Ranked rank zero) {overlay confidence : List α}
    (held : Numbers rank overlay) (numbers : Numbers rank confidence) {index : Nat} {c : α}
    (found : overlay[index]? = some c) :
    ∃ merged, (mergeOverlay overlay confidence)[index]? = some merged ∧ rank c ≤ rank merged := by
  have merges := rank_mergeOverlay ranked numbers held index
  rw [found] at merges
  cases other : confidence[index]? with
  | none =>
    rw [other] at merges
    obtain ⟨merged, there, same⟩ := Option.map_eq_some_iff.1 merges
    exact ⟨merged, there, same.ge⟩
  | some d =>
    rw [other] at merges
    obtain ⟨merged, there, same⟩ := Option.map_eq_some_iff.1 merges
    exact ⟨merged, there, same ▸ le_max_left _ _⟩

theorem positiveAt_iff {confidence : List α} {index : Nat} (ranked : Ranked rank zero) :
    positiveAt confidence index = true ↔ ∃ c, confidence[index]? = some c ∧ zero < rank c := by
  simp only [positiveAt, Option.any_eq_true, ranked.positive_iff]

theorem positiveAt_overlayOf_iff (ranked : Ranked rank zero) {confidences : List (List α)}
    (numbers : ∀ confidence ∈ confidences, Numbers rank confidence) (index : Nat) :
    positiveAt (overlayOf confidences) index = true ↔
      ∃ confidence ∈ confidences, positiveAt confidence index = true := by
  simp only [positiveAt_iff ranked]
  constructor
  · rintro ⟨held, found, above⟩
    obtain ⟨confidence, member, c, here, same⟩ := exists_of_overlayOf ranked numbers found
    exact ⟨confidence, member, c, here, same ▸ above⟩
  · rintro ⟨confidence, member, c, here, above⟩
    obtain ⟨held, found, least⟩ := exists_overlayOf ranked numbers member here
    exact ⟨held, found, lt_of_lt_of_le above least⟩

end Series

/-! ## Ranks of floating-point numbers -/

namespace Sample

open Float.Model (UnpackedFloat)

/-- The place of a number among all: by its sign, then by its exponent, then by its
mantissa, these two reversed below zero. -/
def unpackedRank : UnpackedFloat → ℤ ×ₗ ℤ ×ₗ ℤ
  | .notANumber => toLex (-3, toLex (0, 0))
  | .infinity .negative => toLex (-2, toLex (0, 0))
  | .finite .negative mantissa exponent _ => toLex (-1, toLex (-exponent, -mantissa))
  | .zero _ => toLex (0, toLex (0, 0))
  | .finite .positive mantissa exponent _ => toLex (1, toLex (exponent, mantissa))
  | .infinity .positive => toLex (2, toLex (0, 0))

def floatRank (x : Float) : ℤ ×ₗ ℤ ×ₗ ℤ :=
  unpackedRank x.toModel.unpack

section Finite

variable {mantissa other : Nat} {exponent power : Int} (positive : 0 < mantissa)
  (otherPositive : 0 < other)

theorem lt_finite_positive :
    (UnpackedFloat.finite .positive mantissa exponent positive).lt
        (.finite .positive other power otherPositive) = true ↔
      exponent < power ∨ exponent = power ∧ mantissa < other := by
  change (some ((compare exponent power).then (compare mantissa other)) == some .lt) = true ↔ _
  rw [beq_iff_eq, Option.some_inj, Ordering.then_eq_lt, Int.compare_eq_lt, Int.compare_eq_eq,
    Nat.compare_eq_lt]

theorem lt_finite_negative :
    (UnpackedFloat.finite .negative mantissa exponent positive).lt
        (.finite .negative other power otherPositive) = true ↔
      power < exponent ∨ exponent = power ∧ other < mantissa := by
  change (some ((compare exponent power).then (compare mantissa other)).swap == some .lt) = true ↔ _
  rw [beq_iff_eq, Option.some_inj, Ordering.swap_eq_lt, Ordering.then_eq_gt, Int.compare_eq_gt,
    Int.compare_eq_eq, Nat.compare_eq_gt]

theorem lt_iff_of_positive :
    (UnpackedFloat.finite .positive mantissa exponent positive).lt
        (.finite .positive other power otherPositive) = true ↔
      toLex ((1 : ℤ), toLex (exponent, (mantissa : ℤ))) <
        toLex (1, toLex (power, (other : ℤ))) := by
  rw [lt_finite_positive, Prod.Lex.toLex_lt_toLex, Prod.Lex.toLex_lt_toLex]
  simp

theorem lt_iff_of_negative :
    (UnpackedFloat.finite .negative mantissa exponent positive).lt
        (.finite .negative other power otherPositive) = true ↔
      toLex ((-1 : ℤ), toLex (-exponent, -(mantissa : ℤ))) <
        toLex (-1, toLex (-power, -(other : ℤ))) := by
  rw [lt_finite_negative, Prod.Lex.toLex_lt_toLex, Prod.Lex.toLex_lt_toLex]
  simp

end Finite

/-- Numbers that differ in their first places are compared by these alone. -/
theorem lt_iff_of_ne {less : Bool} {first second : ℤ} {rest others : ℤ ×ₗ ℤ}
    (different : first ≠ second) (compared : less = decide (first < second)) :
    less = true ↔ toLex (first, rest) < toLex (second, others) := by
  rw [compared, decide_eq_true_iff, Prod.Lex.toLex_lt_toLex]
  exact (or_iff_left fun same => different same.1).symm

theorem le_of_first_lt {first second : ℤ} {rest others : ℤ ×ₗ ℤ} (below : first < second) :
    toLex (first, rest) ≤ toLex (second, others) :=
  Prod.Lex.toLex_le_toLex.2 (.inl below)

theorem lt_iff_unpackedRank {x y : UnpackedFloat} (first : x.isNaN = false)
    (second : y.isNaN = false) : x.lt y = true ↔ unpackedRank x < unpackedRank y := by
  cases x with
  | notANumber => cases first
  | infinity sign =>
    cases y with
    | notANumber => cases second
    | infinity other => cases sign <;> cases other <;> decide
    | zero => cases sign <;> exact lt_iff_of_ne (by decide) rfl
    | finite other => cases sign <;> cases other <;> exact lt_iff_of_ne (by decide) rfl
  | zero =>
    cases y with
    | notANumber => cases second
    | zero => exact iff_of_false Bool.false_ne_true (lt_irrefl _)
    | infinity other | finite other => cases other <;> exact lt_iff_of_ne (by decide) rfl
  | finite sign =>
    cases y with
    | notANumber => cases second
    | zero => cases sign <;> exact lt_iff_of_ne (by decide) rfl
    | infinity other => cases sign <;> cases other <;> exact lt_iff_of_ne (by decide) rfl
    | finite other =>
      cases sign with
      | negative =>
        cases other with
        | negative => exact lt_iff_of_negative _ _
        | positive => exact lt_iff_of_ne (by decide) rfl
      | positive =>
        cases other with
        | negative => exact lt_iff_of_ne (by decide) rfl
        | positive => exact lt_iff_of_positive _ _

theorem isAboveZero_iff_unpackedRank (x : UnpackedFloat) :
    isAboveZero x = true ↔ toLex (0, toLex (0, 0)) < unpackedRank x := by
  cases x with
  | notANumber => decide
  | zero => exact iff_of_false Bool.false_ne_true (lt_irrefl _)
  | infinity sign => cases sign <;> decide
  | finite sign => cases sign <;> exact lt_iff_of_ne (by decide) rfl

/-- Only what is no number is below the least number. -/
theorem lowest_le_iff (x : Float) :
    floatRank Sample.lowest ≤ floatRank x ↔ x.isNaN = false := by
  have lowest : (Sample.lowest : Float).toModel.unpack = .infinity .negative := by rfl
  have isNaN : x.isNaN = x.toModel.unpack.isNaN := rfl
  rw [isNaN, floatRank, floatRank, lowest]
  cases x.toModel.unpack with
  | notANumber => decide
  | infinity sign => cases sign <;> decide
  | zero => exact iff_of_true (le_of_first_lt (by decide)) rfl
  | finite sign => cases sign <;> exact iff_of_true (le_of_first_lt (by decide)) rfl

theorem ranked_float : Ranked floatRank (toLex (0, toLex (0, 0))) where
  greater_eq x y first second := by
    have number : x.isNaN = false := (lowest_le_iff x).1 first
    have less : x < y ↔ floatRank x < floatRank y := by
      have unpacked := lt_iff_unpackedRank number ((lowest_le_iff y).1 second)
      rwa [← lt_eq, decide_eq_true_iff] at unpacked
    change greaterFloat x y = _
    simp only [greaterFloat, number, less]
    rfl
  positive_iff x := by
    rw [positive_eq]
    exact isAboveZero_iff_unpackedRank _

end Sample

namespace Series

/-- The overlay of confidences is as long as the longest of them, and at each index it
has the greatest of those that reach that far. Hence it is the same in whatever order
they are merged; merging one of them again changes nothing; merging never lowers an
overlay and never makes it shorter; and an overlay is positive exactly where one of the
confidences is. Samples of the same rank count as the same, which where the samples
themselves are in linear order are only equal ones. -/
theorem overlayOf_greatest {α β : Type} [Sample α] [LinearOrder β] (rank : α → β) (zero : β)
    (ranked : Ranked rank zero) (confidences : List (List α))
    (numbers : ∀ confidence ∈ confidences, Numbers rank confidence) :
    let overlay := overlayOf confidences
    overlay.length = (confidences.map List.length).foldr max 0 ∧
    (∀ index : Nat, overlay[index]?.map rank =
      ((entriesAt confidences index).map rank).max?) ∧
    (∀ arranged : List (List α), arranged.Perm confidences →
      (overlayOf arranged).map rank = overlay.map rank ∧
        (Function.Injective rank → overlayOf arranged = overlay)) ∧
    (∀ confidence ∈ confidences, mergeOverlay overlay confidence = overlay) ∧
    (∀ held confidence : List α, Numbers rank held → Numbers rank confidence →
      held.length ≤ (mergeOverlay held confidence).length ∧
        ∀ (index : Nat) c, held[index]? = some c →
          ∃ merged, (mergeOverlay held confidence)[index]? = some merged ∧
            rank c ≤ rank merged) ∧
    ∀ index, positiveAt overlay index = true ↔
      ∃ confidence ∈ confidences, positiveAt confidence index = true := by
  intro overlay
  refine ⟨length_overlayOf confidences, rank_overlayOf ranked numbers, ?_, ?_, ?_,
    positiveAt_overlayOf_iff ranked numbers⟩
  · intro arranged perm
    have same := rank_overlayOf_perm ranked numbers perm
    exact ⟨same, fun injective => List.map_injective_iff.2 injective same⟩
  · intro confidence member
    exact mergeOverlay_overlayOf ranked numbers member
  · intro held confidence heldNumbers confidenceNumbers
    refine ⟨?_, ?_⟩
    · rw [length_mergeOverlay]
      exact Nat.le_max_left _ _
    · intro index c found
      exact le_mergeOverlay ranked heldNumbers confidenceNumbers found

/-- Two confidences of different lengths; where none of them is positive, the overlay is
not either. -/
theorem overlayOf_greatest_ragged :
    let shorter : List Float := [0.0, 1.0, 0.0]
    let longer : List Float := [0.5, 0.0, 0.0, 1.0]
    let overlay := overlayOf [shorter, longer]
    (∀ confidence ∈ [shorter, longer], Numbers Sample.floatRank confidence) ∧
      overlay.length = 4 ∧
      (∀ index : Nat, overlay[index]?.map Sample.floatRank =
        ((entriesAt [shorter, longer] index).map Sample.floatRank).max?) ∧
      mergeOverlay overlay shorter = overlay ∧
      (overlayOf [longer, shorter]).map Sample.floatRank = overlay.map Sample.floatRank ∧
      positiveAt overlay 0 = true ∧ positiveAt overlay 2 = false ∧
      positiveAt overlay 3 = true := by
  intro shorter longer overlay
  have numbers : ∀ confidence ∈ [shorter, longer], Numbers Sample.floatRank confidence := by
    have isNumber : ∀ confidence ∈ [shorter, longer], ∀ c ∈ confidence, Float.isNaN c = false := by
      decide +kernel
    intro confidence member c inside
    exact (Sample.lowest_le_iff c).2 (isNumber confidence member c inside)
  obtain ⟨length, greatest, orders, again, _, positive⟩ :=
    overlayOf_greatest Sample.floatRank _ Sample.ranked_float [shorter, longer] numbers
  refine ⟨numbers, length, greatest, again shorter List.mem_cons_self,
    (orders [longer, shorter] (.swap _ _ _)).1, ?_, ?_, ?_⟩
  · exact (positive 0).2 ⟨longer, by simp, by decide +kernel⟩
  · have noneAbove : ¬∃ confidence ∈ [shorter, longer], positiveAt confidence 2 = true := by
      decide +kernel
    exact Bool.eq_false_iff.2 fun above => noneAbove ((positive 2).1 above)
  · exact (positive 3).2 ⟨longer, by simp, by decide +kernel⟩

end Series

end MetricQuery

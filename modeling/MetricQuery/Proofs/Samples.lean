import MetricQuery.Series.Sample

/-!
# Positive samples

Confidence counts only by its sign: the greater of two samples is positive where
one of them is, and what an overlay is filled up with is not. So an overlay is
positive at an index exactly if some confidence merged into it is positive there,
in whatever order they are merged.
-/

set_option autoImplicit false

namespace MetricQuery

class LawfulSample (α : Type) [Sample α] : Prop where
  positive_lowest : Sample.positive (Sample.lowest : α) = false
  positive_greater : ∀ x y : α,
    Sample.positive (Sample.greater x y) = (Sample.positive x || Sample.positive y)

/-! ## Floating-point numbers -/

namespace Sample

open Float.Model (UnpackedFloat)

def isAboveZero : UnpackedFloat → Bool
  | .infinity .positive | .finite .positive _ _ _ => true
  | _ => false

theorem zero_lt_eq (sign : UnpackedFloat.Sign) (x : UnpackedFloat) :
    (UnpackedFloat.zero sign).lt x = isAboveZero x := by
  cases x with
  | infinity other => cases other <;> rfl
  | notANumber => rfl
  | zero other => rfl
  | finite other mantissa exponent positive => cases other <;> rfl

theorem isAboveZero_of_lt {x y : UnpackedFloat} (less : x.lt y = true)
    (above : isAboveZero x = true) : isAboveZero y = true := by
  cases x with
  | infinity sign =>
    cases sign
    · cases above
    · cases y with
      | infinity other => cases other <;> cases less
      | _ => cases less
  | notANumber => cases above
  | zero sign => cases above
  | finite sign mantissa exponent positive =>
    cases sign
    · cases above
    · cases y with
      | infinity other =>
        cases other
        · cases less
        · rfl
      | notANumber => cases less
      | zero other => cases less
      | finite other mantissa exponent positive =>
        cases other
        · cases less
        · rfl

theorem lt_of_isAboveZero {x y : UnpackedFloat} (number : x.isNaN = false)
    (notAbove : isAboveZero x = false) (above : isAboveZero y = true) : x.lt y = true := by
  cases y with
  | notANumber => cases above
  | zero other => cases above
  | infinity other =>
    cases other
    · cases above
    · cases x with
      | infinity sign => cases sign <;> first | rfl | cases notAbove
      | notANumber => cases number
      | zero sign => rfl
      | finite sign mantissa exponent positive => cases sign <;> rfl
  | finite other mantissa exponent positive =>
    cases other
    · cases above
    · cases x with
      | infinity sign => cases sign <;> first | rfl | cases notAbove
      | notANumber => cases number
      | zero sign => rfl
      | finite sign mantissa exponent positive => cases sign <;> first | rfl | cases notAbove

theorem lt_eq (x y : Float) : decide (x < y) = x.toModel.unpack.lt y.toModel.unpack := by
  show decide (decide (x.toModel.unpack.lt y.toModel.unpack = true) = true) = _
  rw [Bool.decide_eq_true, Bool.decide_eq_true]

theorem positive_eq (x : Float) : Sample.positive x = isAboveZero x.toModel.unpack := by
  have zero : (0.0 : Float).toModel.unpack = .zero .positive := by rfl
  rw [← zero_lt_eq .positive, ← zero, ← lt_eq]
  rfl

theorem positive_greaterFloat (x y : Float) :
    Sample.positive (greaterFloat x y) = (Sample.positive x || Sample.positive y) := by
  unfold greaterFloat
  by_cases missing : x.isNaN = true
  · have notAbove : Sample.positive x = false := by
      have unpacked : x.toModel.unpack.isNaN = true := missing
      rw [positive_eq]
      cases shape : x.toModel.unpack with
      | notANumber => rfl
      | _ => rw [shape] at unpacked; cases unpacked
    rw [if_pos missing, notAbove, Bool.false_or]
  · have number : x.toModel.unpack.isNaN = false := Bool.eq_false_iff.2 missing
    rw [if_neg missing]
    by_cases less : x < y
    · have below := (lt_eq x y).symm.trans (decide_eq_true less)
      rw [if_pos less, positive_eq, positive_eq]
      cases above : isAboveZero x.toModel.unpack with
      | false => rfl
      | true => rw [isAboveZero_of_lt below above]; rfl
    · have notBelow := (lt_eq x y).symm.trans (decide_eq_false less)
      rw [if_neg less, positive_eq, positive_eq]
      cases above : isAboveZero x.toModel.unpack with
      | true => rfl
      | false =>
        cases other : isAboveZero y.toModel.unpack with
        | false => rfl
        | true =>
          rw [lt_of_isAboveZero number above other] at notBelow
          cases notBelow

instance : LawfulSample Float where
  positive_lowest := by
    have lowest : (Sample.lowest : Float).toModel.unpack = .infinity .negative := by rfl
    rw [positive_eq, lowest]
    rfl
  positive_greater := positive_greaterFloat

end Sample

/-! ## Overlays -/

namespace Series

variable {α : Type} [Sample α]

/-- Whether a confidence is there at an index and positive. -/
def positiveAt (confidence : List α) (index : Nat) : Bool :=
  confidence[index]?.any Sample.positive

theorem positiveAt_nil (index : Nat) : positiveAt ([] : List α) index = false := rfl

theorem positiveAt_cons_zero (c : α) (confidence : List α) :
    positiveAt (c :: confidence) 0 = Sample.positive c := rfl

theorem positiveAt_cons_succ (c : α) (confidence : List α) (index : Nat) :
    positiveAt (c :: confidence) (index + 1) = positiveAt confidence index := rfl

variable [LawfulSample α]

theorem positiveAt_mergeOverlay (confidence : List α) :
    ∀ (overlay : List α) (index : Nat), positiveAt (mergeOverlay overlay confidence) index =
      (positiveAt overlay index || positiveAt confidence index) := by
  induction confidence with
  | nil =>
    intro overlay index
    cases overlay <;> simp [mergeOverlay, positiveAt_nil]
  | cons c confidence ih =>
    intro overlay index
    cases overlay with
    | nil =>
      cases index with
      | zero =>
        simp [mergeOverlay, positiveAt_cons_zero, positiveAt_nil, LawfulSample.positive_greater,
          LawfulSample.positive_lowest]
      | succ index => simp [mergeOverlay, positiveAt_cons_succ, positiveAt_nil, ih]
    | cons held overlay =>
      cases index with
      | zero => simp [mergeOverlay, positiveAt_cons_zero, LawfulSample.positive_greater]
      | succ index => simp [mergeOverlay, positiveAt_cons_succ, ih]

theorem positiveAt_overlayOf (confidences : List (List α)) (index : Nat) :
    positiveAt (overlayOf confidences) index = confidences.any (positiveAt · index) := by
  have merged : ∀ overlay : List α, positiveAt (confidences.foldl mergeOverlay overlay) index =
      (positiveAt overlay index || confidences.any (positiveAt · index)) := by
    induction confidences with
    | nil =>
      intro overlay
      simp
    | cons confidence rest ih =>
      intro overlay
      rw [List.foldl_cons, ih, positiveAt_mergeOverlay, List.any_cons, Bool.or_assoc]
  rw [overlayOf, merged, positiveAt_nil, Bool.false_or]

end Series

end MetricQuery

/-!
# Samples

The operations on the numbers of a series that gating, merging and
interpolating need, and the merging and interpolating of whole lists of them.
-/

set_option autoImplicit false

namespace MetricQuery

class Sample (α : Type) where
  /-- Nothing is less. -/
  lowest : α
  /-- The greater of two; the first one if neither is. -/
  greater : α → α → α
  positive : α → Bool
  /-- The value at the given step of so many from one value to another. -/
  between : (first last : α) → (step steps : Nat) → α

namespace Sample

/-- The greater of two numbers; a missing one is not counted. -/
def greaterFloat (x y : Float) : Float :=
  if x.isNaN then y else if x < y then y else x

def betweenFloat (first last : Float) (step steps : Nat) : Float :=
  first + (last - first) * (step.toFloat / steps.toFloat)

instance : Sample Float where
  lowest := -(1.0 / 0.0)
  greater := greaterFloat
  positive x := 0.0 < x
  between := betweenFloat

end Sample

namespace Series

variable {α : Type} [Sample α]

/-! ## Overlays -/

/-- Merges the confidence of a series into an overlay, which grows as needed. -/
def mergeOverlay : (overlay confidence : List α) → List α
  | overlay, [] => overlay
  | [], c :: confidence => Sample.greater Sample.lowest c :: mergeOverlay [] confidence
  | held :: overlay, c :: confidence => Sample.greater held c :: mergeOverlay overlay confidence

def overlayOf (confidences : List (List α)) : List α :=
  confidences.foldl mergeOverlay []

/-! ## Interpolation

Values without confidence are replaced by ones between the nearest confident
values on either side, or by the nearest one where there is none on the other.
Where no value is confident, all stay. -/

/-- Values with whether they are confident. A value is where its confidence is
positive or missing. -/
def markConfident : (values confidence : List α) → List (α × Bool)
  | [], _ => []
  | value :: values, [] => (value, true) :: markConfident values []
  | value :: values, c :: confidence =>
    (value, Sample.positive c) :: markConfident values confidence

def fillGap (before after : Option α) (gap : List α) : List α :=
  match before, after with
  | some first, some last =>
    (List.range' 1 gap.length).map fun step => Sample.between first last step (gap.length + 1)
  | some nearest, none | none, some nearest => gap.map fun _ => nearest
  | none, none => gap

/-- Fills the gaps of values. `before` is the confident value in front of them,
and `gap` the unconfident values since then, last one first. -/
def fillGaps (before : Option α) (gap : List α) : List (α × Bool) → List α
  | [] => fillGap before none gap.reverse
  | (value, true) :: rest =>
    fillGap before (some value) gap.reverse ++ value :: fillGaps (some value) [] rest
  | (value, false) :: rest => fillGaps before (value :: gap) rest

def interpolate (values confidence : List α) : List α :=
  fillGaps none [] (markConfident values confidence)

end Series

end MetricQuery

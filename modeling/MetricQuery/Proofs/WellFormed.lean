import MetricQuery.Document.Query

/-!
# Well-formed queries

What the conversions and the documents give: metrics of at least one segment,
tags without an empty scope, finite numbers, durations within 64 bits, instants
whose text is read as them, and static fields that are values without a document.
The variables of a query are not part of its document and may be anything.
-/

set_option autoImplicit false

namespace MetricQuery

/-- A value without a document: its fields stand in the order of their names. -/
structure Json.IsPlain (value : Json) : Prop where
  readable : value.isReadable = true
  sorted : value.sorted = value

def Tag.WellFormed (tag : Tag) : Prop :=
  tag.scope ≠ some ""

def Metric.WellFormed : Metric → Prop
  | .all => True
  | .path segments => segments ≠ []

def Condition.WellFormed : Condition → Prop
  | .equals tag _ | .differs tag _ | .present tag => tag.WellFormed
  | .and left right | .or left right => left.WellFormed ∧ right.WellFormed
  | .unknown => True

structure Selector.WellFormed (selector : Selector) : Prop where
  metric : selector.metric.WellFormed
  condition : ∀ condition, selector.condition = some condition → condition.WellFormed

structure Annotations.WellFormed (annotations : Annotations) : Prop where
  tags : ∀ tag ∈ annotations.tags, tag.WellFormed
  statics : ∀ entry ∈ annotations.statics.entries, entry.2.IsPlain

mutual

def Value.WellFormed : Value → Prop
  | .text _ => True
  | .number x => x.isFinite = true
  | .selector selector => selector.WellFormed
  | .call call => call.WellFormed
  | .part part => part.WellFormed

def Argument.WellFormed : Argument → Prop
  | .subject | .reference _ => True
  | .value value => value.WellFormed

def argumentsWellFormed : List Argument → Prop
  | [] => True
  | argument :: rest => argument.WellFormed ∧ argumentsWellFormed rest

def Call.WellFormed : Call → Prop
  | ⟨_, arguments⟩ => argumentsWellFormed arguments

def callWellFormed : Option Call → Prop
  | none => True
  | some call => call.WellFormed

def Part.WellFormed : Part → Prop
  | ⟨selector, call, annotations, _, _⟩ =>
    selector.WellFormed ∧ callWellFormed call ∧
      ∀ held, annotations = some held → held.WellFormed

end

def Duration.WellFormed (duration : Duration) : Prop :=
  Text.minSigned64 < duration.millis ∧ duration.millis ≤ Text.maxSigned64

/-- An instant whose text in documents is read as that instant. -/
def Instant.ReadsBack (instant : Instant) : Prop :=
  ofDocument? instant.documentText = some instant

structure Query.WellFormed (query : Query) : Prop where
  parts : ∀ part ∈ query.parts, part.WellFormed
  beginning : ∀ instant, query.beginning = some instant → instant.ReadsBack
  ending : ∀ instant, query.ending = some instant → instant.ReadsBack
  duration : ∀ duration, query.duration = some duration → duration.WellFormed

theorem argumentsWellFormed_iff {arguments : List Argument} :
    argumentsWellFormed arguments ↔ ∀ argument ∈ arguments, argument.WellFormed := by
  induction arguments with
  | nil => simp [argumentsWellFormed]
  | cons argument rest ih => simp [argumentsWellFormed, ih]

end MetricQuery

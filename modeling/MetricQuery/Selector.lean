import MetricQuery.Tag

/-!
# Selectors

A selector addresses the series of a query: a metric of a collection, limited by
a condition and shifted in time. A metric is a path of segments or the word `ALL`,
which stands for every metric of a collection.
-/

set_option autoImplicit false

namespace MetricQuery

/-! ## Metrics -/

inductive Metric where
  | all
  | path (segments : List String)
  deriving DecidableEq, Repr

namespace Metric

def allWord : String := "ALL"

/-- Equality of texts up to the case of ASCII letters. -/
def sameWord (left right : String) : Bool :=
  left.toList.map Char.toLower == right.toList.map Char.toLower

/-- A path has at least one segment. -/
def ofSegments : List String → Except MetricFault Metric
  | [] => .error .emptyPath
  | segment :: rest => .ok (.path (segment :: rest))

/-- A single word has to be `ALL`, in any case. -/
def ofWord (word : String) : Except MetricFault Metric :=
  if sameWord word allWord then .ok .all else .error (.notAll word)

def isAll : Metric → Bool
  | .all => true
  | .path _ => false

def text : Metric → String
  | .all => allWord
  | .path segments => ".".intercalate (segments.map fun segment => "'" ++ segment ++ "'")

end Metric

inductive MetricForm where
  | word (word : String)
  | segments (segments : List String)
  | metric (metric : Metric)
  deriving DecidableEq, Repr

def MetricForm.resolve : MetricForm → Except QueryError Metric
  | .word given => (Metric.ofWord given).mapError .invalidMetric
  | .segments given => (Metric.ofSegments given).mapError .invalidMetric
  | .metric given => .ok given

/-! ## Selectors -/

structure Timeshift where
  offset : String
  deriving DecidableEq, Repr

def Timeshift.text (shift : Timeshift) : String :=
  "SHIFT BY " ++ shift.offset

structure Selector where
  collection : String
  metric : Metric
  condition : Option Condition
  timeshift : Option Timeshift
  deriving DecidableEq, Repr

namespace Selector

def make (collection : String) (metric : MetricForm) : Except QueryError Selector :=
  match metric.resolve with
  | .ok metric => .ok ⟨collection, metric, none, none⟩
  | .error error => .error error

def filter (selector : Selector) (condition : Condition) : Selector :=
  { selector with condition := some condition }

/-- Joins a condition to the present one, or sets it where there is none. -/
def combineFilter (selector : Selector) (condition : Condition)
    (combinator : Combinator) : Selector :=
  match selector.condition with
  | some present => selector.filter (present.combine condition combinator)
  | none => selector.filter condition

def shiftBy (selector : Selector) (offset : String) : Selector :=
  { selector with timeshift := some ⟨offset⟩ }

/-- A selector without its shift, which is the form that functions take. -/
def source (selector : Selector) : String :=
  let base := selector.metric.text ++ " FROM '" ++ selector.collection ++ "'"
  match selector.condition with
  | some condition => base ++ " WHERE " ++ condition.text
  | none => base

def shiftText (selector : Selector) : String :=
  match selector.timeshift with
  | some shift => " " ++ shift.text
  | none => ""

def text (selector : Selector) : String :=
  selector.source ++ selector.shiftText

end Selector

end MetricQuery

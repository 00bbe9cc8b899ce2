import MetricQuery.Annotations
import MetricQuery.Selector

/-!
# Expressions

What a query selects: parts, the function calls applied to them, and the
arguments of the calls, which may be parts and calls again. An argument that
names a variable is a reference, looked up when the query is rendered.
-/

set_option autoImplicit false

namespace MetricQuery

mutual

inductive Value where
  | text (text : String)
  | number (x : Float)
  | selector (selector : Selector)
  | call (call : Call)
  | part (part : Part)

inductive Argument where
  /-- The selector that the calls of a part are applied to. -/
  | subject
  | reference (name : String)
  | value (value : Value)

structure Call where
  function : String
  arguments : List Argument

/-- One selectable unit of a query. An excluded part keeps its place but is not
written. -/
structure Part where
  selector : Selector
  call : Option Call
  annotations : Option Annotations
  name : Option String
  excluded : Bool

end

abbrev Variables := Bindings Value

/-- The argument that a text denotes: with a dollar sign in front a reference,
otherwise the text itself. -/
def Argument.ofText (given : String) : Argument :=
  match given.toList with
  | '$' :: name => .reference (String.ofList name)
  | _ => .value (.text given)

namespace Part

def ofSelector (selector : Selector) : Part :=
  ⟨selector, none, none, none, false⟩

/-- Wraps the part in a call; what was there becomes the first argument. -/
def apply (part : Part) (function : String) (arguments : List Argument) : Part :=
  let inner := match part.call with
    | some call => Argument.value (.call call)
    | none => Argument.subject
  { part with call := some ⟨function, inner :: arguments⟩ }

def nameBy (part : Part) (name : String) : Part :=
  { part with name := some name }

def exclude (part : Part) : Part :=
  { part with excluded := true }

def reinstate (part : Part) : Part :=
  { part with excluded := false }

def mapSelector (change : Selector → Selector) (part : Part) : Part :=
  { part with selector := change part.selector }

def annotated (part : Part) : Annotations :=
  part.annotations.getD Annotations.empty

def mapAnnotations (change : Annotations → Annotations) (part : Part) : Part :=
  { part with annotations := some (change part.annotated) }

def tryAnnotations (change : Annotations → Except QueryError Annotations) (part : Part) :
    Except QueryError Part :=
  match change part.annotated with
  | .ok annotations => .ok { part with annotations := some annotations }
  | .error error => .error error

def filter (part : Part) (condition : Condition) : Part :=
  part.mapSelector (·.filter condition)

def combineFilter (part : Part) (condition : Condition) (combinator : Combinator) : Part :=
  part.mapSelector (·.combineFilter condition combinator)

def shiftBy (part : Part) (offset : String) : Part :=
  part.mapSelector (·.shiftBy offset)

def labelBy (part : Part) (label : String) : Part :=
  part.mapAnnotations (·.labelBy label)

def leadWith (part : Part) (lead : List String) : Part :=
  part.mapAnnotations (·.leadWith lead)

def annotateWith (part : Part) (tags : List TagForm) : Except QueryError Part :=
  part.tryAnnotations (·.annotateWith tags)

def annotateWithStatics (part : Part) (fields : Bindings Json) : Except QueryError Part :=
  part.tryAnnotations (·.annotateWithStatics fields)

def annotateWithStatic (part : Part) (key : String) (value : Json) :
    Except QueryError Part :=
  part.tryAnnotations (·.annotateWithStatic key value)

def label? (part : Part) : Option String :=
  part.annotated.label

def tags (part : Part) : List Tag :=
  part.annotated.tags

def lead (part : Part) : List String :=
  part.annotated.lead

end Part

end MetricQuery

import MetricQuery.Document.Reading
import MetricQuery.Selector

/-!
# Documents of selectors

Tags are pairs, metrics are words or lists of segments, and conditions are
objects of an operator `op` and its arguments `args`.
-/

set_option autoImplicit false

namespace MetricQuery

/-! ## Tags -/

namespace Tag

def toJson (tag : Tag) : Json :=
  .array [tag.scope.elim .null .string, .string tag.name]

def ofJson : Json → Decoded Tag
  | .array [scope, name] =>
    match scope.asOptional Json.asString, name.asString with
    | .ok scope, .ok name => .ok (ofPair scope name)
    | _, _ => malformed
  | _ => malformed

end Tag

/-! ## Metrics -/

namespace Metric

def toJson : Metric → Json
  | .all => .string allWord
  | .path segments => .array (segments.map .string)

def ofJson : Json → Decoded Metric
  | .string word => (ofWord word).mapError .metric
  | .array items =>
    match items.mapM Json.asString with
    | .ok segments => (ofSegments segments).mapError .metric
    | .error fault => .error fault
  | _ => malformed

end Metric

/-! ## Conditions -/

namespace Condition

def node (operator : String) (arguments : List Json) : Json :=
  .object [("op", .string operator), ("args", .array arguments)]

def toJson : Condition → Json
  | .equals tag value => node "eq" [tag.toJson, .string value]
  | .differs tag value => node "neq" [tag.toJson, .string value]
  | .present tag => .object [("op", .string "present"), ("args", tag.toJson)]
  | .and left right => node "and" [left.toJson, right.toJson]
  | .or left right => node "or" [left.toJson, right.toJson]
  | .unknown => .object [("op", .string "unknown")]

inductive Operator where
  | equals
  | differs
  | present
  | and
  | or
  | other
  deriving DecidableEq, Repr

def Operator.ofName : String → Operator
  | "eq" => .equals
  | "neq" => .differs
  | "present" => .present
  | "and" => .and
  | "or" => .or
  | _ => .other

/-- The operator that the fields of a condition name. A document has one, and no
more than one list of arguments. Arguments in front of the operator are kept
until it is known, so all of them have to be readable. -/
def operatorOf (fields : List (String × Json)) : Decoded Operator :=
  match fields.filter fun field => field.1 == "op" || field.1 == "args" with
  | [("op", operator)] | [("op", operator), ("args", _)] => operator.asCaseName.map .ofName
  | [("args", arguments), ("op", operator)] =>
    if arguments.isReadable then operator.asCaseName.map .ofName else malformed
  | _ => malformed

mutual

def ofJson : Json → Decoded Condition
  | .array [operator, arguments] =>
    match operator.asCaseName with
    | .ok name => ofArguments (.ofName name) arguments
    | .error fault => .error fault
  | .object fields =>
    match operatorOf fields with
    | .ok operator => ofFields operator fields
    | .error fault => .error fault
  | _ => malformed

def ofFields (operator : Operator) : List (String × Json) → Decoded Condition
  | [] => if operator = .other then .ok .unknown else malformed
  | (name, value) :: rest =>
    if name = "args" then ofArguments operator value else ofFields operator rest

def ofArguments : Operator → Json → Decoded Condition
  | .equals, .array [tag, value] =>
    match Tag.ofJson tag, value.asString with
    | .ok tag, .ok value => .ok (.equals tag value)
    | _, _ => malformed
  | .differs, .array [tag, value] =>
    match Tag.ofJson tag, value.asString with
    | .ok tag, .ok value => .ok (.differs tag value)
    | _, _ => malformed
  | .present, tag => (Tag.ofJson tag).map .present
  | .and, .array [left, right] =>
    match ofJson left, ofJson right with
    | .ok left, .ok right => .ok (.and left right)
    | _, _ => malformed
  | .or, .array [left, right] =>
    match ofJson left, ofJson right with
    | .ok left, .ok right => .ok (.or left right)
    | _, _ => malformed
  | .other, .null => .ok .unknown
  | _, _ => malformed

end

end Condition

/-! ## Shifts and selectors -/

namespace Timeshift

def toJson (shift : Timeshift) : Json :=
  .object [("offset", .string shift.offset)]

def setField (draft : Option String) : String → Json → Decoded (Option String)
  | "offset", value => value.asString.map some
  | _, _ => .ok draft

def ofJson (document : Json) : Decoded Timeshift :=
  match document.asStructure ["offset"] none setField with
  | .ok draft => (required draft).map .mk
  | .error fault => .error fault

end Timeshift

namespace Selector

def toJson (selector : Selector) : Json :=
  .object ([("collection", .string selector.collection), ("metric", selector.metric.toJson)] ++
    Json.optionalField "condition" Condition.toJson selector.condition ++
    Json.optionalField "timeshift" Timeshift.toJson selector.timeshift)

structure Draft where
  collection : Option String := none
  metric : Option Metric := none
  condition : Option Condition := none
  timeshift : Option Timeshift := none

def fieldNames : List String := ["collection", "metric", "condition", "timeshift"]

def setField (draft : Draft) : String → Json → Decoded Draft
  | "collection", value => value.asString.map fun given => { draft with collection := given }
  | "metric", value => (Metric.ofJson value).map fun given => { draft with metric := given }
  | "condition", value =>
    (value.asOptional Condition.ofJson).map fun given => { draft with condition := given }
  | "timeshift", value =>
    (value.asOptional Timeshift.ofJson).map fun given => { draft with timeshift := given }
  | _, _ => .ok draft

def Draft.finish : Draft → Decoded Selector
  | ⟨some collection, some metric, condition, timeshift⟩ =>
    .ok ⟨collection, metric, condition, timeshift⟩
  | _ => malformed

def ofJson (document : Json) : Decoded Selector :=
  match document.asStructure fieldNames {} setField with
  | .ok draft => draft.finish
  | .error fault => .error fault

end Selector

end MetricQuery

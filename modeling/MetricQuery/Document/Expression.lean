import MetricQuery.Document.Selector
import MetricQuery.Expression

/-!
# Documents of expressions

Annotations leave out the fields that are empty; their static fields are an
object of any values, which are kept as they are. Values and arguments are objects
of one field, whose name is their kind; calls and parts are structures.
-/

set_option autoImplicit false

namespace MetricQuery

/-! ## Annotations -/

/-- Named values of any kind; of equal names the last one counts. -/
def Json.asFields : Json → Decoded (Bindings Json)
  | .object fields =>
    if Json.allFieldsReadable fields then .ok (Json.sortedFields ∅ fields) else malformed
  | _ => malformed

namespace Annotations

def staticsField (statics : Bindings Json) : List (String × Json) :=
  if statics.isEmpty then [] else [("static", .object statics.entries)]

def toJson (annotations : Annotations) : Json :=
  .object (Json.optionalField "label" .string annotations.label ++
    Json.listField "tags" Tag.toJson annotations.tags ++
    Json.listField "prefix" .string annotations.lead ++
    staticsField annotations.statics)

def fieldNames : List String := ["label", "tags", "prefix", "static"]

def setField (draft : Annotations) : String → Json → Decoded Annotations
  | "label", value =>
    (value.asOptional Json.asString).map fun given => { draft with label := given }
  | "tags", value => (value.asList Tag.ofJson).map fun given => { draft with tags := given }
  | "prefix", value => (value.asList Json.asString).map fun given => { draft with lead := given }
  | "static", value => value.asFields.map fun given => { draft with statics := given }
  | _, _ => .ok draft

def ofJson (document : Json) : Decoded Annotations :=
  document.asStructure fieldNames empty setField

end Annotations

/-! ## Writing -/

def excludedField : Bool → List (String × Json)
  | true => [("excluded", .bool true)]
  | false => []

mutual

def Value.toJson : Value → Json
  | .text text => .object [("text", .string text)]
  | .number x => .object [("number", Json.ofFloat x)]
  | .selector selector => .object [("selector", selector.toJson)]
  | .call call => .object [("function", call.toJson)]
  | .part part => .object [("part", part.toJson)]

def Argument.toJson : Argument → Json
  | .subject => .string "subject"
  | .reference name => .object [("var", .string name)]
  | .value value => .object [("value", value.toJson)]

def argumentsToJson : List Argument → List Json
  | [] => []
  | argument :: rest => argument.toJson :: argumentsToJson rest

def Call.toJson : Call → Json
  | ⟨function, arguments⟩ =>
    .object [("fun", .string function), ("args", .array (argumentsToJson arguments))]

def Part.toJson : Part → Json
  | ⟨selector, call, annotations, name, excluded⟩ =>
    .object (("selector", selector.toJson) :: (callField call ++
      (Json.optionalField "annotations" Annotations.toJson annotations ++
        (Json.optionalField "name" .string name ++ excludedField excluded))))

def callField : Option Call → List (String × Json)
  | none => []
  | some call => [("fn", call.toJson)]

end

/-! ## Reading -/

structure Call.Draft where
  function : Option String := none
  arguments : Option (List Argument) := none

namespace Call

def fieldNames : List String := ["fun", "args"]

/-- Sets a field; `arguments` reads the list of arguments from the value. -/
def setField (draft : Draft) (name : String) (value : Json)
    (arguments : Unit → Decoded (List Argument)) : Decoded Draft :=
  match name with
  | "fun" => value.asString.map fun given => { draft with function := given }
  | "args" => (arguments ()).map fun given => { draft with arguments := given }
  | _ => .ok draft

def Draft.finish : Draft → Decoded Call
  | ⟨some function, some arguments⟩ => .ok ⟨function, arguments⟩
  | _ => malformed

end Call

structure Part.Draft where
  selector : Option Selector := none
  call : Option Call := none
  annotations : Option Annotations := none
  name : Option String := none
  excluded : Bool := false

namespace Part

def fieldNames : List String := ["selector", "fn", "annotations", "name", "excluded"]

/-- Sets a field; `call` reads a call from the value. -/
def setField (draft : Draft) (name : String) (value : Json)
    (call : Unit → Decoded Call) : Decoded Draft :=
  match name with
  | "selector" => (Selector.ofJson value).map fun given => { draft with selector := given }
  | "fn" =>
    (value.asOptional fun _ => call ()).map fun given => { draft with call := given }
  | "annotations" =>
    (value.asOptional Annotations.ofJson).map fun given => { draft with annotations := given }
  | "name" => (value.asOptional Json.asString).map fun given => { draft with name := given }
  | "excluded" => value.asBool.map fun given => { draft with excluded := given }
  | _ => .ok draft

def Draft.finish : Draft → Decoded Part
  | ⟨some selector, call, annotations, name, excluded⟩ =>
    .ok ⟨selector, call, annotations, name, excluded⟩
  | _ => malformed

end Part

mutual

def Value.ofJson : Json → Decoded Value
  | .object [(kind, content)] =>
    match kind with
    | "text" => content.asString.map .text
    | "number" => content.asFloat.map .number
    | "selector" => (Selector.ofJson content).map .selector
    | "function" => (Call.ofJson content).map .call
    | "part" => (Part.ofJson content).map .part
    | _ => malformed
  | _ => malformed

def Argument.ofJson : Json → Decoded Argument
  | .string name => if name = "subject" then .ok .subject else malformed
  | .object [(kind, content)] =>
    match kind with
    | "subject" =>
      match content with
      | .null => .ok .subject
      | _ => malformed
    | "var" => content.asString.map .reference
    | "value" => (Value.ofJson content).map .value
    | _ => malformed
  | _ => malformed

def argumentsOfJson : List Json → Decoded (List Argument)
  | [] => .ok []
  | item :: rest =>
    match Argument.ofJson item with
    | .error fault => .error fault
    | .ok argument => (argumentsOfJson rest).map (argument :: ·)

def Call.ofJson : Json → Decoded Call
  | .object fields =>
    if Json.repeatsField Call.fieldNames fields then malformed
    else
      match callOfFields {} fields with
      | .ok draft => draft.finish
      | .error fault => .error fault
  | .array [function, .array arguments] =>
    match function.asString, argumentsOfJson arguments with
    | .ok function, .ok arguments => .ok ⟨function, arguments⟩
    | .error fault, _ | _, .error fault => .error fault
  | _ => malformed

def callOfFields (draft : Call.Draft) : List (String × Json) → Decoded Call.Draft
  | [] => .ok draft
  | (name, value) :: rest =>
    match Call.setField draft name value (fun _ =>
        match value with
        | .array items => argumentsOfJson items
        | _ => malformed) with
    | .ok draft => callOfFields draft rest
    | .error fault => .error fault

def Part.ofJson : Json → Decoded Part
  | .object fields =>
    if Json.repeatsField Part.fieldNames fields then malformed
    else
      match partOfFields {} fields with
      | .ok draft => draft.finish
      | .error fault => .error fault
  | .array items =>
    if Part.fieldNames.length < items.length then malformed
    else
      match partOfItems {} Part.fieldNames items with
      | .ok draft => draft.finish
      | .error fault => .error fault
  | _ => malformed

def partOfFields (draft : Part.Draft) : List (String × Json) → Decoded Part.Draft
  | [] => .ok draft
  | (name, value) :: rest =>
    match Part.setField draft name value (fun _ => Call.ofJson value) with
    | .ok draft => partOfFields draft rest
    | .error fault => .error fault

def partOfItems (draft : Part.Draft) : List String → List Json → Decoded Part.Draft
  | name :: names, value :: rest =>
    match Part.setField draft name value (fun _ => Call.ofJson value) with
    | .ok draft => partOfItems draft names rest
    | .error fault => .error fault
  | _, _ => .ok draft

end

end MetricQuery

import MetricQuery.Error
import MetricQuery.Json.Reader

/-!
# Reading documents

How JSON values become values of the library. A structure is an object, or a
list of its fields in the order of their declaration; unknown fields are
ignored, and where several fields are wrong the first one counts.
-/

set_option autoImplicit false

namespace MetricQuery

abbrev Decoded (α : Type) := Except DecodeFault α

def malformed {α : Type} : Decoded α := .error .malformed

/-- A part of a structure that has to be there. -/
def required {α : Type} : Option α → Decoded α
  | some value => .ok value
  | none => malformed

namespace Json

def asString : Json → Decoded String
  | .string text => .ok text
  | _ => malformed

def asBool : Json → Decoded Bool
  | .bool value => .ok value
  | _ => malformed

/-- An integer of 64 signed bits; a number with a fraction or exponent is none. -/
def asInteger : Json → Decoded Int
  | .number (.integer n) =>
    if Text.minSigned64 ≤ n && n ≤ Text.maxSigned64 then .ok n else malformed
  | _ => malformed

def asFloat : Json → Decoded Float
  | .number n => .ok n.toFloat
  | _ => malformed

def asOptional {α : Type} (read : Json → Decoded α) : Json → Decoded (Option α)
  | .null => .ok none
  | value => (read value).map some

def asList {α : Type} (read : Json → Decoded α) : Json → Decoded (List α)
  | .array items => items.mapM read
  | _ => malformed

/-- The bare name of a case without contents, or an object from it to `null`. -/
def asCaseName : Json → Decoded String
  | .string name => .ok name
  | .object [(name, .null)] => .ok name
  | _ => malformed

/-- Whether one of the known names occurs twice among fields. -/
def repeatsField (known : List String) : List (String × Json) → Bool
  | [] => false
  | (name, _) :: rest =>
    (known.contains name && rest.any fun field => field.1 == name) || repeatsField known rest

/-- The fields of a structure with known names, in the order in which they are
read. -/
def structureFields (known : List String) : Json → Decoded (List (String × Json))
  | .object fields => if repeatsField known fields then malformed else .ok fields
  | .array items => if known.length < items.length then malformed else .ok (known.zip items)
  | _ => malformed

def asStructure {α : Type} (known : List String) (draft : α)
    (set : α → String → Json → Decoded α) (document : Json) : Decoded α :=
  match structureFields known document with
  | .ok fields => fields.foldlM (fun draft field => set draft field.1 field.2) draft
  | .error fault => .error fault

def ofText {α : Type} (read : Json → Decoded α) (text : String) : Decoded α :=
  match read? text with
  | some document => read document
  | none => malformed

def optionalField {α : Type} (name : String) (write : α → Json) :
    Option α → List (String × Json)
  | some value => [(name, write value)]
  | none => []

def listField {α : Type} (name : String) (write : α → Json) :
    List α → List (String × Json)
  | [] => []
  | values => [(name, .array (values.map write))]

/-- A floating-point number, for which `null` stands where JSON has no text. -/
def ofFloat (x : Float) : Json :=
  if x.isFinite then .number (.real x) else .null

end Json

end MetricQuery

import MetricQuery.Bindings
import MetricQuery.Text.Character

/-!
# JSON values

The tree of a JSON document. Fields stand in the order of the document, and a
name may occur more than once; `sorted` brings them into the one order that a
value without document has.
-/

set_option autoImplicit false

namespace MetricQuery

/-- A number keeps whether it was written as an integer. -/
inductive JsonNumber where
  | integer (n : Int)
  | real (x : Float)
  deriving DecidableEq

namespace JsonNumber

def nearest (n : Nat) : Float :=
  (UInt64.ofNat n).toFloat

def toFloat : JsonNumber → Float
  | .integer (.ofNat n) => nearest n
  | .integer (.negSucc n) => -(nearest (n + 1))
  | .real x => x

end JsonNumber

inductive Json where
  | null
  | bool (value : Bool)
  | number (value : JsonNumber)
  | string (value : String)
  | array (items : List Json)
  | object (fields : List (String × Json))
  /-- Well-formed text that stands for no value: a number beyond the
  floating-point range, an escape for half a character, or a value nested deeper
  than the reader allows. It does no harm where it is not looked at. -/
  | unreadable

namespace Json

mutual

def isReadable : Json → Bool
  | .null | .bool _ | .number _ | .string _ => true
  | .array items => allReadable items
  | .object fields => allFieldsReadable fields
  | .unreadable => false

def allReadable : List Json → Bool
  | [] => true
  | item :: rest => item.isReadable && allReadable rest

def allFieldsReadable : List (String × Json) → Bool
  | [] => true
  | (_, value) :: rest => value.isReadable && allFieldsReadable rest

end

mutual

/-- The fields of every object in the order of their names; of equal names the
last field stays. -/
def sorted : Json → Json
  | .array items => .array (sortedItems items)
  | .object fields => .object (sortedFields ∅ fields).entries
  | .null => .null
  | .bool value => .bool value
  | .number value => .number value
  | .string value => .string value
  | .unreadable => .unreadable

def sortedItems : List Json → List Json
  | [] => []
  | item :: rest => item.sorted :: sortedItems rest

def sortedFields (held : Bindings Json) : List (String × Json) → Bindings Json
  | [] => held
  | (name, value) :: rest => sortedFields (held.insert name value.sorted) rest

end

def field? (name : String) : Json → Option Json
  | .object fields => fields.lookup name
  | _ => none

end Json

end MetricQuery

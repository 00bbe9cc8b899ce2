import MetricQuery.Decimal.Layout
import MetricQuery.Json.Value

/-!
# Writing JSON

The compact text of a value, and the text with one line per item.
-/

set_option autoImplicit false

namespace MetricQuery

namespace Json

def hexDigit (n : Nat) : Char :=
  Nat.digitChar n

def escapeChar (c : Char) : List Char :=
  match c with
  | '"' => ['\\', '"']
  | '\\' => ['\\', '\\']
  | '\x08' => ['\\', 'b']
  | '\x0c' => ['\\', 'f']
  | '\n' => ['\\', 'n']
  | '\r' => ['\\', 'r']
  | '\t' => ['\\', 't']
  | _ =>
    if c.toNat < 0x20 then
      ['\\', 'u', '0', '0', hexDigit (c.toNat / 16), hexDigit (c.toNat % 16)]
    else [c]

def writeString (text : String) : String :=
  "\"" ++ String.ofList (text.toList.flatMap escapeChar) ++ "\""

def writeInt : Int → String
  | .ofNat n => String.ofList (Text.digits n)
  | .negSucc n => "-" ++ String.ofList (Text.digits (n + 1))

def writeNumber : JsonNumber → String
  | .integer n => writeInt n
  | .real x => writeFloat jsonLayout x

mutual

/-- The text of a value without blanks. An unreadable part, which no value that
is written has, would be `null`. -/
def compact : Json → String
  | .null | .unreadable => "null"
  | .bool true => "true"
  | .bool false => "false"
  | .number n => writeNumber n
  | .string text => writeString text
  | .array [] => "[]"
  | .array (item :: rest) => "[" ++ item.compact ++ compactItems rest ++ "]"
  | .object [] => "\x7b\x7d"
  | .object ((name, value) :: rest) =>
    "\x7b" ++ writeString name ++ ":" ++ value.compact ++ compactFields rest ++ "\x7d"

def compactItems : List Json → String
  | [] => ""
  | item :: rest => "," ++ item.compact ++ compactItems rest

def compactFields : List (String × Json) → String
  | [] => ""
  | (name, value) :: rest =>
    "," ++ writeString name ++ ":" ++ value.compact ++ compactFields rest

end

def newLine (level : Nat) : String :=
  "\n" ++ String.ofList (List.replicate (2 * level) ' ')

mutual

def indented (level : Nat) : Json → String
  | .null | .unreadable => "null"
  | .bool true => "true"
  | .bool false => "false"
  | .number n => writeNumber n
  | .string text => writeString text
  | .array [] => "[]"
  | .array (item :: rest) =>
    "[" ++ newLine (level + 1) ++ item.indented (level + 1) ++ indentedItems (level + 1) rest ++
      newLine level ++ "]"
  | .object [] => "\x7b\x7d"
  | .object ((name, value) :: rest) =>
    "\x7b" ++ newLine (level + 1) ++ writeString name ++ ": " ++ value.indented (level + 1) ++
      indentedFields (level + 1) rest ++ newLine level ++ "\x7d"

def indentedItems (level : Nat) : List Json → String
  | [] => ""
  | item :: rest => "," ++ newLine level ++ item.indented level ++ indentedItems level rest

def indentedFields (level : Nat) : List (String × Json) → String
  | [] => ""
  | (name, value) :: rest =>
    "," ++ newLine level ++ writeString name ++ ": " ++ value.indented level ++
      indentedFields level rest

end

end Json

end MetricQuery

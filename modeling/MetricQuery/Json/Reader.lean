import MetricQuery.Json.Value

/-!
# Reading JSON

Strict JSON texts: nothing but blanks after the document, no leading zeros, no
trailing commas, no raw control characters in strings. Whether a part stands
for a value is a separate question from whether it is well formed; a part that
does not becomes `Json.unreadable`.

A number literal is an integer if it has neither fraction nor exponent and fits
64 bits. Any other literal is scaled: its first digits, as many as fit 64 bits,
are multiplied or divided by one power of ten in floating-point arithmetic, and
the digits after them only count as places.
-/

set_option autoImplicit false

namespace MetricQuery

/-! ## Number literals -/

/-- The parts of a number literal. `power` is missing where no exponent is
written, and `fraction` is empty where no point is. -/
structure NumberLiteral where
  negative : Bool
  whole : List Char
  fraction : List Char
  power : Option Int

namespace NumberLiteral

/-- Reads on a number while it fits 64 bits, and returns the digits left over. -/
def absorb (start : Nat) : List Char → Nat × List Char
  | [] => (start, [])
  | digit :: rest =>
    let next := 10 * start + Text.digitValue digit
    if next ≤ Text.maxUnsigned64 then absorb next rest else (start, digit :: rest)

def tenTo (power : Nat) : Float :=
  Float.ofScientific 1 false power

def dividedByTens : (fuel : Nat) → Float → (power : Nat) → Float
  | 0, x, _ => x
  | fuel + 1, x, power =>
    if power ≤ 308 then x / tenTo power
    else if x == 0 then x
    else dividedByTens fuel (x / tenTo 308) (power - 308)

/-- `significand * 10 ^ power`, unless that is beyond the floating-point range. -/
def scaled? (significand : Nat) : Int → Option Float
  | .ofNat power =>
    let x := JsonNumber.nearest significand
    if significand = 0 then some x
    else if 308 < power then none
    else
      let product := x * tenTo power
      if product.isInf then none else some product
  | .negSucc power =>
    some (dividedByTens 3 (JsonNumber.nearest significand) (power + 1))

def magnitude? (literal : NumberLiteral) : Option Float :=
  let (leading, left) := absorb 0 literal.whole
  let (significand, ignored) := absorb leading literal.fraction
  let places : Int := (literal.fraction.length : Int) - ignored.length
  scaled? significand (literal.power.getD 0 + left.length - places)

def number? (literal : NumberLiteral) : Option JsonNumber :=
  let isWhole := literal.fraction.isEmpty && literal.power.isNone
  let n := Text.readDigits 0 literal.whole
  if isWhole && n ≤ Text.maxUnsigned64 && !literal.negative then some (.integer n)
  else if isWhole && n ≠ 0 && Text.minSigned64 ≤ -(n : Int) then some (.integer (-n))
  else
    match literal.magnitude? with
    | none => none
    | some x => some (.real (if literal.negative then -x else x))

end NumberLiteral

/-! ## Blanks -/

namespace Json

def isSpace (c : Char) : Bool :=
  c == ' ' || c == '\n' || c == '\t' || c == '\r'

def skipSpace (text : List Char) : List Char :=
  text.dropWhile isSpace

/-! ## Strings -/

/-- What one place of a string literal holds: a character, or the 16-bit unit of
an escape, which may be half of a character. -/
inductive StringUnit where
  | char (c : Char)
  | code (n : Nat)

def hexValue? (c : Char) : Option Nat :=
  if c.isDigit then some (c.toNat - '0'.toNat)
  else if 'a' ≤ c && c ≤ 'f' then some (c.toNat - 'a'.toNat + 10)
  else if 'A' ≤ c && c ≤ 'F' then some (c.toNat - 'A'.toNat + 10)
  else none

def hexCode? (a b c d : Char) : Option Nat := do
  let a ← hexValue? a
  let b ← hexValue? b
  let c ← hexValue? c
  let d ← hexValue? d
  some (((a * 16 + b) * 16 + c) * 16 + d)

def escaped? : Char → Option Char
  | '"' => some '"'
  | '\\' => some '\\'
  | '/' => some '/'
  | 'b' => some '\x08'
  | 'f' => some '\x0c'
  | 'n' => some '\n'
  | 'r' => some '\r'
  | 't' => some '\t'
  | _ => none

def readUnits : List Char → Option (List StringUnit × List Char)
  | [] => none
  | '"' :: rest => some ([], rest)
  | '\\' :: 'u' :: a :: b :: c :: d :: rest =>
    match hexCode? a b c d, readUnits rest with
    | some n, some (units, rest) => some (.code n :: units, rest)
    | _, _ => none
  | '\\' :: c :: rest =>
    match escaped? c, readUnits rest with
    | some c, some (units, rest) => some (.char c :: units, rest)
    | _, _ => none
  | c :: rest =>
    if c.toNat < 0x20 then none
    else
      match readUnits rest with
      | some (units, rest) => some (.char c :: units, rest)
      | none => none

def isHighHalf (n : Nat) : Bool :=
  0xD800 ≤ n && n ≤ 0xDBFF

def isLowHalf (n : Nat) : Bool :=
  0xDC00 ≤ n && n ≤ 0xDFFF

/-- The characters of a string literal, unless half a character stands alone. -/
def joinUnits : List StringUnit → Option (List Char)
  | [] => some []
  | .char c :: rest =>
    match joinUnits rest with
    | some text => some (c :: text)
    | none => none
  | .code high :: .code low :: rest =>
    if isHighHalf high then
      if isLowHalf low then
        match joinUnits rest with
        | some text =>
          some (Char.ofNat (0x10000 + (high - 0xD800) * 0x400 + (low - 0xDC00)) :: text)
        | none => none
      else none
    else if isLowHalf high then none
    else
      match joinUnits (.code low :: rest) with
      | some text => some (Char.ofNat high :: text)
      | none => none
  | .code n :: rest =>
    if isHighHalf n || isLowHalf n then none
    else
      match joinUnits rest with
      | some text => some (Char.ofNat n :: text)
      | none => none

/-! ## Numbers -/

def readRun (text : List Char) : Option (List Char × List Char) :=
  match text.span Char.isDigit with
  | ([], _) => none
  | (digits, rest) => some (digits, rest)

def readWhole (text : List Char) : Option (List Char × List Char) :=
  match readRun text with
  | some ('0' :: _ :: _, _) => none
  | other => other

def readFraction : List Char → Option (List Char × List Char)
  | '.' :: rest => readRun rest
  | text => some ([], text)

def readSignedPower (text : List Char) : Option (Int × List Char) :=
  match text with
  | '-' :: rest =>
    match readRun rest with
    | some (digits, rest) => some (-(Text.readDigits 0 digits : Int), rest)
    | none => none
  | _ =>
    let unsigned := match text with
      | '+' :: rest => rest
      | _ => text
    match readRun unsigned with
    | some (digits, rest) => some ((Text.readDigits 0 digits : Int), rest)
    | none => none

def readPower (text : List Char) : Option (Option Int × List Char) :=
  match text with
  | 'e' :: rest | 'E' :: rest =>
    match readSignedPower rest with
    | some (power, rest) => some (some power, rest)
    | none => none
  | _ => some (none, text)

def readLiteral (text : List Char) : Option (NumberLiteral × List Char) := do
  let (negative, text) := match text with
    | '-' :: rest => (true, rest)
    | _ => (false, text)
  let (whole, text) ← readWhole text
  let (fraction, text) ← readFraction text
  let (power, text) ← readPower text
  some (⟨negative, whole, fraction, power⟩, text)

/-! ## Values -/

def ofUnits (units : List StringUnit) : Json :=
  match joinUnits units with
  | some text => .string (String.ofList text)
  | none => .unreadable

def ofLiteral (literal : NumberLiteral) : Json :=
  match literal.number? with
  | some n => .number n
  | none => .unreadable

/-- A list or an object counts only where there is room for one more level. -/
def ifRoom (room : Nat) (value : Json) : Json :=
  if room = 0 then .unreadable else value

mutual

/-- One value and the text behind it. `room` is the number of levels that may
still be opened; the fuel bounds the recursion. -/
def readValue : (fuel room : Nat) → List Char → Option (Json × List Char)
  | 0, _, _ => none
  | fuel + 1, room, text =>
    match skipSpace text with
    | [] => none
    | 'n' :: 'u' :: 'l' :: 'l' :: rest => some (.null, rest)
    | 't' :: 'r' :: 'u' :: 'e' :: rest => some (.bool true, rest)
    | 'f' :: 'a' :: 'l' :: 's' :: 'e' :: rest => some (.bool false, rest)
    | '"' :: rest =>
      match readUnits rest with
      | some (units, rest) => some (ofUnits units, rest)
      | none => none
    | '[' :: rest =>
      match skipSpace rest with
      | ']' :: rest => some (ifRoom room (.array []), rest)
      | rest =>
        match readItems fuel (room - 1) rest with
        | some (items, rest) => some (ifRoom room (.array items), rest)
        | none => none
    | '\x7b' :: rest =>
      match skipSpace rest with
      | '\x7d' :: rest => some (ifRoom room (.object []), rest)
      | rest =>
        match readFields fuel (room - 1) rest with
        | some (some fields, rest) => some (ifRoom room (.object fields), rest)
        | some (none, rest) => some (.unreadable, rest)
        | none => none
    | rest =>
      match readLiteral rest with
      | some (literal, rest) => some (ofLiteral literal, rest)
      | none => none

def readItems : (fuel room : Nat) → List Char → Option (List Json × List Char)
  | 0, _, _ => none
  | fuel + 1, room, text =>
    match readValue fuel room text with
    | none => none
    | some (item, rest) =>
      match skipSpace rest with
      | ']' :: rest => some ([item], rest)
      | ',' :: rest =>
        match readItems fuel room rest with
        | some (items, rest) => some (item :: items, rest)
        | none => none
      | _ => none

/-- The fields of an object up to its closing brace; no fields where a name is
unreadable. -/
def readFields : (fuel room : Nat) → List Char →
    Option (Option (List (String × Json)) × List Char)
  | 0, _, _ => none
  | fuel + 1, room, text =>
    match skipSpace text with
    | '"' :: rest =>
      match readUnits rest with
      | none => none
      | some (units, rest) =>
        match skipSpace rest with
        | ':' :: rest =>
          match readValue fuel room rest with
          | none => none
          | some (value, rest) =>
            match skipSpace rest with
            | '\x7d' :: rest =>
              match joinUnits units with
              | some name => some (some [(String.ofList name, value)], rest)
              | none => some (none, rest)
            | ',' :: rest =>
              match readFields fuel room rest, joinUnits units with
              | some (some fields, rest), some name =>
                some (some ((String.ofList name, value) :: fields), rest)
              | some (_, rest), _ => some (none, rest)
              | none, _ => none
            | _ => none
        | _ => none
    | _ => none

end

/-- The document that a text holds, with at most `room` levels. -/
def readWithin? (room : Nat) (text : String) : Option Json :=
  let characters := text.toList
  match readValue (2 * characters.length + 2) room characters with
  | some (value, rest) => if (skipSpace rest).isEmpty then some value else none
  | none => none

def textLevels : Nat := 127

def read? (text : String) : Option Json :=
  readWithin? textLevels text

/-- The value that a text describes, with any number of levels. -/
def readDeep? (text : String) : Option Json :=
  (readWithin? text.length text).map sorted

end Json

end MetricQuery

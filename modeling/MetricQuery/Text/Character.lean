/-!
# Characters

Natural numbers as ASCII digits and the reading of digits back, the characters
that are blank, and the escapes that stand in messages for characters that would
not show.
-/

set_option autoImplicit false

namespace MetricQuery

namespace Text

/-! ## Digits -/

def digitValue (c : Char) : Nat :=
  c.toNat - '0'.toNat

/-- Reads on a number, most significant digit first. -/
def readDigits (start : Nat) (digits : List Char) : Nat :=
  digits.foldl (fun total c => 10 * total + digitValue c) start

/-- The number that a non-empty run of ASCII digits denotes. -/
def natural? (text : List Char) : Option Nat :=
  if text.isEmpty || !text.all Char.isDigit then none
  else some (readDigits 0 text)

/-- As `natural?`, with an optional plus sign in front and a greatest value. -/
def unsigned? (limit : Nat) (text : List Char) : Option Nat :=
  let digits := match text with
    | '+' :: rest => rest
    | _ => text
  match natural? digits with
  | none => none
  | some n => if n ≤ limit then some n else none

def digits (n : Nat) : List Char :=
  Nat.toDigits 10 n

def paddedDigits (width n : Nat) : List Char :=
  let shown := digits n
  List.replicate (width - shown.length) '0' ++ shown

def maxUnsigned64 : Nat := 18446744073709551615

def maxSigned64 : Int := 9223372036854775807

def minSigned64 : Int := -9223372036854775808

/-! ## Blanks -/

/-- The characters with the White_Space property. -/
def isBlank (c : Char) : Bool :=
  let code := c.toNat
  (9 ≤ code && code ≤ 13) || code == 0x20 || code == 0x85 || code == 0xA0 ||
    code == 0x1680 || (0x2000 ≤ code && code ≤ 0x200A) || code == 0x2028 ||
    code == 0x2029 || code == 0x202F || code == 0x205F || code == 0x3000

def dropBlanks (text : List Char) : List Char :=
  text.dropWhile isBlank

/-- A text without the blanks at its two ends. -/
def trim (text : List Char) : List Char :=
  (dropBlanks (dropBlanks text).reverse).reverse

def trimmed (text : String) : String :=
  String.ofList (trim text.toList)

/-! ## Escapes -/

/-- Characters that have no visible form of their own: controls, format
characters, surrogate neighbours and private use. -/
def isInvisible (c : Char) : Bool :=
  let code := c.toNat
  code < 0x20 || (0x7F ≤ code && code < 0xA0) || code == 0xAD ||
    (0x0300 ≤ code && code ≤ 0x036F) || (0x200B ≤ code && code ≤ 0x200F) ||
    (0x2028 ≤ code && code ≤ 0x202E) || (0x2060 ≤ code && code ≤ 0x206F) ||
    code == 0xFEFF || (0xE000 ≤ code && code ≤ 0xF8FF) ||
    code == 0xFFFE || code == 0xFFFF || 0xE0000 ≤ code ||
    (code != 0x20 && (code == 0xA0 || code == 0x1680 ||
      (0x2000 ≤ code && code ≤ 0x200A) || code == 0x202F || code == 0x205F ||
      code == 0x3000))

def escapeShownChar (c : Char) : List Char :=
  match c with
  | '\x00' => ['\\', '0']
  | '\t' => ['\\', 't']
  | '\r' => ['\\', 'r']
  | '\n' => ['\\', 'n']
  | '"' => ['\\', '"']
  | '\\' => ['\\', '\\']
  | _ =>
    if isInvisible c then
      ['\\', 'u', '\x7b'] ++ Nat.toDigits 16 c.toNat ++ ['\x7d']
    else [c]

def quoteText (text : String) : String :=
  "\"" ++ String.ofList (text.toList.flatMap escapeShownChar) ++ "\""

/-- One character of a quoted file name, in which single quotes are escaped too. -/
def escapeNameChar (c : Char) : List Char :=
  if c = '\'' then ['\\', '\''] else escapeShownChar c

def quoteName (name : String) : String :=
  "\"" ++ String.ofList (name.toList.flatMap escapeNameChar) ++ "\""

end Text

end MetricQuery

import MetricQuery.Error
import MetricQuery.Text.Character
import MetricQuery.Time.Instant

/-!
# Reading times

Three notations of a point in time. Internet timestamps have fields of fixed
width and an offset. Plain times have no offset and are taken as UTC; their
fields may have fewer digits and blanks in front. Documents allow timestamps
with the freedom of plain times.
-/

set_option autoImplicit false

namespace MetricQuery

namespace TimeReader

/-- What a reader of a text returns: a value and the text behind it. -/
abbrev Reader (α : Type) := List Char → Option (α × List Char)

/-- Up to `most` digits as a number, and at least `least`; `none` sets no upper
bound. -/
def readNumber (least : Nat) (most : Option Nat) : Reader Nat := fun text =>
  let run := text.takeWhile Char.isDigit
  let taken := match most with
    | some most => run.take most
    | none => run
  if taken.length < least then none
  else some (Text.readDigits 0 taken, text.drop taken.length)

def readChar (expected : Char) : List Char → Option (List Char)
  | c :: rest => if c = expected then some rest else none
  | [] => none

/-! ## Fields -/

def readFixed (width : Nat) : Reader Nat :=
  readNumber width (some width)

/-- A field of one or two digits, after blanks. -/
def readShort : Reader Nat := fun text =>
  readNumber 1 (some 2) (Text.dropBlanks text)

/-- A year after blanks: up to four digits, or any number of them after a sign. -/
def readYear : Reader Int := fun text =>
  match Text.dropBlanks text with
  | '-' :: rest => do
    let (year, rest) ← readNumber 1 none rest
    some (-(year : Int), rest)
  | '+' :: rest => do
    let (year, rest) ← readNumber 1 none rest
    some ((year : Int), rest)
  | rest => do
    let (year, rest) ← readNumber 1 (some 4) rest
    some ((year : Int), rest)

/-- Nanoseconds from the digits of a fraction; digits after the ninth are
dropped. -/
def readNanos : Reader Nat := fun text => do
  let run := text.takeWhile Char.isDigit
  let shown := run.take 9
  if shown.isEmpty then none
  else some (Text.readDigits 0 shown * Nat.pow 10 (9 - shown.length), text.drop run.length)

def readFraction : Reader Nat := fun text =>
  match text with
  | '.' :: rest => readNanos rest
  | _ => some (0, text)

def readSeparator : List Char → Option (List Char)
  | 'T' :: rest | 't' :: rest | ' ' :: rest => some rest
  | _ => none

/-- The sign of an offset, which may be a hyphen or a minus sign. -/
def readSign : Reader Int := fun text =>
  match text with
  | '+' :: rest => some (1, rest)
  | '-' :: rest => some (-1, rest)
  | c :: rest => if c.toNat = 0x2212 then some (-1, rest) else none
  | [] => none

/-- Seconds of an offset: a Z, or hours and minutes with `readGap` between. -/
def readOffset (readGap : List Char → Option (List Char)) : Reader Int := fun text =>
  match text with
  | 'Z' :: rest | 'z' :: rest => some (0, rest)
  | _ => do
    let (sign, text) ← readSign text
    let (hours, text) ← readFixed 2 text
    let text ← readGap text
    let (minutes, text) ← readFixed 2 text
    if 59 < minutes then none
    else some (sign * (hours * 3600 + minutes * 60 : Nat), text)

/-! ## Notations -/

def greatestOffset : Int := (23 * 60 + 59) * 60

def timestamp? (text : List Char) : Option Instant := do
  let (year, text) ← readFixed 4 text
  let text ← readChar '-' text
  let (month, text) ← readFixed 2 text
  let text ← readChar '-' text
  let (day, text) ← readFixed 2 text
  let text ← readSeparator text
  let (hour, text) ← readFixed 2 text
  let text ← readChar ':' text
  let (minute, text) ← readFixed 2 text
  let text ← readChar ':' text
  let (second, text) ← readFixed 2 text
  let (nanos, text) ← readFraction text
  let (offset, text) ← readOffset (readChar ':') text
  if !text.isEmpty || greatestOffset < offset.natAbs then none
  else Instant.ofClock? ⟨⟨year, month, day⟩, hour, minute, second, nanos⟩ offset

/-- A date, with blanks in front of its hyphens where `gap` drops them. -/
def readDate (gap : List Char → List Char) : Reader Date := fun text => do
  let (year, text) ← readYear text
  let text ← readChar '-' (gap text)
  let (month, text) ← readShort text
  let text ← readChar '-' (gap text)
  let (day, text) ← readShort text
  some (⟨year, month, day⟩, text)

def readMinutes (gap : List Char → List Char) : Reader (Nat × Nat) := fun text => do
  let (hour, text) ← readShort text
  let text ← readChar ':' (gap text)
  let (minute, text) ← readShort text
  some ((hour, minute), text)

def readSeconds (gap : List Char → List Char) : Reader (Nat × Nat × Nat) := fun text => do
  let ((hour, minute), text) ← readMinutes gap text
  let text ← readChar ':' (gap text)
  let (second, text) ← readShort text
  some ((hour, minute, second), text)

/-- A plain date with a time to the second. -/
def plainSeconds? (text : List Char) : Option Instant := do
  let (date, text) ← readDate id text
  let ((hour, minute, second), text) ← readSeconds id (Text.dropBlanks text)
  if text.isEmpty then Instant.ofClock? ⟨date, hour, minute, second, 0⟩ 0 else none

/-- A plain date with a time to the minute. -/
def plainMinutes? (text : List Char) : Option Instant := do
  let (date, text) ← readDate id text
  let ((hour, minute), text) ← readMinutes id (Text.dropBlanks text)
  if text.isEmpty then Instant.ofClock? ⟨date, hour, minute, 0, 0⟩ 0 else none

/-- A plain date, which stands for its midnight. -/
def plainDate? (text : List Char) : Option Instant := do
  let (date, text) ← readDate id text
  if text.isEmpty then Instant.ofClock? ⟨date, 0, 0, 0, 0⟩ 0 else none

def dropColons (text : List Char) : List Char :=
  text.dropWhile fun c => c == ':' || Text.isBlank c

def readNamedOffset : Reader Int := fun text =>
  match text with
  | u :: t :: c :: rest =>
    if [u, t, c].map Char.toUpper = ['U', 'T', 'C'] then some (0, rest)
    else readOffset (some ∘ dropColons) text
  | _ => readOffset (some ∘ dropColons) text

def documentTime? (text : List Char) : Option Instant := do
  let (date, text) ← readDate Text.dropBlanks text
  let text ← readSeparator text
  let ((hour, minute, second), text) ← readSeconds Text.dropBlanks text
  let (nanos, text) ← readFraction text
  let (offset, text) ← readNamedOffset (Text.dropBlanks text)
  if !(Text.dropBlanks text).isEmpty || Instant.secondsInDay ≤ offset.natAbs then none
  else Instant.ofClock? ⟨date, hour, minute, second, nanos⟩ offset

end TimeReader

namespace Instant

/-- The instant that a text denotes: an Internet timestamp, or else a plain date
with or without time. -/
def parse (given : String) : Except QueryError Instant :=
  let text := Text.trim given.toList
  match TimeReader.timestamp? text <|> TimeReader.plainSeconds? text <|>
      TimeReader.plainMinutes? text <|> TimeReader.plainDate? text with
  | some instant => .ok instant
  | none => .error (.invalidTime (String.ofList text))

def ofDocument? (text : String) : Option Instant :=
  TimeReader.documentTime? text.toList

end Instant

end MetricQuery

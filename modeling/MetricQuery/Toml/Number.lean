import MetricQuery.Time.Instant
import MetricQuery.Toml.Quoted

/-!
# Numbers and times of TOML

Integers in four bases, floating-point numbers, dates and times. Digits may be
separated by single underscores. A value that starts like a date is one.
-/

set_option autoImplicit false

namespace MetricQuery.Toml

/-! ## Digits -/

def moreDigits (isDigit : Char → Bool) : Reader (List Char)
  | '_' :: c :: rest =>
    if isDigit c then prependChar c (moreDigits isDigit rest)
    else .error ((Fault.here (c :: rest)).expecting ["digit"]).firm
  | ['_'] => .error ((Fault.here []).expecting ["digit"]).firm
  | c :: rest =>
    if isDigit c then prependChar c (moreDigits isDigit rest) else .ok ([], c :: rest)
  | [] => .ok ([], [])

def someDigits (isDigit : Char → Bool) : Reader (List Char)
  | c :: rest =>
    if isDigit c then prependChar c (moreDigits isDigit rest)
    else .error ((Fault.here (c :: rest)).expecting ["digit"])
  | [] => .error ((Fault.here []).expecting ["digit"])

def readSign : List Char → Bool × List Char
  | '-' :: rest => (true, rest)
  | '+' :: rest => (false, rest)
  | text => (false, text)

def wholeDigits : Reader (List Char)
  | '0' :: rest => .ok (['0'], rest)
  | text => someDigits Char.isDigit text

def ofDigits (base : Nat) (digits : List Char) : Nat :=
  digits.foldl (fun total c => total * base + (Json.hexValue? c).getD 0) 0

/-! ## Integers -/

def tooLarge (text : List Char) : Fault :=
  Fault.because (Fault.here text).span "number too large to fit in target type"

def tooSmall (text : List Char) : Fault :=
  Fault.because (Fault.here text).span "number too small to fit in target type"

def inRange (text : List Char) (n : Int) (rest : List Char) : Except Fault (Int × List Char) :=
  if Text.maxSigned64 < n then .error (tooLarge text)
  else if n < Text.minSigned64 then .error (tooSmall text)
  else .ok (n, rest)

def basedInteger (base : Nat) (label : String) (isDigit : Char → Bool) (text : List Char) :
    Reader Int := fun digits =>
  match someDigits isDigit digits with
  | .error fault => .error (fault.within label).firm
  | .ok (shown, rest) => inRange text (ofDigits base shown) rest

def isOctal (c : Char) : Bool := '0' ≤ c && c ≤ '7'

def isBinary (c : Char) : Bool := c == '0' || c == '1'

def isHexadecimal (c : Char) : Bool := (Json.hexValue? c).isSome

def readInteger : Reader Int := fun text =>
  match text with
  | '0' :: 'x' :: rest => basedInteger 16 "hexadecimal integer" isHexadecimal text rest
  | '0' :: 'o' :: rest => basedInteger 8 "octal integer" isOctal text rest
  | '0' :: 'b' :: rest => basedInteger 2 "binary integer" isBinary text rest
  | _ =>
    let (negative, digits) := readSign text
    match wholeDigits digits with
    | .error fault => .error (fault.within "integer")
    | .ok (shown, rest) =>
      let n : Int := ofDigits 10 shown
      (inRange text (if negative then -n else n) rest).mapError (·.within "integer")

/-! ## Floating-point numbers -/

/-- The number with the given digits, moved by so many decimal places. Beyond 400
places the digits do not matter. -/
def floatOf (digits : List Char) (power : Int) : Float :=
  let significand := ofDigits 10 digits
  let size : Int := (Text.digits significand).length + power
  if significand = 0 || size < -400 then 0.0
  else if 400 < size then 1.0 / 0.0
  else Float.ofScientific significand (power < 0) power.natAbs

def readExponent (text : List Char) : Except Fault (Option Int × List Char) :=
  match text with
  | 'e' :: rest | 'E' :: rest =>
    let (negative, digits) := readSign rest
    match someDigits Char.isDigit digits with
    | .error fault => .error fault.firm
    | .ok (shown, rest) =>
      let power : Int := ofDigits 10 shown
      .ok (some (if negative then -power else power), rest)
  | _ => .ok (none, text)

def readFraction (text : List Char) : Except Fault (Option (List Char) × List Char) :=
  match text with
  | '.' :: rest =>
    match someDigits Char.isDigit rest with
    | .error fault => .error fault.firm
    | .ok (shown, rest) => .ok (some shown, rest)
  | _ => .ok (none, text)

def signed (negative : Bool) (x : Float) : Float :=
  if negative then -x else x

/-- A floating-point number; one beyond the range upwards is none. -/
def readFloat : Reader Float := fun text =>
  let (negative, unsigned) := readSign text
  match unsigned with
  | 'i' :: 'n' :: 'f' :: rest => .ok (signed negative (1.0 / 0.0), rest)
  | 'n' :: 'a' :: 'n' :: rest => .ok (signed negative (0.0 / 0.0), rest)
  | _ => do
    let (whole, rest) ← wholeDigits unsigned
    let (fraction, rest) ← readFraction rest
    let (power, rest) ← readExponent rest
    if fraction.isNone && power.isNone then .error (Fault.here text)
    else
      let shown := fraction.getD []
      let x := signed negative (floatOf (whole ++ shown) (power.getD 0 - shown.length))
      if x == 1.0 / 0.0 then .error (Fault.here text).firm else .ok (x, rest)

/-! ## Dates and times -/

def fixedDigits (count least greatest : Nat) : Reader Nat := fun text =>
  let shown := text.take count
  let n := ofDigits 10 shown
  if shown.length = count && shown.all Char.isDigit && least ≤ n && n ≤ greatest then
    .ok (n, text.drop count)
  else .error (Fault.here text)

def dateRest (year : Nat) : Reader Unit := fun text => do
  let (month, text) ← fixedDigits 2 1 12 text
  let (_, text) ← Reader.char (· == '-') text
  let (day, rest) ← fixedDigits 2 1 31 text
  if (Date.mk year month day).isValid then .ok ((), rest) else .error (Fault.here text)

def secondFraction : Reader Unit
  | '.' :: rest =>
    match rest.span Char.isDigit with
    | ([], _) => .error (Fault.here rest)
    | (_, rest) => .ok ((), rest)
  | text => .ok ((), text)

def timeRest : Reader Unit := fun text => do
  let (_, text) ← fixedDigits 2 0 59 text
  let (_, text) ← Reader.char (· == ':') text
  let (_, text) ← fixedDigits 2 0 60 text
  secondFraction text

def timeOffset : Reader Unit := fun text =>
  match text with
  | 'Z' :: rest | 'z' :: rest => .ok ((), rest)
  | '+' :: rest | '-' :: rest => do
    let (_, rest) ← fixedDigits 2 0 23 rest
    let (_, rest) ← Reader.char (· == ':') rest
    let (_, rest) ← fixedDigits 2 0 59 rest
    .ok ((), rest)
  | _ => .ok ((), text)

def isTimeMark (c : Char) : Bool :=
  c == 'T' || c == 't' || c == ' '

/-- A date, a time, or both. A year with a dash or an hour with a colon decides
that it is one. -/
def readMoment : Reader Unit := fun text =>
  let read : Except Fault (Unit × List Char) :=
    match fixedDigits 4 0 9999 text, fixedDigits 2 0 23 text with
    | .ok (year, '-' :: rest), _ =>
      match dateRest year rest with
      | .error fault => .error fault.firm
      | .ok (_, rest) =>
        match rest with
        | mark :: after =>
          match isTimeMark mark, fixedDigits 2 0 23 after with
          | true, .ok (_, ':' :: after) =>
            match timeRest after with
            | .error fault => .error fault.firm
            | .ok (_, after) => (timeOffset after).mapError Fault.firm
          | _, _ => .ok ((), rest)
        | [] => .ok ((), [])
    | _, .ok (_, ':' :: rest) => (timeRest rest).mapError Fault.firm
    | _, _ => .error (Fault.here text)
  read.mapError (·.within "date-time")

end MetricQuery.Toml

import MetricQuery.Decimal.Rounding
import MetricQuery.Error
import MetricQuery.Text.Lowercase
import MetricQuery.Time.Instant

/-!
# Durations and time ranges

Durations are lengths of time in whole milliseconds, of at most 64 signed bits. A
time range is the clause that limits a query in time. Of a beginning, an ending
and a duration the first combination counts that is complete.
-/

set_option autoImplicit false

namespace MetricQuery

structure Duration where
  millis : Int
  deriving DecidableEq, Repr

namespace Duration

def unitMillis? : List Char → Option Nat
  | ['m', 's'] => some 1
  | ['s'] => some 1000
  | ['m'] => some 60000
  | ['h'] => some 3600000
  | ['d'] => some 86400000
  | ['w'] => some 604800000
  | _ => none

/-- The duration of an amount and a unit. Neither the amount nor the
milliseconds may exceed 64 signed bits. -/
def ofAmount? (amount unit : List Char) : Option Duration := do
  let amount ← Text.natural? amount
  let unit ← unitMillis? unit
  if (amount : Int) ≤ Text.maxSigned64 && ((amount * unit : Nat) : Int) ≤ Text.maxSigned64 then
    some ⟨(amount * unit : Nat)⟩
  else none

/-- The duration that a text denotes, such as `30s`. Blanks around it and the
case of its letters do not matter. -/
def parse (given : String) : Except QueryError Duration :=
  let text := Text.lowercase (Text.trim given.toList)
  let (amount, unit) := text.span Char.isDigit
  match ofAmount? amount unit with
  | some duration => .ok duration
  | none => .error (.invalidDuration (String.ofList text))

/-- The duration of so many milliseconds; the least 64-bit number is out of
range. -/
def ofMillis? (millis : Int) : Option Duration :=
  if Text.minSigned64 < millis && millis ≤ Text.maxSigned64 then some ⟨millis⟩ else none

/-- Whole seconds, at least one. The division is one of 53 significant bits, so
long durations are only near to their seconds. -/
def seconds (duration : Duration) : Nat :=
  max 1 (Precision.quotientRound53 (Precision.wholeRound53 duration.millis.toNat) 1000)

def text (duration : Duration) : String :=
  String.ofList (Text.digits duration.seconds) ++ "s"

end Duration

/-! ## Ranges -/

inductive TimeRange where
  | between (beginning ending : Instant)
  | before (ending : Instant) (duration : Duration)
  | after (beginning : Instant) (duration : Duration)
  | last (duration : Duration)
  deriving DecidableEq, Repr

namespace TimeRange

def ofLimits? (beginning ending : Option Instant) (duration : Option Duration) :
    Option TimeRange :=
  match beginning, ending, duration with
  | some beginning, some ending, _ => some (.between beginning ending)
  | _, some ending, some duration => some (.before ending duration)
  | some beginning, _, some duration => some (.after beginning duration)
  | _, _, some duration => some (.last duration)
  | _, _, none => none

def text : TimeRange → String
  | .between beginning ending => "BETWEEN " ++ beginning.quoted ++ " AND " ++ ending.quoted
  | .before ending duration => "BEFORE " ++ ending.quoted ++ " FOR " ++ duration.text
  | .after beginning duration => "AFTER " ++ beginning.quoted ++ " FOR " ++ duration.text
  | .last duration => "LAST " ++ duration.text

end TimeRange

end MetricQuery

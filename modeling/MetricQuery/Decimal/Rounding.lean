import MetricQuery.Text.Character

/-!
# Rounded numbers

A floating-point number is written with the fewest digits that read back as the
same number, and with the nearest such digits. The search runs in exact natural
arithmetic: the numbers that round to a given one form an interval, and on the
grid of `n`-digit decimals only the two neighbours of the number itself have to
be tried, because a grid point inside the interval lies no nearer than one of
them. Quotients are rounded to the nearest number with a significand of 53 bits,
a half going to the even one.
-/

set_option autoImplicit false

namespace MetricQuery

/-! ## Fifty-three bits of precision -/

namespace Precision

/-- The nearest whole number to `number / unit`, a half going to the even one. -/
def roundEven (number unit : Nat) : Nat :=
  let below := number / unit
  let rest := number % unit
  if 2 * rest < unit then below
  else if unit < 2 * rest then below + 1
  else below + below % 2

/-- The nearest whole number to `number / unit`, a half going up. -/
def roundUp (number unit : Nat) : Nat :=
  (2 * number + unit) / (2 * unit)

/-- A significand and the power of two that it counts: `number / unit` with 53
significant bits, if it is at least one. -/
def round53 (number unit : Nat) : Nat × Int :=
  let power : Int := (Nat.log2 (number / unit) : Int) - 52
  match power with
  | .ofNat n => (roundEven number (unit * Nat.pow 2 n), power)
  | .negSucc n => (roundEven (number * Nat.pow 2 (n + 1)) unit, power)

def wholeRound53 (number : Nat) : Nat :=
  if number < Nat.pow 2 53 then number
  else
    let power := Nat.log2 number - 52
    roundEven number (Nat.pow 2 power) * Nat.pow 2 power

/-- A quotient with 53 significant bits, rounded once more to the nearest whole
number, a half going up. -/
def quotientRound53 (number unit : Nat) : Nat :=
  match round53 number unit with
  | (significand, .ofNat n) => significand * Nat.pow 2 n
  | (significand, .negSucc n) => roundUp significand (Nat.pow 2 (n + 1))

end Precision

/-! ## Shortest decimals -/

/-- The decimal number `digits * 10 ^ exponent`. -/
structure Decimal where
  digits : Nat
  exponent : Int
  deriving DecidableEq, Repr

namespace Decimal

inductive Tie where
  | up
  | even
  deriving DecidableEq, Repr

/-- The magnitude `significand * 2 ^ exponent` of a finite number; `atPower`
says that its lower neighbour is only half as far away as its upper one. -/
structure Binary where
  significand : Nat
  exponent : Int
  atPower : Bool

def Binary.ofBits (bits : UInt64) : Binary :=
  let fraction : Nat := bits.toNat % Nat.pow 2 52
  let field : Nat := bits.toNat / Nat.pow 2 52 % Nat.pow 2 11
  if field = 0 then ⟨fraction, -1074, false⟩
  else ⟨Nat.pow 2 52 + fraction, (field : Int) - 1075, fraction = 0 && field != 1⟩

/-- The numbers that round to `middle / unit`: those between `low / unit` and
`high / unit`, with the two ends if `closed`. -/
structure Interval where
  low : Nat
  middle : Nat
  high : Nat
  unit : Nat
  closed : Bool

/-- The interval of a magnitude. Its ends lie half way to the two neighbours,
and a number half way rounds to an even significand. -/
def Binary.interval (number : Binary) : Interval :=
  let middle := 4 * number.significand
  let low := if number.atPower then middle - 1 else middle - 2
  let closed := number.significand % 2 == 0
  match number.exponent - 2 with
  | .ofNat power =>
    let factor := Nat.pow 2 power
    ⟨low * factor, middle * factor, (middle + 2) * factor, 1, closed⟩
  | .negSucc power => ⟨low, middle, middle + 2, Nat.pow 2 (power + 1), closed⟩

def Interval.inTens (interval : Interval) : Int → Interval
  | .ofNat power => { interval with unit := interval.unit * Nat.pow 10 power }
  | .negSucc power =>
    let factor := Nat.pow 10 (power + 1)
    { interval with
      low := interval.low * factor
      middle := interval.middle * factor
      high := interval.high * factor }

def Interval.contains (interval : Interval) (n : Nat) : Bool :=
  let place := n * interval.unit
  if interval.closed then interval.low ≤ place && place ≤ interval.high
  else interval.low < place && place < interval.high

/-- The whole number in the interval that is nearest to its middle, among the
two neighbours of the middle. -/
def Interval.nearest? (interval : Interval) (tie : Tie) : Option Nat :=
  let below := interval.middle / interval.unit
  match interval.contains below, interval.contains (below + 1) with
  | false, false => none
  | true, false => some below
  | false, true => some (below + 1)
  | true, true =>
    let down := interval.middle - below * interval.unit
    let up := (below + 1) * interval.unit - interval.middle
    if down < up then some below
    else if up < down then some (below + 1)
    else
      match tie with
      | .up => some (below + 1)
      | .even => if below % 2 = 0 then some below else some (below + 1)

/-- How often a number has to be multiplied by ten to reach `goal`, counted on
from `count`. -/
def tensToReach (goal : Nat) : (fuel count number : Nat) → Nat
  | 0, count, _ => count
  | fuel + 1, count, number =>
    if goal ≤ number then count else tensToReach goal fuel (count + 1) (10 * number)

def leadingPower (number unit : Nat) : Int :=
  if unit ≤ number then ((Text.digits (number / unit)).length : Int) - 1
  else -(tensToReach unit 400 0 number : Int)

def normalized : (fuel : Nat) → Decimal → Decimal
  | 0, decimal => decimal
  | fuel + 1, decimal =>
    if decimal.digits ≠ 0 && decimal.digits % 10 = 0 then
      normalized fuel ⟨decimal.digits / 10, decimal.exponent + 1⟩
    else decimal

def ofCount? (interval : Interval) (lead : Int) (tie : Tie) (count : Nat) : Option Decimal :=
  let exponent := lead - ((count : Int) - 1)
  match (interval.inTens exponent).nearest? tie with
  | none => none
  | some digits => some (normalized count ⟨digits, exponent⟩)

/-- The shortest decimal that rounds to a positive finite number; seventeen
digits always are enough. -/
def shortest (tie : Tie) (bits : UInt64) : Decimal :=
  let interval := (Binary.ofBits bits).interval
  let lead := leadingPower interval.middle interval.unit
  match (List.range 17).findSome? fun n => ofCount? interval lead tie (n + 1) with
  | some decimal => decimal
  | none => ⟨0, 0⟩

end Decimal

end MetricQuery

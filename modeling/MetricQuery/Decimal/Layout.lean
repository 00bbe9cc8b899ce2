import MetricQuery.Decimal.Rounding

/-!
# Written numbers

How the digits of a floating-point number are laid out: with a decimal point at
its place, or with one digit in front of the point and a power of ten.
-/

set_option autoImplicit false

namespace MetricQuery

namespace Decimal

structure Layout where
  tie : Tie
  /-- The powers of ten of the first digit that are written without exponent;
  `none` stands for all. -/
  plainPowers : Option (Int × Int)
  /-- What follows a whole number. -/
  wholeMark : String
  /-- The texts of a missing value and of the two infinities. -/
  missing : String
  infinite : String
  negativeInfinite : String

/-- Digits with the point after the first `point` of them. -/
def placePoint (wholeMark : String) (digits : List Char) : Int → List Char
  | .negSucc n => '0' :: '.' :: (List.replicate (n + 1) '0' ++ digits)
  | .ofNat 0 => '0' :: '.' :: digits
  | .ofNat point =>
    if digits.length ≤ point then
      digits ++ List.replicate (point - digits.length) '0' ++ wholeMark.toList
    else digits.take point ++ '.' :: digits.drop point

def withPower (digits : List Char) (power : Int) : List Char :=
  let fraction := match digits.drop 1 with
    | [] => []
    | rest => '.' :: rest
  let sign := if power < 0 then '-' else '+'
  digits.take 1 ++ fraction ++ 'e' :: sign :: Text.digits power.natAbs

def written (layout : Layout) (decimal : Decimal) : List Char :=
  if decimal.digits = 0 then '0' :: layout.wholeMark.toList
  else
    let shown := Text.digits decimal.digits
    let point := decimal.exponent + shown.length
    match layout.plainPowers with
    | none => placePoint layout.wholeMark shown point
    | some (least, greatest) =>
      if least ≤ point - 1 && point - 1 ≤ greatest then
        placePoint layout.wholeMark shown point
      else withPower shown (point - 1)

end Decimal

def writeFloat (layout : Decimal.Layout) (x : Float) : String :=
  if x.isNaN then layout.missing
  else
    let bits := x.toBits
    let negative := Nat.pow 2 63 ≤ bits.toNat
    let magnitude := bits.toNat % Nat.pow 2 63
    if magnitude = 2047 * Nat.pow 2 52 then
      if negative then layout.negativeInfinite else layout.infinite
    else
      let decimal :=
        if magnitude = 0 then ⟨0, 0⟩ else Decimal.shortest layout.tie bits
      let shown := String.ofList (decimal.written layout)
      if negative then "-" ++ shown else shown

/-- Numbers in query texts and in points: never an exponent, and whole numbers
without a point. -/
def plainLayout : Decimal.Layout where
  tie := .up
  plainPowers := none
  wholeMark := ""
  missing := "NaN"
  infinite := "inf"
  negativeInfinite := "-inf"

/-- Numbers in JSON: an exponent outside of `10 ^ -5` to `10 ^ 16`, always a
sign of being no integer, and no text for what JSON cannot hold. -/
def jsonLayout : Decimal.Layout where
  tie := .even
  plainPowers := some (-5, 15)
  wholeMark := ".0"
  missing := "null"
  infinite := "null"
  negativeInfinite := "null"

end MetricQuery

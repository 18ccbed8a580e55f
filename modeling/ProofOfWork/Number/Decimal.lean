import ProofOfWork.Number.Binary64

/-! Decimal texts of binary64 numbers: a fixed number of places, and the fewest digits. -/
namespace ProofOfWork.Binary64

def decimalDigits (n : Nat) : List Char :=
  Nat.toDigits 10 n

/-- The digits of `n` with a point before the last `places` of them. -/
def withPoint (places n : Nat) : List Char :=
  let text := decimalDigits n
  let text := List.replicate (places + 1 - text.length) '0' ++ text
  let whole := text.length - places
  text.take whole ++ if places = 0 then [] else '.' :: text.drop whole

/-- The exact value rounded to `places` decimals, a half going to the even digit. -/
def fixed (places : Nat) (x : Binary64) : String :=
  let (num, den) := x.ratio
  String.ofList (withPoint places (roundDiv (num * Nat.pow 10 places) den))

/-- A decimal `digits * 10 ^ exponent`. -/
structure Decimal where
  digits : Nat
  exponent : Int

/-- Numerator and denominator of the exact value. -/
def Decimal.ratio (d : Decimal) : Nat × Nat :=
  if 0 ≤ d.exponent then (d.digits * Nat.pow 10 d.exponent.toNat, 1)
  else (d.digits, Nat.pow 10 (-d.exponent).toNat)

/-- An interval with bounds in units of `unitNum / unitDen`. -/
structure Basin where
  low : Nat
  high : Nat
  unitNum : Nat
  unitDen : Nat
  closed : Bool

/-- The numbers that round to `x`, in quarters of its last place; below a power of two the neighbour
is half as far away. -/
def basin (x : Binary64) : Basin :=
  let narrow := x.significand == hidden && minExponent < x.exponent
  let (num, den) : Nat × Nat :=
    if 2 ≤ x.exponent then (1 <<< (x.exponent - 2).toNat, 1) else (1, 1 <<< (2 - x.exponent).toNat)
  { low := 4 * x.significand - (if narrow then 1 else 2)
    high := 4 * x.significand + 2
    unitNum := num
    unitDen := den
    closed := x.significand % 2 == 0 }

def Basin.contains (b : Basin) (d : Decimal) : Bool :=
  let (num, den) := d.ratio
  let value := num * b.unitDen
  let low := b.low * b.unitNum * den
  let high := b.high * b.unitNum * den
  if b.closed then low ≤ value && value ≤ high else low < value && value < high

/-- The place of the leading digit of `num / den`. -/
def leadingPlace (num den : Nat) : Int :=
  if den ≤ num then (decimalDigits (num / den)).length - 1
  else -(((List.range 400).takeWhile fun t => num * Nat.pow 10 t < den).length : Int)

/-- The value cut to `count` digits. -/
def cut (num den count : Nat) : Decimal :=
  let exponent : Int := leadingPlace num den - count + 1
  { digits :=
      if 0 ≤ exponent then num / (den * Nat.pow 10 exponent.toNat)
      else num * Nat.pow 10 (-exponent).toNat / den
    exponent }

def distance (num den : Nat) (d : Decimal) : Nat :=
  let (a, b) := d.ratio
  (a * den - num * b) + (num * b - a * den)

/-- The decimal with `count` digits that rounds to `x` and is nearest to it. -/
def nearest? (x : Binary64) (count : Nat) : Option Decimal :=
  let (num, den) := x.ratio
  let down := cut num den count
  let up := { down with digits := down.digits + 1 }
  match x.basin.contains down, x.basin.contains up with
  | true, true =>
    let below := distance num den down
    let above := distance num den up
    some (if above < below || (above == below && down.digits % 2 == 1) then up else down)
  | true, false => some down
  | false, true => some up
  | false, false => none

/-- The decimal with the fewest digits that rounds to `x`. -/
def shortest (x : Binary64) : Decimal :=
  ((List.range 17).findSome? fun i => x.nearest? (i + 1)).getD (cut x.ratio.1 x.ratio.2 17)

def dropTrailingZeros (digits : List Char) : List Char :=
  (digits.reverse.dropWhile (· == '0')).reverse

/-- Positional notation, with at least one digit on both sides of the point. -/
def Decimal.positional (d : Decimal) : List Char :=
  if 0 ≤ d.exponent then decimalDigits (d.digits * Nat.pow 10 d.exponent.toNat) ++ ['.', '0']
  else
    let text := dropTrailingZeros (withPoint (-d.exponent).toNat d.digits)
    if text.getLast? == some '.' then text ++ ['0'] else text

/-- The power of ten that the leading digit counts. -/
def Decimal.place (d : Decimal) : Int :=
  d.exponent + (decimalDigits d.digits).length - 1

/-- Scientific notation: one digit before the point, and an exponent that always has a sign. -/
def Decimal.scientific (d : Decimal) : List Char :=
  let digits := dropTrailingZeros (decimalDigits d.digits)
  let fraction := if digits.length ≤ 1 then [] else '.' :: digits.drop 1
  digits.take 1 ++ fraction ++ ['e', if d.place < 0 then '-' else '+'] ++
    decimalDigits d.place.natAbs

/-- The places of a leading digit for which a number is written positionally. -/
structure PositionalPlaces where
  least : Int
  greatest : Int

/-- The shortest digits that read back as `x`. -/
def shortestText (places : PositionalPlaces) (x : Binary64) : String :=
  if x.isZero then "0.0"
  else
    let d := x.shortest
    let positional := places.least ≤ d.place && d.place ≤ places.greatest
    String.ofList (if positional then d.positional else d.scientific)

end ProofOfWork.Binary64

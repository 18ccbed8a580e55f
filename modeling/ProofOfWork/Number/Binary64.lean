/-!
Nonnegative binary64 numbers with exact arithmetic on ratios and one rounding to the nearest, ties
to the even significand.
-/
namespace ProofOfWork

/-- The quotient rounded to the nearest natural number, a half going to the even neighbour. -/
def roundDiv (num den : Nat) : Nat :=
  let quotient := num / den
  let twice := 2 * (num % den)
  if twice < den then quotient
  else if den < twice then quotient + 1
  else quotient + quotient % 2

/-- The number `significand * 2 ^ exponent`. -/
structure Binary64 where
  significand : Nat
  exponent : Int
  deriving DecidableEq, Repr

namespace Binary64

/-- The weight of the leading bit of a full significand. -/
def hidden : Nat := 1 <<< 52

def minExponent : Int := -1074

def maxExponent : Int := 971

def zero : Binary64 := ⟨0, minExponent⟩

/-- Numerator and denominator of the exact value. -/
def ratio (x : Binary64) : Nat × Nat :=
  if 0 ≤ x.exponent then (x.significand <<< x.exponent.toNat, 1)
  else (x.significand, 1 <<< (-x.exponent).toNat)

/-- The ratio in units of `2 ^ exponent`, rounded. -/
def scaledRound (num den : Nat) (exponent : Int) : Nat :=
  if 0 ≤ exponent then roundDiv num (den <<< exponent.toNat)
  else roundDiv (num <<< (-exponent).toNat) den

/-- The exponent that leaves 53 binary digits before the point, or the least exponent. -/
def unitExponent (num den : Nat) : Int :=
  let guess : Int := (num.log2 : Int) - den.log2 - 52
  let low : Int := guess - 1
  let fits : Bool :=
    if 0 ≤ guess then den <<< guess.toNat * hidden ≤ num
    else den * hidden ≤ num <<< (-guess).toNat
  max minExponent (if fits then guess else low)

/-- The number nearest to `num / den`; its exponent may pass the largest one. -/
def ofRatio (num den : Nat) : Binary64 :=
  if num = 0 then zero
  else
    let exponent := unitExponent num den
    let significand := scaledRound num den exponent
    if significand = 2 * hidden then ⟨hidden, exponent + 1⟩ else ⟨significand, exponent⟩

def ofNat (n : Nat) : Binary64 :=
  ofRatio n 1

def isFinite (x : Binary64) : Bool :=
  x.exponent ≤ maxExponent

def isZero (x : Binary64) : Bool :=
  x.significand == 0

def add (x y : Binary64) : Binary64 :=
  let (a, b) := x.ratio
  let (c, d) := y.ratio
  ofRatio (a * d + c * b) (b * d)

def mul (x y : Binary64) : Binary64 :=
  let (a, b) := x.ratio
  let (c, d) := y.ratio
  ofRatio (a * c) (b * d)

/-- The divisor must not be zero. -/
def div (x y : Binary64) : Binary64 :=
  let (a, b) := x.ratio
  let (c, d) := y.ratio
  ofRatio (a * d) (b * c)

def le (x y : Binary64) : Bool :=
  let (a, b) := x.ratio
  let (c, d) := y.ratio
  a * d ≤ c * b

end Binary64

end ProofOfWork

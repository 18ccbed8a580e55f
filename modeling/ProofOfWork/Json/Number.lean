import ProofOfWork.Number.Decimal

/-!
JSON numbers. A number without fraction and exponent stays an integer while it fits a 64-bit word;
any other is read as a 64-bit significand, whose further digits are dropped, scaled by a power of
ten.
-/
namespace ProofOfWork.Json

/-- Why a document cannot be read: a character that does not belong, or an end too early. -/
inductive Fault
  | malformed
  | truncated
  deriving DecidableEq

inductive Number
  | integer (n : Int)
  | real (negative : Bool) (magnitude : Binary64)

namespace Number

/-- Real numbers from `0.00001` up to below `1e16` are written positionally. -/
def positionalPlaces : Binary64.PositionalPlaces where
  least := -5
  greatest := 15

def describe : Number → String
  | .integer n => s!"integer `{n}`"
  | .real true x => s!"floating point `-{x.shortestText positionalPlaces}`"
  | .real false x => s!"floating point `{x.shortestText positionalPlaces}`"

def wordLimit : Nat := 1 <<< 64

def exponentLimit : Nat := 1 <<< 31

/-- The greatest power of ten in one scaling step. -/
def stepExponent : Nat := 308

def digitValue (c : Char) : Nat :=
  c.toNat - 48

def powerOfTen (n : Nat) : Binary64 :=
  Binary64.ofNat (Nat.pow 10 n)

/-- Divides by powers of ten until the exponent is used up or nothing is left. -/
def scaleDown (x : Binary64) (exponent : Nat) : Binary64 :=
  if exponent ≤ stepExponent then x.div (powerOfTen exponent)
  else if x.isZero then x
  else scaleDown (x.div (powerOfTen stepExponent)) (exponent - stepExponent)
termination_by exponent
decreasing_by simp only [stepExponent] at *; omega

/-- A number too large for binary64 is malformed. -/
def scale (significand : Nat) (exponent : Int) : Except Fault Binary64 :=
  let x := Binary64.ofNat significand
  if exponent < 0 then .ok (scaleDown x (-exponent).toNat)
  else if exponent ≤ stepExponent then
    let y := x.mul (powerOfTen exponent.toNat)
    if y.isFinite then .ok y else .error .malformed
  else if x.isZero then .ok x
  else .error .malformed

/-- The digits in front, as far as the number keeps below the bound. -/
def takeBelow (bound : Nat) : (number : Nat) → List Char → Nat × List Char
  | number, c :: rest =>
    if c.isDigit && 10 * number + digitValue c < bound then
      takeBelow bound (10 * number + digitValue c) rest
    else (number, c :: rest)
  | number, [] => (number, [])

def startsWithDigit (text : List Char) : Bool :=
  text.head?.any Char.isDigit

def skipDigits (text : List Char) : List Char :=
  text.dropWhile Char.isDigit

def clampExponent (n : Int) : Int :=
  max (-(exponentLimit : Int)) (min n ((exponentLimit : Int) - 1))

/-- What follows the letter of an exponent. -/
def exponentPart (significand : Nat) (exponent : Int) (text : List Char) :
    Except Fault (Binary64 × List Char) :=
  let (up, text) :=
    match text with
    | '+' :: rest => (true, rest)
    | '-' :: rest => (false, rest)
    | _ => (true, text)
  match text with
  | [] => .error .truncated
  | c :: _ =>
    if !c.isDigit then .error .malformed
    else
      let (size, rest) := takeBelow exponentLimit 0 text
      if startsWithDigit rest then
        if significand != 0 && up then .error .malformed
        else .ok (Binary64.zero, skipDigits rest)
      else do
        let shift : Int := if up then size else -size
        let x ← scale significand (clampExponent (exponent + shift))
        return (x, rest)

def isExponentLetter (c : Char) : Bool :=
  c == 'e' || c == 'E'

/-- An exponent may follow. -/
def tail (significand : Nat) (exponent : Int) (text : List Char) :
    Except Fault (Binary64 × List Char) :=
  match text with
  | c :: rest =>
    if isExponentLetter c then exponentPart significand exponent rest
    else (scale significand exponent).map (·, text)
  | [] => (scale significand exponent).map (·, text)

/-- What follows the point. -/
def fractionPart (significand : Nat) (exponent : Int) (text : List Char) :
    Except Fault (Binary64 × List Char) :=
  match text with
  | [] => .error .truncated
  | c :: _ =>
    if !c.isDigit then .error .malformed
    else
      let (longer, rest) := takeBelow wordLimit significand text
      let places := text.length - rest.length
      tail longer (exponent - places) (skipDigits rest)

/-- What follows the integer digits, of which `dropped` did not fit. -/
def afterInteger (negative : Bool) (significand dropped : Nat) (text : List Char) :
    Except Fault (Number × List Char) :=
  let real (r : Except Fault (Binary64 × List Char)) : Except Fault (Number × List Char) :=
    r.map fun (x, rest) => (.real negative x, rest)
  match text with
  | '.' :: rest => real (fractionPart significand dropped rest)
  | c :: _ =>
    if isExponentLetter c || dropped != 0 then real (tail significand dropped text)
    else .ok (ofInteger negative significand, text)
  | [] =>
    if dropped != 0 then real (tail significand dropped text)
    else .ok (ofInteger negative significand, text)
where
  /-- Minus zero and what lies below the least 64-bit integer are real numbers. -/
  ofInteger (negative : Bool) (n : Nat) : Number :=
    if !negative then .integer n
    else if n = 0 ∨ 1 <<< 63 < n then .real true (Binary64.ofNat n)
    else .integer (-n)

/-- A number that starts with a digit; no other digit follows a leading zero. -/
def unsigned (negative : Bool) (text : List Char) : Except Fault (Number × List Char) :=
  match text with
  | [] => .error .truncated
  | '0' :: rest =>
    if startsWithDigit rest then .error .malformed else afterInteger negative 0 0 rest
  | c :: _ =>
    if !c.isDigit then .error .malformed
    else
      let (significand, rest) := takeBelow wordLimit 0 text
      let after := skipDigits rest
      afterInteger negative significand (rest.length - after.length) after

/-- The number in front of the text, and what follows it. -/
def read (text : List Char) : Except Fault (Number × List Char) :=
  match text with
  | '-' :: rest => unsigned true rest
  | _ => unsigned false text

end Number

end ProofOfWork.Json

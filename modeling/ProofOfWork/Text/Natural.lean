/-! Decimal texts of natural numbers below a bound. -/
namespace ProofOfWork.Text.Natural

inductive Error
  | empty
  | invalidDigit
  | tooLarge
  deriving DecidableEq

def Error.message : Error → String
  | .empty => "cannot parse integer from empty string"
  | .invalidDigit => "invalid digit found in string"
  | .tooLarge => "number too large to fit in target type"

/-- Stops at the first character that is no digit or takes the number to the bound. -/
def readDigits (bound : Nat) : (number : Nat) → List Char → Except Error Nat
  | number, [] => .ok number
  | number, c :: rest =>
    if c.isDigit then
      let next := 10 * number + (c.toNat - 48)
      if next < bound then readDigits bound next rest else .error .tooLarge
    else .error .invalidDigit

/-- One plus sign may stand in front, and a sign needs digits. -/
def read (bound : Nat) (text : String) : Except Error Nat :=
  match text.toList with
  | [] => .error .empty
  | ['+'] => .error .invalidDigit
  | '+' :: digits => readDigits bound 0 digits
  | digits => readDigits bound 0 digits

end ProofOfWork.Text.Natural

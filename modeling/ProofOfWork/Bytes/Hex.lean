import ProofOfWork.Bytes.Basic
import ProofOfWork.Text.Blank
import ProofOfWork.Text.Quoted
import ProofOfWork.Text.Utf8

/-! Hexadecimal text: written in lowercase, read in either case. -/
namespace ProofOfWork.Hex

/-- The lowercase digit of a value below sixteen. -/
def digit (n : Nat) : Char :=
  if n < 10 then Char.ofNat (48 + n) else Char.ofNat (87 + n)

def encodeChars (bs : Bytes) : List Char :=
  bs.flatMap fun b => [digit (b.toNat / 16), digit (b.toNat % 16)]

def encode (bs : Bytes) : String :=
  String.ofList (encodeChars bs)

inductive Error
  | oddLength
  | invalidDigit (byte : UInt8) (position : Nat)
  deriving DecidableEq

/-- A rejected byte is shown as the character with its number. -/
def Error.message : Error → String
  | .oddLength => "Odd number of digits"
  | .invalidDigit b i => s!"Invalid character {Text.quoted b} at position {i}"

def digitValue? (b : UInt8) : Option Nat :=
  let n := b.toNat
  if 48 ≤ n ∧ n ≤ 57 then some (n - 48)
  else if 65 ≤ n ∧ n ≤ 70 then some (n - 55)
  else if 97 ≤ n ∧ n ≤ 102 then some (n - 87)
  else none

def digitAt (b : UInt8) (position : Nat) : Except Error Nat :=
  match digitValue? b with
  | some n => .ok n
  | none => .error (.invalidDigit b position)

def decodePairs (position : Nat) : Bytes → Except Error Bytes
  | a :: b :: rest => do
    let high ← digitAt a position
    let low ← digitAt b (position + 1)
    let tail ← decodePairs (position + 2) rest
    return (16 * high + low).toUInt8 :: tail
  | _ => .ok []

/-- An odd number of digits is refused before any digit is looked at. -/
def decode (digits : Bytes) : Except Error Bytes :=
  if digits.length % 2 = 1 then .error .oddLength else decodePairs 0 digits

/-- Blanks around the text and then one `0x` in front of the digits are dropped. -/
def bare (text : List Char) : List Char :=
  match Text.trim text with
  | '0' :: 'x' :: digits => digits
  | digits => digits

def ofText (text : String) : Except Error Bytes :=
  decode (Text.utf8 (bare text.toList))

end ProofOfWork.Hex

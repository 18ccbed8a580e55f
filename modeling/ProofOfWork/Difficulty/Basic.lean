import ProofOfWork.Bytes.Hex
import ProofOfWork.Bytes.LeadingZeros

/-!
Difficulties. A difficulty is encoded as bytes, and the leading zero bits of the encoding are those
that a digest needs.
-/
namespace ProofOfWork

structure Difficulty where
  bytes : Bytes
  bytes_ne_nil : bytes ≠ []
  deriving DecidableEq

namespace Difficulty

inductive Error
  | empty
  | hex (cause : Hex.Error)
  | tooManyBits (bits length : Nat)
  /-- An encoding of the length has more bits than can be counted, and the count breaks down. -/
  | tooLong (length : Nat)
  deriving DecidableEq

def Error.message : Error → String
  | .empty => "difficulty encoding is empty"
  | .hex cause => s!"invalid hex in difficulty: {cause.message}"
  | .tooManyBits bits length => s!"{bits} leading zero bits don't fit in a {length} byte encoding"
  | .tooLong length => s!"the bits of a {length} byte encoding can't be counted"

/-- The count broke down, which is not an answer to whoever asked for it. -/
def Error.isBreakdown : Error → Bool
  | .tooLong _ => true
  | .empty | .hex _ | .tooManyBits _ _ => false

def ofBytes (bytes : Bytes) : Except Error Difficulty :=
  if h : bytes = [] then .error .empty else .ok ⟨bytes, h⟩

def length (d : Difficulty) : Nat :=
  d.bytes.length

/-- The leading zero bits that a digest needs. -/
def required (d : Difficulty) : Nat :=
  d.bytes.leadingZeros

/-- Byte `i` of the canonical encoding of a count: zero bytes, the partial byte, then full bytes. -/
def canonicalByte (bits i : Nat) : UInt8 :=
  match compare i (bits / 8) with
  | .lt => 0
  | .eq => 0xFF >>> (bits % 8).toUInt8
  | .gt => 0xFF

/-- Replaces the encoding by the canonical one of a count and of the same length. -/
def requiring (bits : Nat) (d : Difficulty) : Difficulty where
  bytes := d.bytes.mapIdx fun i _ => canonicalByte bits i
  bytes_ne_nil := by simp [d.bytes_ne_nil]

/-- The encoding that asks for nothing. -/
def easiest (length : Nat) (h : length ≠ 0) : Difficulty :=
  ⟨List.replicate length 0xFF, by simp [h]⟩

/-- The most bits that an encoding can have, since a 64-bit word counts them. -/
def bitLimit : Nat := 0xFFFFFFFFFFFFFFFF

/-- The canonical encoding of a count of leading zero bits. A length whose bits cannot be counted
is a breakdown before the count is looked at. -/
def ofZeroBits (bits length : Nat) : Except Error Difficulty :=
  if h : length = 0 then .error .empty
  else if bitLimit < 8 * length then .error (.tooLong length)
  else if 8 * length < bits then .error (.tooManyBits bits length)
  else .ok ((easiest length h).requiring bits)

/-- The canonical encodings are those that are built from a count. -/
def Canonical (d : Difficulty) : Prop :=
  ∃ bits, ofZeroBits bits d.length = .ok d

/-- The length of a 256-bit digest. -/
def defaultLength : Nat := 32

/-- A fresh chain of solutions starts with a single leading zero bit. -/
def initial : Difficulty :=
  ⟨0x7F :: List.replicate (defaultLength - 1) 0xFF, List.cons_ne_nil _ _⟩

instance : Inhabited Difficulty := ⟨initial⟩

def toHex (d : Difficulty) : String :=
  Hex.encode d.bytes

instance : ToString Difficulty := ⟨toHex⟩

/-- The count beside the encoding. -/
def describe (d : Difficulty) : String :=
  s!"Difficulty({d.required} bits, {d.toHex})"

def ofText (text : String) : Except Error Difficulty := do
  ofBytes (← (Hex.ofText text).mapError .hex)

end Difficulty

end ProofOfWork

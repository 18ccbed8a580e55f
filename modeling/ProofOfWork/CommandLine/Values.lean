import ProofOfWork.CommandLine.Scan
import ProofOfWork.Text.Natural

/-! Typed values of the arguments in a scan. -/
namespace ProofOfWork.CommandLine

namespace Scan

/-- The values given, or else the default. -/
def values (s : Scan) (a : Argument) : List String :=
  if (s.given a).isEmpty then a.default?.toList else s.given a

/-- Required arguments must be there, and an option at the end of the line must have a value. -/
def settle (s : Scan) (required : List Argument) : Except Refusal Unit := do
  if let some a := required.find? fun a => s.count a == 0 then throw (.missingArgument a)
  if let some a := s.pending then
    if (s.values a).isEmpty then throw (.emptyValue a)

/-- Most arguments are given once. -/
def once (s : Scan) (a : Argument) : Except Refusal Unit :=
  if 1 < s.count a && !a.mayRepeat then .error (.repeated a) else .ok ()

def flag (s : Scan) (a : Argument) : Except Refusal Bool := do
  s.once a
  return s.count a != 0

/-- A bad value is reported before a repetition. -/
def optional (s : Scan) (a : Argument) (read : String → Except String α) :
    Except Refusal (Option α) := do
  if (s.values a).isEmpty && s.count a != 0 then throw (.emptyValue a)
  let found ← ((s.values a).mapM read).mapError (.invalidValue a)
  s.once a
  return found.head?

def required (s : Scan) (a : Argument) (read : String → Except String α) :
    Except Refusal α := do
  match ← s.optional a read with
  | some x => return x
  | none => throw (.missingArgument a)

/-- The scan in which an argument occurs more often; of two equals the inner one. -/
def prevailing (outer inner : Scan) (a : Argument) : Scan :=
  if inner.count a < outer.count a then outer else inner

end Scan

/-- Numbers of so many bits. -/
def readNatural (bits : Nat) (text : String) : Except String Nat :=
  (Text.Natural.read (1 <<< bits) text).mapError (·.message)

end ProofOfWork.CommandLine

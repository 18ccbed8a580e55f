import ProofOfWork.Difficulty.Basic

/-! The test that a difficulty puts to digests. -/
namespace ProofOfWork

/-- Equal counts pass. -/
def Bytes.meets (digest : Bytes) (required : Nat) : Bool :=
  required ≤ digest.leadingZeros

/-- A digest is judged against an encoding of its own length. -/
structure WrongLength where
  expected : Nat
  actual : Nat
  deriving DecidableEq

def WrongLength.message (e : WrongLength) : String :=
  s!"digest is {e.actual} bytes but the difficulty encoding is {e.expected} bytes"

/-- What is left of a difficulty when digests are judged. -/
structure Threshold where
  required : Nat
  length : Nat
  deriving DecidableEq

def Difficulty.threshold (d : Difficulty) : Threshold where
  required := d.required
  length := d.length

namespace Threshold

def describe (t : Threshold) : String :=
  "Evaluator \x7b " ++ s!"required: {t.required}, len: {t.length}" ++ " \x7d"

/-- Judges a digest of any length. -/
def accepts (t : Threshold) (digest : Bytes) : Bool :=
  digest.meets t.required

def expect (t : Threshold) (actual : Nat) : Except WrongLength Unit :=
  if actual = t.length then .ok () else .error ⟨t.length, actual⟩

/-- Judges a digest of the right length only. -/
def judge (t : Threshold) (digest : Bytes) : Except WrongLength Bool := do
  t.expect digest.length
  return t.accepts digest

/-- On digests of the right length both ways of judging agree. -/
theorem judge_of_length (t : Threshold) {digest : Bytes} (h : digest.length = t.length) :
    t.judge digest = .ok (t.accepts digest) := by
  have hexpect : t.expect digest.length = .ok () := if_pos h
  rw [judge, hexpect]
  rfl

theorem judge_eq_error_iff {t : Threshold} {digest : Bytes} {e : WrongLength} :
    t.judge digest = .error e ↔ digest.length ≠ t.length ∧ e = ⟨t.length, digest.length⟩ := by
  by_cases h : digest.length = t.length
  · simp [judge_of_length t h, h]
  · have hexpect : t.expect digest.length = .error ⟨t.length, digest.length⟩ := if_neg h
    have hjudge : t.judge digest = .error ⟨t.length, digest.length⟩ := by
      rw [judge, hexpect]
      rfl
    simp [hjudge, h, eq_comm]

end Threshold

end ProofOfWork

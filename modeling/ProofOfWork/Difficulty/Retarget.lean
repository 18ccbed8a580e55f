import ProofOfWork.Difficulty.Basic
import ProofOfWork.LogLine

/-!
Adjusting a difficulty to the time between two solutions: one more leading zero bit after a fast
solution, one fewer after a slow one.
-/
namespace ProofOfWork

inductive Adjustment
  | harder
  | easier
  | unchanged
  deriving DecidableEq

def Adjustment.name : Adjustment → String
  | .harder => "harder"
  | .easier => "easier"
  | .unchanged => "unchanged"

/-- Two solutions in seconds, and the interval that was meant to lie between them. -/
structure Timing where
  previous : Nat
  current : Nat
  target : Nat

/-- A clock that goes backwards shows no time at all. -/
def Timing.elapsed (t : Timing) : Nat :=
  t.current - t.previous

/-- The intended seconds between two solutions. -/
def Timing.defaultTarget : Nat := 600

namespace Difficulty

/-- The count at which only zeros are left. -/
def ceiling (d : Difficulty) : Nat :=
  min (8 * d.length) countLimit

/-- The adjustment for a time; no encoding becomes all zeros, and one required bit stays. -/
def adjustment (d : Difficulty) (t : Timing) : Adjustment :=
  match compare t.elapsed t.target with
  | .eq => .unchanged
  | .lt => if d.ceiling ≤ min (d.required + 1) countLimit then .unchanged else .harder
  | .gt => if d.required ≤ 1 then .unchanged else .easier

/-- A moved encoding becomes canonical. -/
def adjust (d : Difficulty) : Adjustment → Difficulty
  | .harder => d.requiring (d.required + 1)
  | .easier => d.requiring (d.required - 1)
  | .unchanged => d

def retarget (d : Difficulty) (t : Timing) : Adjustment × Difficulty :=
  (d.adjustment t, d.adjust (d.adjustment t))

def retargetLog (d : Difficulty) (t : Timing) : LogLine where
  level := .trace
  text :=
    let (adjustment, moved) := d.retarget t
    s!"Retargeted after {t.elapsed}s (target {t.target}s): {d.required} bits, " ++
      s!"{adjustment.name} -> {moved.describe}"

end Difficulty

end ProofOfWork

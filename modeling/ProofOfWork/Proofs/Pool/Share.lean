import Mathlib.Algebra.Ring.Nat
import Mathlib.Order.Monotone.Defs
import ProofOfWork.Pool.Share

/-! The shares of the workers add up to the attempts and are as equal as they can be. -/
namespace ProofOfWork.Pool

theorem workerCount_pos (threads attempts : Nat) : 0 < workerCount threads attempts := by
  unfold workerCount
  omega

private theorem sum_extra (quotient extra workers : Nat) :
    ((List.range workers).map fun i => quotient + if i < extra then 1 else 0).sum =
      workers * quotient + min workers extra := by
  induction workers with
  | zero => simp
  | succ workers ih =>
    rw [List.range_succ, List.map_append, List.sum_append, ih, Nat.succ_mul]
    simp only [List.map_cons, List.map_nil, List.sum_cons, List.sum_nil]
    by_cases h : workers < extra
    · rw [if_pos h]
      omega
    · rw [if_neg h]
      omega

theorem sum_share (attempts : Nat) {workers : Nat} (h : 0 < workers) :
    ((List.range workers).map (share attempts workers)).sum = attempts := by
  have hextra : min workers (attempts % workers) = attempts % workers :=
    Nat.min_eq_right (Nat.le_of_lt (Nat.mod_lt attempts h))
  calc ((List.range workers).map (share attempts workers)).sum
      = workers * (attempts / workers) + min workers (attempts % workers) := sum_extra _ _ _
    _ = attempts := by rw [hextra, Nat.div_add_mod]

theorem share_le (attempts workers index : Nat) : share attempts workers index ≤ attempts := by
  have hdiv := Nat.div_add_mod attempts workers
  have hquotient : workers = 0 ∨ attempts / workers ≤ workers * (attempts / workers) := by
    rcases Nat.eq_zero_or_pos workers with hzero | hpos
    · exact .inl hzero
    · exact .inr (Nat.le_mul_of_pos_left _ hpos)
  unfold share
  rcases hquotient with rfl | hle
  · rw [Nat.div_zero, Nat.mod_zero]
    split <;> omega
  · split <;> omega

/-- A single worker makes all attempts. -/
theorem share_one (attempts : Nat) : share attempts 1 0 = attempts := by
  simp [share, Nat.mod_one]

theorem workerCount_eq_one {threads attempts : Nat} (h : min threads attempts ≤ 1) :
    workerCount threads attempts = 1 := by
  unfold workerCount
  omega

/-- The first worker has an attempt to make if there is one. -/
theorem share_zero_pos {attempts workers : Nat} (hattempts : 0 < attempts)
    (hworkers : 0 < workers) : 0 < share attempts workers 0 := by
  unfold share
  rcases Nat.lt_or_ge attempts workers with hfew | hmany
  · rw [Nat.mod_eq_of_lt hfew, if_pos hattempts]
    exact Nat.succ_pos _
  · have hquotient := Nat.div_pos hmany hworkers
    omega

end ProofOfWork.Pool

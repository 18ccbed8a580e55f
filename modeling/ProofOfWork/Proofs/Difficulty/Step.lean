import Mathlib.Data.Int.Notation
import Mathlib.Order.Defs.LinearOrder
import ProofOfWork.Difficulty.Retarget
import ProofOfWork.Proofs.Difficulty.Canonical

/-! What one retarget does to a difficulty, and to the count that it asks for. -/
namespace ProofOfWork

/-- By how much an adjustment changes the count. -/
def Adjustment.shift : Adjustment → ℤ
  | .harder => 1
  | .easier => -1
  | .unchanged => 0

namespace Difficulty

variable {d e : Difficulty} {t : Timing} {a : Adjustment}

theorem adjustment_of_fast (hlen : 8 * d.length < 2 ^ 32) (h : t.elapsed < t.target) :
    d.adjustment t = if d.required + 1 < 8 * d.length then .harder else .unchanged := by
  have hceiling : d.ceiling ≤ min (d.required + 1) countLimit ↔
      8 * d.length ≤ d.required + 1 := by
    rw [ceiling, countLimit]
    omega
  simp only [adjustment, Nat.compare_eq_lt.2 h, hceiling]
  by_cases hroom : d.required + 1 < 8 * d.length
  · rw [if_pos hroom, if_neg (Nat.not_le.2 hroom)]
  · rw [if_neg hroom, if_pos (Nat.not_lt.1 hroom)]

theorem adjustment_of_slow (h : t.target < t.elapsed) :
    d.adjustment t = if 1 < d.required then .easier else .unchanged := by
  simp only [adjustment, Nat.compare_eq_gt.2 h]
  by_cases hroom : 1 < d.required
  · rw [if_pos hroom, if_neg (Nat.not_le.2 hroom)]
  · rw [if_neg hroom, if_pos (Nat.not_lt.1 hroom)]

theorem adjustment_of_punctual (h : t.elapsed = t.target) : d.adjustment t = .unchanged := by
  simp only [adjustment, Nat.compare_eq_eq.2 h]

/-- An adjustment and the difficulty after it. Above the last bit and below the first one there is
nothing to move to. -/
inductive Moves (d : Difficulty) : Adjustment → Difficulty → Prop
  | harder : d.required + 1 < 8 * d.length → Moves d .harder (d.requiring (d.required + 1))
  | easier : 1 < d.required → Moves d .easier (d.requiring (d.required - 1))
  | unchanged : Moves d .unchanged d

theorem moves_retarget (hlen : 8 * d.length < 2 ^ 32) (t : Timing) :
    d.Moves (d.retarget t).1 (d.retarget t).2 := by
  rw [retarget]
  rcases lt_trichotomy t.elapsed t.target with hfast | hpunctual | hslow
  · rw [adjustment_of_fast hlen hfast]
    split
    · rename_i hroom
      exact .harder hroom
    · exact .unchanged
  · rw [adjustment_of_punctual hpunctual]
    exact .unchanged
  · rw [adjustment_of_slow hslow]
    split
    · rename_i hroom
      exact .easier hroom
    · exact .unchanged

/-- Only zeros are left. -/
def AllZero (d : Difficulty) : Prop :=
  ∀ b ∈ d.bytes, b = 0

theorem required_eq_iff_allZero (hlen : 8 * d.length < 2 ^ 32) :
    d.required = 8 * d.length ↔ d.AllZero := by
  rw [required, Bytes.leadingZeros_eq_zeroBits hlen, AllZero, length]
  exact Bytes.zeroBits_eq_iff

namespace Moves

theorem length_eq (h : d.Moves a e) : e.length = d.length := by
  cases h with
  | harder | easier => exact length_requiring _ d
  | unchanged => rfl

theorem required_eq (h : d.Moves a e) (hlen : 8 * d.length < 2 ^ 32) :
    (e.required : ℤ) = d.required + a.shift := by
  cases h with
  | harder hroom =>
    rw [required_requiring hlen (Nat.le_of_lt hroom)]
    rfl
  | easier hroom =>
    have hle := d.required_le
    rw [required_requiring hlen (by omega), Adjustment.shift]
    omega
  | unchanged => simp [Adjustment.shift]

/-- The last bit stays free, and the first one stays required. -/
theorem required_bounds (h : d.Moves a e) (hlen : 8 * d.length < 2 ^ 32) :
    (d.required < 8 * d.length → e.required < 8 * d.length) ∧
      (1 ≤ d.required → 1 ≤ e.required) := by
  have hcount := h.required_eq hlen
  cases h with
  | harder hroom | easier hroom | unchanged =>
    simp only [Adjustment.shift] at hcount
    omega

/-- A moved encoding is canonical. -/
theorem eq_requiring (h : d.Moves a e) (hlen : 8 * d.length < 2 ^ 32) (ha : a ≠ .unchanged) :
    e = d.requiring e.required := by
  cases h with
  | harder hroom => rw [required_requiring hlen (Nat.le_of_lt hroom)]
  | easier hroom =>
    have hle := d.required_le
    rw [required_requiring hlen (by omega)]
  | unchanged => exact absurd rfl ha

theorem eq_of_unchanged (h : d.Moves .unchanged e) : e = d := by
  cases h
  rfl

end Moves

end Difficulty

end ProofOfWork

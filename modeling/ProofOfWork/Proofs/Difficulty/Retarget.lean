import ProofOfWork.Proofs.Difficulty.Step

/-!
The law of a single retarget. A time asks for an adjustment, which is made if the count has room to
move that way and refused otherwise.
-/
namespace ProofOfWork

namespace Timing

/-- The times of two solutions, and the interval between them, as clocks keep them in words. -/
def ofWords (previous current target : UInt64) : Timing :=
  ⟨previous.toNat, current.toNat, target.toNat⟩

/-- The adjustment that a time asks for. -/
def demand (t : Timing) : Adjustment :=
  if t.elapsed < t.target then .harder
  else if t.target < t.elapsed then .easier
  else .unchanged

variable {t : Timing}

theorem demand_eq_harder_iff : t.demand = .harder ↔ t.elapsed < t.target := by
  unfold demand
  split_ifs <;> simp [*]

theorem demand_eq_easier_iff : t.demand = .easier ↔ t.target < t.elapsed := by
  unfold demand
  split_ifs <;> simp <;> omega

theorem demand_eq_unchanged_iff : t.demand = .unchanged ↔ t.elapsed = t.target := by
  unfold demand
  split_ifs <;> simp <;> omega

/-- Words are subtracted only where the difference is one. -/
theorem elapsed_ofWords (previous current target : UInt64) :
    (ofWords previous current target).elapsed =
      if previous ≤ current then (current - previous).toNat else 0 := by
  change current.toNat - previous.toNat = _
  split
  · rename_i hle
    rw [UInt64.toNat_sub_of_le _ _ hle]
  · rename_i hlt
    rw [UInt64.le_iff_toNat_le] at hlt
    omega

end Timing

namespace Difficulty

variable {d : Difficulty} {t : Timing}

/-- How many moves in one direction there is room for. -/
def room (d : Difficulty) : Adjustment → Nat
  | .harder => 8 * d.length - 1 - d.required
  | .easier => d.required - 1
  | .unchanged => 0

theorem room_harder_eq_zero_iff : d.room .harder = 0 ↔ ¬ d.required + 1 < 8 * d.length := by
  rw [room]
  omega

theorem room_easier_eq_zero_iff : d.room .easier = 0 ↔ ¬ 1 < d.required := by
  rw [room]
  omega

theorem adjustment_eq (hlen : 8 * d.length < 2 ^ 32) (t : Timing) :
    d.adjustment t = if d.room t.demand = 0 then .unchanged else t.demand := by
  cases hdemand : t.demand with
  | harder =>
    rw [adjustment_of_fast hlen (Timing.demand_eq_harder_iff.1 hdemand)]
    simp only [room_harder_eq_zero_iff, ite_not]
  | easier =>
    rw [adjustment_of_slow (Timing.demand_eq_easier_iff.1 hdemand)]
    simp only [room_easier_eq_zero_iff, ite_not]
  | unchanged =>
    rw [adjustment_of_punctual (Timing.demand_eq_unchanged_iff.1 hdemand), ite_self]

theorem retarget_eq (hlen : 8 * d.length < 2 ^ 32) (t : Timing) :
    d.retarget t =
      if d.room t.demand = 0 then (.unchanged, d) else (t.demand, d.adjust t.demand) := by
  rw [retarget, adjustment_eq hlen]
  split_ifs <;> rfl

/-- A move is made exactly if it is asked for and there is room for it. -/
theorem adjustment_eq_iff (hlen : 8 * d.length < 2 ^ 32) {a : Adjustment} (ha : a ≠ .unchanged) :
    d.adjustment t = a ↔ t.demand = a ∧ d.room a ≠ 0 := by
  rw [adjustment_eq hlen]
  split_ifs with hroom
  · constructor
    · intro h
      exact absurd h.symm ha
    · rintro ⟨rfl, hmore⟩
      exact absurd hroom hmore
  · constructor
    · rintro rfl
      exact ⟨rfl, hroom⟩
    · exact fun h => h.1

theorem adjustment_eq_harder_iff (hlen : 8 * d.length < 2 ^ 32) :
    d.adjustment t = .harder ↔ t.elapsed < t.target ∧ d.required + 1 < 8 * d.length := by
  rw [adjustment_eq_iff hlen (by decide), Timing.demand_eq_harder_iff, Ne,
    room_harder_eq_zero_iff, not_not]

theorem adjustment_eq_easier_iff (hlen : 8 * d.length < 2 ^ 32) :
    d.adjustment t = .easier ↔ t.target < t.elapsed ∧ 1 < d.required := by
  rw [adjustment_eq_iff hlen (by decide), Timing.demand_eq_easier_iff, Ne,
    room_easier_eq_zero_iff, not_not]

/-- What is moved to is the canonical encoding of the new count. -/
theorem Moves.ofZeroBits_eq {e : Difficulty} {a : Adjustment} (h : d.Moves a e)
    (hlen : 8 * d.length < 2 ^ 32) (ha : a ≠ .unchanged) :
    ofZeroBits e.required d.length = .ok e :=
  ofZeroBits_required hlen h.length_eq (h.eq_requiring hlen ha)

/-- A word holds the count that the code adds to and subtracts from, and what comes out. -/
theorem exists_countWord (hlen : 8 * d.length < 2 ^ 32) :
    ∃ bits : UInt32, bits.toNat = d.required ∧ (bits + 1).toNat = d.required + 1 ∧
      (1 < d.required → (bits - 1).toNat = d.required - 1) := by
  have hle := d.required_le
  have hbits : (UInt32.ofNat d.required).toNat = d.required := by
    rw [UInt32.toNat_ofNat']
    omega
  refine ⟨UInt32.ofNat d.required, hbits, ?_, ?_⟩
  · rw [UInt32.toNat_add, hbits, UInt32.toNat_one]
    omega
  · intro hmore
    have hone : (1 : UInt32) ≤ UInt32.ofNat d.required := by
      rw [UInt32.le_iff_toNat_le, hbits, UInt32.toNat_one]
      omega
    rw [UInt32.toNat_sub_of_le _ _ hone, hbits, UInt32.toNat_one]

/-- A call asks for one more bit after a fast solution if the last bit then stays free, and for one
fewer after a slow one if a bit then stays required; anything else is refused and no byte changes.
What is moved to is the canonical encoding of the new count. The difference of the times is taken
only where it is one, and neither count leaves its word. -/
theorem retarget_single_step (d : Difficulty) (hlen : 8 * d.length < 2 ^ 32)
    (previous current target : UInt64) :
    let t := Timing.ofWords previous current target
    let answer := (d.retarget t).1
    let moved := (d.retarget t).2
    t.elapsed = (if previous ≤ current then (current - previous).toNat else 0) ∧
    (answer = .harder ↔ t.elapsed < target.toNat ∧ d.required + 1 < 8 * d.length) ∧
    (answer = .easier ↔ target.toNat < t.elapsed ∧ 1 < d.required) ∧
    (answer = .harder →
      ofZeroBits (d.required + 1) d.length = .ok moved ∧ moved.required = d.required + 1) ∧
    (answer = .easier →
      ofZeroBits (d.required - 1) d.length = .ok moved ∧ moved.required = d.required - 1) ∧
    (answer = .unchanged → moved = d) ∧
    ∃ bits : UInt32, bits.toNat = d.required ∧ (bits + 1).toNat = d.required + 1 ∧
      (answer = .easier → (bits - 1).toNat = d.required - 1) := by
  intro t answer moved
  have hmoves : d.Moves answer moved := moves_retarget hlen t
  have hcount := hmoves.required_eq hlen
  have hharder : answer = .harder ↔ t.elapsed < target.toNat ∧ d.required + 1 < 8 * d.length :=
    adjustment_eq_harder_iff hlen
  have heasier : answer = .easier ↔ target.toNat < t.elapsed ∧ 1 < d.required :=
    adjustment_eq_easier_iff hlen
  refine ⟨Timing.elapsed_ofWords previous current target, hharder, heasier, ?_, ?_, ?_, ?_⟩
  · intro h
    have hbits : moved.required = d.required + 1 := by
      rw [h, Adjustment.shift] at hcount
      omega
    refine ⟨?_, hbits⟩
    rw [← hbits]
    exact hmoves.ofZeroBits_eq hlen (by rw [h]; decide)
  · intro h
    have hbits : moved.required = d.required - 1 := by
      rw [h, Adjustment.shift] at hcount
      omega
    refine ⟨?_, hbits⟩
    rw [← hbits]
    exact hmoves.ofZeroBits_eq hlen (by rw [h]; decide)
  · intro h
    rw [h] at hmoves
    exact hmoves.eq_of_unchanged
  · obtain ⟨bits, hbits, hmore, hfewer⟩ := exists_countWord hlen
    exact ⟨bits, hbits, hmore, fun h => hfewer (heasier.1 h).2⟩

/-- A clock that goes backwards counts as fast, and what follows the first set bit is dropped. -/
theorem retarget_single_step_backwards :
    let d : Difficulty := ⟨[0x01, 0x00], by decide⟩
    let moved := (d.retarget (.ofWords 700 10 600)).2
    8 * d.length < 2 ^ 32 ∧ d.required = 7 ∧ moved.bytes = [0x00, 0xFF] ∧
      ofZeroBits 8 2 = .ok moved ∧ moved.required = 8 := by
  intro d moved
  have hlen : 8 * d.length < 2 ^ 32 := by decide
  obtain ⟨-, hharder, -, hmoved, -, -, -⟩ := retarget_single_step d hlen 700 10 600
  obtain ⟨hencoding, hcount⟩ := hmoved (hharder.2 ⟨by decide, by decide⟩)
  exact ⟨hlen, by decide, by decide, hencoding, hcount⟩

end Difficulty

end ProofOfWork

import ProofOfWork.Proofs.Difficulty.Chain
import ProofOfWork.Proofs.Difficulty.Retarget

/-!
The same timing again and again. The moves come first, as many as there is room for, and then
nothing but refusals.
-/
namespace ProofOfWork.Difficulty

variable {d e : Difficulty} {t : Timing} {a : Adjustment}

theorem ne_unchanged_of_room (h : d.room a ≠ 0) : a ≠ .unchanged := by
  rintro rfl
  exact h rfl

/-- A move uses up the room for one. -/
theorem Moves.room_eq (h : d.Moves a e) (hlen : 8 * d.length < 2 ^ 32) (ha : a ≠ .unchanged) :
    d.room a = e.room a + 1 := by
  have hlength := h.length_eq
  have hcount := h.required_eq hlen
  cases h with
  | harder | easier =>
    simp only [Adjustment.shift] at hcount
    simp only [room]
    omega
  | unchanged => exact absurd rfl ha

/-- What has been refused once is refused again. -/
theorem retargets_replicate_of_unchanged (h : (d.retarget t).1 = .unchanged) (n : Nat) :
    d.retargets (List.replicate n t) = (List.replicate n .unchanged, d) := by
  have hsame : d.retarget t = (.unchanged, d) := by
    change d.adjustment t = .unchanged at h
    rw [retarget, h]
    rfl
  induction n with
  | zero => rfl
  | succ n ih =>
    simp only [List.replicate_succ, retargets, hsame, ih]

theorem answers_replicate (hlen : 8 * d.length < 2 ^ 32) (t : Timing) (n : Nat) :
    (d.retargets (List.replicate n t)).1 =
      List.replicate (min n (d.room t.demand)) t.demand ++
        List.replicate (n - d.room t.demand) .unchanged := by
  induction n generalizing d with
  | zero => simp [retargets]
  | succ n ih =>
    by_cases hroom : d.room t.demand = 0
    · have hrefused : (d.retarget t).1 = .unchanged := by rw [retarget_eq hlen, if_pos hroom]
      rw [retargets_replicate_of_unchanged hrefused, hroom]
      simp
    · have hmoved : d.retarget t = (t.demand, d.adjust t.demand) := by
        rw [retarget_eq hlen, if_neg hroom]
      have hmoves := moves_retarget hlen t
      rw [hmoved] at hmoves
      have hless := hmoves.room_eq hlen (ne_unchanged_of_room hroom)
      have hlater := ih (hmoves.length_eq.symm ▸ hlen)
      simp only [List.replicate_succ, retargets, hmoved, hlater, hless, Nat.add_min_add_right,
        Nat.add_sub_add_right, List.cons_append]

/-- The count after as many moves as there is room for. -/
theorem required_replicate (hlen : 8 * d.length < 2 ^ 32) (t : Timing) (n : Nat) :
    ((d.retargets (List.replicate n t)).2.required : ℤ) =
      d.required + min n (d.room t.demand) * t.demand.shift := by
  have hnet := (chain_retargets hlen (List.replicate n t)).required_eq
  rw [answers_replicate hlen] at hnet
  cases hdemand : t.demand with
  | harder | easier =>
    simp only [hdemand, List.count_append, List.count_replicate, beq_iff_eq, reduceCtorEq, if_true,
      if_false] at hnet
    rw [Adjustment.shift]
    omega
  | unchanged =>
    simp only [hdemand, List.count_append, List.count_replicate, beq_iff_eq, reduceCtorEq,
      if_false] at hnet
    rw [Adjustment.shift]
    omega

theorem required_replicate_of_fast (hlen : 8 * d.length < 2 ^ 32) (h : t.elapsed < t.target)
    (n : Nat) : (d.retargets (List.replicate n t)).2.required =
      max d.required (min (d.required + n) (8 * d.length - 1)) := by
  have hcount := required_replicate hlen t n
  rw [Timing.demand_eq_harder_iff.2 h, Adjustment.shift, room] at hcount
  omega

theorem required_replicate_of_slow (hlen : 8 * d.length < 2 ^ 32) (h : t.target < t.elapsed)
    (n : Nat) : (d.retargets (List.replicate n t)).2.required =
      min d.required (max (d.required - n) 1) := by
  have hcount := required_replicate hlen t n
  rw [Timing.demand_eq_easier_iff.2 h, Adjustment.shift, room] at hcount
  omega

/-- A difficulty stays as it is exactly if there is no room for the move that is asked for. -/
theorem retarget_eq_self_iff (hlen : 8 * d.length < 2 ^ 32) :
    (d.retarget t).2 = d ↔ d.room t.demand = 0 := by
  have hmoves := moves_retarget hlen t
  rw [retarget_eq hlen] at hmoves ⊢
  split_ifs at hmoves ⊢ with hroom
  · exact iff_of_true rfl hroom
  · refine iff_of_false ?_ hroom
    intro hsame
    have hless := hmoves.room_eq hlen (ne_unchanged_of_room hroom)
    rw [hsame] at hless
    omega

theorem retarget_eq_self_iff_of_fast (hlen : 8 * d.length < 2 ^ 32) (h : t.elapsed < t.target) :
    (d.retarget t).2 = d ↔ d.required = 8 * d.length - 1 ∨ d.AllZero := by
  have hpos := d.length_pos
  have hle := d.required_le
  rw [retarget_eq_self_iff hlen, Timing.demand_eq_harder_iff.2 h, room_harder_eq_zero_iff,
    ← required_eq_iff_allZero hlen]
  omega

theorem retarget_eq_self_iff_of_slow (hlen : 8 * d.length < 2 ^ 32) (h : t.target < t.elapsed) :
    (d.retarget t).2 = d ↔ d.required = 1 ∨ d.required = 0 := by
  rw [retarget_eq_self_iff hlen, Timing.demand_eq_easier_iff.2 h, room_easier_eq_zero_iff]
  omega

/-- Under one timing a fast solution makes the count grow up to the last bit but one, and a slow one
makes it shrink to the first bit, one bit a call and with refusals only at the end; a count that is
already outside these limits stays. What is refused once is refused again, and a difficulty is left
alone exactly at the limit or outside of it. -/
theorem retargets_same_timing (d : Difficulty) (hlen : 8 * d.length < 2 ^ 32) (t : Timing)
    (n : Nat) :
    let answers := (d.retargets (List.replicate n t)).1
    let last := (d.retargets (List.replicate n t)).2
    (t.elapsed < t.target →
      last.required = max d.required (min (d.required + n) (8 * d.length - 1)) ∧
      answers = List.replicate (min n (8 * d.length - 1 - d.required)) .harder ++
        List.replicate (n - (8 * d.length - 1 - d.required)) .unchanged) ∧
    (t.target < t.elapsed →
      last.required = min d.required (max (d.required - n) 1) ∧
      answers = List.replicate (min n (d.required - 1)) .easier ++
        List.replicate (n - (d.required - 1)) .unchanged) ∧
    (t.elapsed = t.target → answers = List.replicate n .unchanged ∧ last = d) ∧
    ((d.retarget t).1 = .unchanged → answers = List.replicate n .unchanged ∧ last = d) ∧
    (t.elapsed < t.target →
      ((d.retarget t).2 = d ↔ d.required = 8 * d.length - 1 ∨ d.AllZero)) ∧
    (t.target < t.elapsed → ((d.retarget t).2 = d ↔ d.required = 1 ∨ d.required = 0)) := by
  intro answers last
  have hanswers := answers_replicate hlen t n
  have hrefused : (d.retarget t).1 = .unchanged →
      answers = List.replicate n .unchanged ∧ last = d := by
    intro h
    have hall := retargets_replicate_of_unchanged h n
    exact ⟨congrArg Prod.fst hall, congrArg Prod.snd hall⟩
  refine ⟨?_, ?_, ?_, hrefused, retarget_eq_self_iff_of_fast hlen,
    retarget_eq_self_iff_of_slow hlen⟩
  · intro hfast
    rw [Timing.demand_eq_harder_iff.2 hfast] at hanswers
    exact ⟨required_replicate_of_fast hlen hfast n, hanswers⟩
  · intro hslow
    rw [Timing.demand_eq_easier_iff.2 hslow] at hanswers
    exact ⟨required_replicate_of_slow hlen hslow n, hanswers⟩
  · intro hpunctual
    exact hrefused (adjustment_of_punctual hpunctual)

theorem retargets_same_timing_one_byte :
    let d : Difficulty := ⟨[0x06], by decide⟩
    let fast : Timing := ⟨0, 1, 600⟩
    let slow : Timing := ⟨0, 601, 600⟩
    8 * d.length < 2 ^ 32 ∧ d.required = 5 ∧ fast.elapsed < fast.target ∧
      slow.target < slow.elapsed ∧
      (d.retargets (List.replicate 4 fast)).1 = [.harder, .harder, .unchanged, .unchanged] ∧
      (d.retargets (List.replicate 4 fast)).2.required = 7 ∧
      (d.retargets (List.replicate 5 slow)).1 =
        [.easier, .easier, .easier, .easier, .unchanged] ∧
      (d.retargets (List.replicate 5 slow)).2.required = 1 := by
  intro d fast slow
  have hlen : 8 * d.length < 2 ^ 32 := by decide
  have hfast : fast.elapsed < fast.target := by decide
  have hslow : slow.target < slow.elapsed := by decide
  obtain ⟨hup, -⟩ := retargets_same_timing d hlen fast 4
  obtain ⟨-, hdown, -⟩ := retargets_same_timing d hlen slow 5
  obtain ⟨hmost, hharder⟩ := hup hfast
  obtain ⟨hleast, heasier⟩ := hdown hslow
  exact ⟨hlen, by decide, hfast, hslow, hharder, hmost, heasier, hleast⟩

end ProofOfWork.Difficulty

import Mathlib.Data.List.Count
import ProofOfWork.Proofs.Difficulty.Step

/-!
Retargets in a row. Whatever the timings are, the encoding that they lead to is the canonical one of
the net count, unless no call has moved it.
-/
namespace ProofOfWork.Difficulty

/-- The adjustment of each call, and the difficulty after the last one. -/
def retargets (d : Difficulty) : List Timing → List Adjustment × Difficulty
  | [] => ([], d)
  | t :: later =>
    let (adjustment, moved) := d.retarget t
    let (adjustments, last) := moved.retargets later
    (adjustment :: adjustments, last)

/-- What a chain of adjustments leads to. -/
structure Chain (d : Difficulty) (as : List Adjustment) (e : Difficulty) : Prop where
  length_eq : e.length = d.length
  required_eq : e.required + as.count .easier = d.required + as.count .harder
  lt_of_lt : d.required < 8 * d.length → e.required < 8 * d.length
  pos_of_pos : 1 ≤ d.required → 1 ≤ e.required
  eq_of_unchanged : (∀ a ∈ as, a = .unchanged) → e = d
  eq_of_moved : (∃ a ∈ as, a ≠ .unchanged) → e = d.requiring e.required

variable {d e f : Difficulty} {a : Adjustment} {as : List Adjustment}

theorem chain_nil (d : Difficulty) : d.Chain [] d where
  length_eq := rfl
  required_eq := rfl
  lt_of_lt := id
  pos_of_pos := id
  eq_of_unchanged := fun _ => rfl
  eq_of_moved := by
    rintro ⟨a, ha, -⟩
    cases ha

/-- A step in front of a chain. -/
theorem Chain.cons (hlen : 8 * d.length < 2 ^ 32) (hstep : d.Moves a e) (h : e.Chain as f) :
    d.Chain (a :: as) f := by
  have hlength := hstep.length_eq
  obtain ⟨hlt, hpos⟩ := hstep.required_bounds hlen
  refine ⟨h.length_eq.trans hlength, ?_, ?_, ?_, ?_, ?_⟩
  · have hfirst := hstep.required_eq hlen
    have hlater := h.required_eq
    cases hstep with
    | harder | easier | unchanged =>
      simp only [Adjustment.shift] at hfirst
      simp only [List.count_cons, beq_iff_eq, reduceCtorEq, if_true, if_false]
      omega
  · intro hd
    rw [← hlength]
    exact h.lt_of_lt (hlength.symm ▸ hlt hd)
  · exact fun hd => h.pos_of_pos (hpos hd)
  · intro hall
    obtain ⟨ha, hlater⟩ := List.forall_mem_cons.1 hall
    subst ha
    rw [h.eq_of_unchanged hlater, hstep.eq_of_unchanged]
  · intro hmoved
    by_cases hlater : ∃ b ∈ as, b ≠ .unchanged
    · rw [requiring_eq_of_length_eq hlength.symm]
      exact h.eq_of_moved hlater
    · have hsame : f = e := h.eq_of_unchanged (by simpa using hlater)
      subst hsame
      refine hstep.eq_requiring hlen ?_
      obtain ⟨b, hb, hne⟩ := hmoved
      rcases List.mem_cons.1 hb with rfl | hb
      · exact hne
      · exact absurd ⟨b, hb, hne⟩ hlater

theorem chain_retargets (hlen : 8 * d.length < 2 ^ 32) (ts : List Timing) :
    d.Chain (d.retargets ts).1 (d.retargets ts).2 := by
  induction ts generalizing d with
  | nil => exact chain_nil d
  | cons t later ih =>
    have hstep := moves_retarget hlen t
    exact .cons hlen hstep (ih (hstep.length_eq.symm ▸ hlen))

/-- The net count is that of the canonical encoding. -/
theorem Chain.ofZeroBits_eq (hlen : 8 * d.length < 2 ^ 32) (h : d.Chain as e)
    (hmoved : ∃ a ∈ as, a ≠ .unchanged) :
    ofZeroBits (d.required + as.count .harder - as.count .easier) d.length = .ok e := by
  have hcount := h.required_eq
  have hbits : d.required + as.count .harder - as.count .easier = e.required := by omega
  rw [hbits]
  exact ofZeroBits_required hlen h.length_eq (h.eq_of_moved hmoved)

/-- What holds after any number of calls with any timings: the length stays, and so does a count
between the first bit and the last one; each call changes the count by what it answers; an encoding
that some call has moved is the canonical one of the net count, and any other is untouched. -/
theorem retargets_invariants (d : Difficulty) (hlen : 8 * d.length < 2 ^ 32) (ts : List Timing) :
    (d.retargets ts).2.length = d.length ∧
    (∀ front t later, ts = front ++ t :: later →
      (((d.retargets front).2.retarget t).2.required : ℤ) =
        (d.retargets front).2.required + ((d.retargets front).2.retarget t).1.shift) ∧
    (¬ d.AllZero → ¬ (d.retargets ts).2.AllZero) ∧
    (1 ≤ d.required → 1 ≤ (d.retargets ts).2.required) ∧
    (1 ≤ d.required → d.required ≤ 8 * d.length - 1 →
      1 ≤ (d.retargets ts).2.required ∧ (d.retargets ts).2.required ≤ 8 * d.length - 1) ∧
    ((∀ a ∈ (d.retargets ts).1, a = .unchanged) → (d.retargets ts).2 = d) ∧
    ((∃ a ∈ (d.retargets ts).1, a ≠ .unchanged) → ∃ bits : Nat,
      (bits : ℤ) = d.required + (d.retargets ts).1.count .harder -
        (d.retargets ts).1.count .easier ∧
      ofZeroBits bits d.length = .ok (d.retargets ts).2) := by
  have h := chain_retargets hlen ts
  have hpos := d.length_pos
  refine ⟨h.length_eq, ?_, ?_, h.pos_of_pos, ?_, h.eq_of_unchanged, ?_⟩
  · intro front t later _
    have hfront : 8 * (d.retargets front).2.length < 2 ^ 32 := by
      rw [(chain_retargets hlen front).length_eq]
      exact hlen
    exact (moves_retarget hfront t).required_eq hfront
  · intro hstart hend
    have hlast : 8 * (d.retargets ts).2.length < 2 ^ 32 := h.length_eq.symm ▸ hlen
    have hall := (required_eq_iff_allZero hlast).2 hend
    rw [h.length_eq] at hall
    have hnot := mt (required_eq_iff_allZero hlen).1 hstart
    have hlt := h.lt_of_lt (Nat.lt_of_le_of_ne d.required_le hnot)
    omega
  · intro hone hlast
    have hlt := h.lt_of_lt (by omega)
    exact ⟨h.pos_of_pos hone, by omega⟩
  · intro hmoved
    refine ⟨_, ?_, h.ofZeroBits_eq hlen hmoved⟩
    have hcount := h.required_eq
    omega

theorem retargets_invariants_three_calls :
    let d : Difficulty := ⟨[0x01, 0x0F], by decide⟩
    let ts : List Timing := [⟨0, 1, 600⟩, ⟨700, 10, 600⟩, ⟨0, 601, 600⟩]
    8 * d.length < 2 ^ 32 ∧ (d.retargets ts).1 = [.harder, .harder, .easier] ∧
      1 ≤ d.required ∧ ¬ (d.retargets ts).2.AllZero ∧
      ∃ bits : Nat, (bits : ℤ) = 7 + 2 - 1 ∧ ofZeroBits bits 2 = .ok (d.retargets ts).2 := by
  intro d ts
  have hlen : 8 * d.length < 2 ^ 32 := by decide
  have hstart : ¬ d.AllZero := by
    intro hzero
    exact absurd (hzero 0x01 List.mem_cons_self) (by decide)
  have hanswers : (d.retargets ts).1 = [.harder, .harder, .easier] := by decide
  obtain ⟨-, -, hend, -, -, -, hmoved⟩ := retargets_invariants d hlen ts
  rw [hanswers] at hmoved
  exact ⟨hlen, hanswers, by decide, hend hstart, hmoved ⟨.harder, by decide, by decide⟩⟩

end ProofOfWork.Difficulty

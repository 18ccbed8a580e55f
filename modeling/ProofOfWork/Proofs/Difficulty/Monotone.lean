import Mathlib.Data.List.Forall2
import ProofOfWork.Proofs.Difficulty.Chain
import ProofOfWork.Proofs.Difficulty.Retarget

/-!
Two chains of retargets side by side. Slower timings never lead to the greater count, and under the
same timings two counts never move apart.
-/
namespace ProofOfWork

namespace Timing

/-- The same time against the same target, whatever the clocks showed. -/
structure Alike (t u : Timing) : Prop where
  elapsed_eq : t.elapsed = u.elapsed
  target_eq : t.target = u.target

/-- Against its own target the one time is at least as slow as the other. -/
structure AtLeastAsSlow (t u : Timing) : Prop where
  late_of_late : u.target < u.elapsed → t.target < t.elapsed
  not_early_of_not_early : u.target ≤ u.elapsed → t.target ≤ t.elapsed

variable {t u : Timing}

theorem AtLeastAsSlow.shift_le (h : t.AtLeastAsSlow u) :
    t.demand.shift ≤ u.demand.shift := by
  cases hu : u.demand with
  | harder => cases t.demand <;> decide
  | unchanged =>
    have hnot := h.not_early_of_not_early (Nat.le_of_eq (demand_eq_unchanged_iff.1 hu).symm)
    cases ht : t.demand with
    | harder => exact absurd (demand_eq_harder_iff.1 ht) (Nat.not_lt.2 hnot)
    | easier | unchanged => decide
  | easier =>
    have hlate := h.late_of_late (demand_eq_easier_iff.1 hu)
    rw [demand_eq_easier_iff.2 hlate]

theorem Alike.demand_eq (h : t.Alike u) : t.demand = u.demand := by
  rw [demand, demand, h.elapsed_eq, h.target_eq]

theorem Alike.atLeastAsSlow (h : t.Alike u) : t.AtLeastAsSlow u := by
  obtain ⟨helapsed, htarget⟩ := h
  exact ⟨by omega, by omega⟩

end Timing

namespace Adjustment

variable {a b : Adjustment} {bits k m : Nat}

/-- What a demand makes of the count of an encoding of so many bits. -/
def advance (bits : Nat) : Adjustment → Nat → Nat
  | .harder, k => if k + 1 < bits then k + 1 else k
  | .easier, k => if 1 < k then k - 1 else k
  | .unchanged, k => k

theorem advance_le_advance (a : Adjustment) (h : k ≤ m) : a.advance bits k ≤ a.advance bits m := by
  cases a with
  | harder | easier =>
    simp only [advance]
    split_ifs <;> omega
  | unchanged => exact h

theorem le_advance_harder : k ≤ harder.advance bits k := by
  rw [advance]
  split_ifs <;> omega

theorem advance_easier_le : easier.advance bits k ≤ k := by
  rw [advance]
  split_ifs <;> omega

theorem advance_le_of_shift_le (h : a.shift ≤ b.shift) : a.advance bits k ≤ b.advance bits k := by
  cases a with
  | easier =>
    cases b with
    | easier => exact Nat.le_refl _
    | unchanged => exact advance_easier_le
    | harder => exact Nat.le_trans advance_easier_le le_advance_harder
  | unchanged =>
    cases b with
    | easier => exact absurd h (by decide)
    | unchanged => exact Nat.le_refl _
    | harder => exact le_advance_harder
  | harder =>
    cases b with
    | harder => exact Nat.le_refl _
    | easier | unchanged => exact absurd h (by decide)

/-- The greater count moves away from the lower one by no more than that follows. -/
theorem advance_add_le (a : Adjustment) (h : k ≤ m) :
    a.advance bits m + k ≤ m + a.advance bits k := by
  cases a with
  | harder | easier =>
    simp only [advance]
    split_ifs <;> omega
  | unchanged => exact Nat.le_refl _

end Adjustment

namespace Difficulty

variable {d e : Difficulty} {t u : Timing} {ts us : List Timing}

/-- Whether a move is made depends on nothing but the count and what is asked for. -/
theorem required_retarget (hlen : 8 * d.length < 2 ^ 32) (t : Timing) :
    (d.retarget t).2.required = t.demand.advance (8 * d.length) d.required := by
  have hcount := (moves_retarget hlen t).required_eq hlen
  have hanswer : (d.retarget t).1 = if d.room t.demand = 0 then .unchanged else t.demand :=
    adjustment_eq hlen t
  rw [hanswer] at hcount
  cases hdemand : t.demand with
  | harder | easier =>
    simp only [hdemand, room_harder_eq_zero_iff, room_easier_eq_zero_iff, ite_not] at hcount
    simp only [Adjustment.advance]
    split_ifs at hcount ⊢
    all_goals
      simp only [Adjustment.shift] at hcount
      omega
  | unchanged =>
    simp only [hdemand, ite_self, Adjustment.shift] at hcount
    simp only [Adjustment.advance]
    omega

/-- One call: a slower time makes no more of a count that is no greater. -/
theorem required_retarget_le (hlen : 8 * d.length < 2 ^ 32) (hlength : d.length = e.length)
    (hle : d.required ≤ e.required) (h : t.AtLeastAsSlow u) :
    (d.retarget t).2.required ≤ (e.retarget u).2.required := by
  rw [required_retarget hlen, required_retarget (hlength ▸ hlen), ← hlength]
  calc
    t.demand.advance (8 * d.length) d.required
      ≤ t.demand.advance (8 * d.length) e.required := Adjustment.advance_le_advance _ hle
    _ ≤ u.demand.advance (8 * d.length) e.required := Adjustment.advance_le_of_shift_le h.shift_le

/-- One call: what a same demand adds to the greater count it adds to the other one as well, unless
that stays behind its limit. -/
theorem required_retarget_add_le (hlen : 8 * d.length < 2 ^ 32) (hlength : d.length = e.length)
    (hle : d.required ≤ e.required) (h : t.demand = u.demand) :
    (e.retarget u).2.required + d.required ≤ e.required + (d.retarget t).2.required := by
  rw [required_retarget hlen, required_retarget (hlength ▸ hlen), ← hlength, h]
  exact Adjustment.advance_add_le _ hle

theorem length_retarget (hlen : 8 * d.length < 2 ^ 32) (t : Timing) :
    (d.retarget t).2.length = d.length :=
  (moves_retarget hlen t).length_eq

theorem required_retargets_le (hlen : 8 * d.length < 2 ^ 32) (hlength : d.length = e.length)
    (hle : d.required ≤ e.required) (h : List.Forall₂ Timing.AtLeastAsSlow ts us) :
    (d.retargets ts).2.required ≤ (e.retargets us).2.required := by
  induction h generalizing d e with
  | nil => exact hle
  | @cons t u ts us hslow _ ih =>
    have hd := length_retarget hlen t
    have he := length_retarget (hlength ▸ hlen) u
    exact ih (hd.symm ▸ hlen) (hd.trans (hlength.trans he.symm))
      (required_retarget_le hlen hlength hle hslow)

theorem required_retargets_add_le (hlen : 8 * d.length < 2 ^ 32) (hlength : d.length = e.length)
    (hle : d.required ≤ e.required) (h : List.Forall₂ Timing.Alike ts us) :
    (e.retargets us).2.required + d.required ≤ e.required + (d.retargets ts).2.required := by
  induction h generalizing d e with
  | nil => exact Nat.le_refl _
  | @cons t u ts us halike _ ih =>
    have hd := length_retarget hlen t
    have he := length_retarget (hlength ▸ hlen) u
    have hfirst := required_retarget_add_le hlen hlength hle halike.demand_eq
    have hlater := ih (hd.symm ▸ hlen) (hd.trans (hlength.trans he.symm))
      (required_retarget_le hlen hlength hle halike.atLeastAsSlow)
    change ((e.retarget u).2.retargets us).2.required + d.required ≤
      e.required + ((d.retarget t).2.retargets ts).2.required
    omega

theorem retargets_append (d : Difficulty) (ts us : List Timing) :
    (d.retargets (ts ++ us)).2 = ((d.retargets ts).2.retargets us).2 := by
  induction ts generalizing d with
  | nil => rfl
  | cons t ts ih => exact ih (d.retarget t).2

/-- After any number of calls the chain with the slower timings has the count that is no greater, if
it had it at the start. Under the same timings the greater count never gets further ahead. -/
theorem retargets_keep_order (d e : Difficulty) (hlen : 8 * d.length < 2 ^ 32)
    (hlength : d.length = e.length) (hle : d.required ≤ e.required) (ts us : List Timing) :
    (List.Forall₂ Timing.AtLeastAsSlow ts us → ∀ n,
      (d.retargets (ts.take n)).2.required ≤ (e.retargets (us.take n)).2.required) ∧
    (List.Forall₂ (fun t u => t.target = u.target ∧ u.elapsed ≤ t.elapsed) ts us → ∀ n,
      (d.retargets (ts.take n)).2.required ≤ (e.retargets (us.take n)).2.required) ∧
    (List.Forall₂ Timing.Alike ts us → ∀ m n, m ≤ n →
      ((e.retargets (us.take n)).2.required : ℤ) - (d.retargets (ts.take n)).2.required ≤
        (e.retargets (us.take m)).2.required - (d.retargets (ts.take m)).2.required) := by
  have ordered (h : List.Forall₂ Timing.AtLeastAsSlow ts us) (n : Nat) :
      (d.retargets (ts.take n)).2.required ≤ (e.retargets (us.take n)).2.required :=
    required_retargets_le hlen hlength hle (List.forall₂_take n h)
  refine ⟨ordered, ?_, ?_⟩
  · intro h
    refine ordered (h.imp ?_)
    rintro t u ⟨htarget, helapsed⟩
    exact ⟨by omega, by omega⟩
  · intro h m n hmn
    -- the calls after the first `m` make up a run of their own
    have split (vs : List Timing) : vs.take n = vs.take m ++ (vs.take n).drop m := by
      have hfront : (vs.take n).take m = vs.take m := by rw [List.take_take, Nat.min_eq_left hmn]
      rw [← hfront, List.take_append_drop]
    have hslow := ordered (h.imp fun _ _ halike => halike.atLeastAsSlow) m
    have hd := (chain_retargets hlen (ts.take m)).length_eq
    have he := (chain_retargets (hlength ▸ hlen) (us.take m)).length_eq
    have hlater := required_retargets_add_le (hd.symm ▸ hlen) (hd.trans (hlength.trans he.symm))
      hslow (List.forall₂_drop m (List.forall₂_take n h))
    rw [← retargets_append, ← retargets_append, ← split, ← split] at hlater
    omega

theorem retargets_keep_order_two_calls :
    let d : Difficulty := ⟨[0x0F], by decide⟩
    let e : Difficulty := ⟨[0x02], by decide⟩
    let slow : Timing := ⟨0, 601, 600⟩
    let punctual : Timing := ⟨0, 600, 600⟩
    let fast : Timing := ⟨0, 1, 600⟩
    8 * d.length < 2 ^ 32 ∧ d.length = e.length ∧ d.required ≤ e.required ∧
      (d.retargets [slow, fast]).2.required ≤ (e.retargets [punctual, fast]).2.required ∧
      ((e.retargets [fast, fast]).2.required : ℤ) - (d.retargets [fast, fast]).2.required ≤
        (e.retargets [fast]).2.required - (d.retargets [fast]).2.required := by
  intro d e slow punctual fast
  have hlen : 8 * d.length < 2 ^ 32 := by decide
  have hlength : d.length = e.length := by decide
  have hle : d.required ≤ e.required := by decide
  have hslow : List.Forall₂ Timing.AtLeastAsSlow [slow, fast] [punctual, fast] :=
    .cons ⟨by decide, by decide⟩ (.cons ⟨by decide, by decide⟩ .nil)
  have hsame : List.Forall₂ Timing.Alike [fast, fast] [fast, fast] :=
    .cons ⟨rfl, rfl⟩ (.cons ⟨rfl, rfl⟩ .nil)
  obtain ⟨hordered, -⟩ := retargets_keep_order d e hlen hlength hle [slow, fast] [punctual, fast]
  obtain ⟨-, -, hgap⟩ := retargets_keep_order d e hlen hlength hle [fast, fast] [fast, fast]
  exact ⟨hlen, hlength, hle, hordered hslow 2, hgap hsame 1 2 (by decide)⟩

end Difficulty

end ProofOfWork

import ProofOfWork.Proofs.Search.Items
import ProofOfWork.Proofs.Search.Sink

/-! Searches that are complete: all attempts were made, or the last one has ended the search. -/
namespace ProofOfWork

namespace Mode

/-- The attempts of a search that nothing has cut short. -/
inductive Completes (mode : Mode) (attempts : Nat) (seen : List Attempt) : Prop
  | all : mode.GoesOn seen → seen.length = attempts → Completes mode attempts seen
  | ended (front : List Attempt) (a : Attempt) : seen = front ++ [a] → mode.GoesOn front →
      mode.endsWith (.ok a) = true → Completes mode attempts seen

variable {attempts : Nat} {seen : List Attempt}

theorem Completes.length_eq (h : exhaustive.Completes attempts seen) :
    seen.length = attempts := by
  cases h with
  | all _ hlength => exact hlength
  | ended front a _ _ hends => simp [endsWith] at hends

/-- The only pass comes last, or there is none. -/
theorem Completes.firstPass_cases (h : firstPass.Completes attempts seen) :
    (∃ front a, seen = front ++ [a] ∧ a.passed = true ∧ ∀ b ∈ front, b.passed = false) ∨
      (∀ a ∈ seen, a.passed = false) ∧ seen.length = attempts := by
  cases h with
  | all hgoes hlength => exact .inr ⟨goesOn_firstPass.1 hgoes, hlength⟩
  | ended front a hseen hgoes hends =>
    have hpass : a.passed = true := by simpa [endsWith] using hends
    exact .inl ⟨front, a, hseen, hpass, goesOn_firstPass.1 hgoes⟩

theorem Completes.cons {mode : Mode} {a : Attempt} (ha : mode.endsWith (.ok a) = false)
    (h : mode.Completes attempts seen) : mode.Completes (attempts + 1) (a :: seen) := by
  have hgoes : ∀ {later}, mode.GoesOn later → mode.GoesOn (a :: later) := by
    intro later hlater b hb
    rcases List.mem_cons.1 hb with rfl | hb
    · exact ha
    · exact hlater b hb
  cases h with
  | all hall hlength => exact .all (hgoes hall) (congrArg Nat.succ hlength)
  | ended front b hseen hfront hends => exact .ended (a :: front) b (hseen ▸ rfl) (hgoes hfront) hends

end Mode

/-- A search whose items are all attempts is complete. -/
theorem Search.completes_of_itemsFrom {s : Search σ} {count : Nat} {state : σ}
    {seen : List Attempt} (h : s.itemsFrom count state = seen.map .ok) :
    s.mode.Completes count seen := by
  induction count generalizing state seen with
  | zero =>
    obtain rfl : seen = [] := List.map_eq_nil_iff.1 h.symm
    refine .all ?_ rfl
    intro a ha
    cases ha
  | succ count ih =>
    rw [itemsFrom] at h
    cases seen with
    | nil => cases h
    | cons a seen =>
      obtain ⟨ha, hlater⟩ := List.cons.inj h
      rw [ha, Mode.stopsAt_ok] at hlater
      cases hends : s.mode.endsWith (.ok a) with
      | true =>
        rw [if_pos hends] at hlater
        obtain rfl : seen = [] := List.map_eq_nil_iff.1 hlater.symm
        refine .ended [] a rfl ?_ hends
        intro b hb
        cases hb
      | false =>
        rw [hends, if_neg Bool.false_ne_true] at hlater
        exact (ih hlater).cons hends

end ProofOfWork

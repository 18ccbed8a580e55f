import ProofOfWork.Proofs.Pool.Delivery

/-!
Which workers of a pool are launched: all of them before the manager looks at the first item, or only
those before the first one whose thread is not made, and then the sink is given nothing.
-/
namespace ProofOfWork.Pool

namespace Launcher

/-- The threads of so many workers are made. -/
def Grants (l : Launcher) (count : Nat) : Prop :=
  ∀ i < count, l i = .ok ()

/-- Among so many workers, number `n` is the first one whose thread is not made. -/
structure Denies (l : Launcher) (count n : Nat) (cause : String) : Prop where
  lt : n < count
  grants : l.Grants n
  answer_eq : l n = .error cause

variable {l : Launcher} {count n : Nat} {cause : String}

theorem willing_grants (count : Nat) : willing.Grants count :=
  fun _ _ => rfl

theorem Grants.succ (h : l.Grants n) (hn : l n = .ok ()) : l.Grants (n + 1) := by
  intro i hi
  rcases Nat.lt_succ_iff_lt_or_eq.1 hi with hlt | rfl
  · exact h i hlt
  · exact hn

theorem Grants.mono {few : Nat} (h : l.Grants count) (hle : few ≤ count) : l.Grants few :=
  fun i hi => h i (Nat.lt_of_lt_of_le hi hle)

theorem Denies.not_grants (h : l.Denies count n cause) : ¬ l.Grants count := by
  intro hgrants
  have hanswer := hgrants n h.lt
  rw [h.answer_eq] at hanswer
  cases hanswer

theorem Denies.unique {m : Nat} {reason : String} (h : l.Denies count n cause)
    (h' : l.Denies count m reason) : n = m ∧ cause = reason := by
  obtain rfl : n = m := by
    rcases Nat.lt_trichotomy n m with hlt | heq | hlt
    · exact absurd h'.grants (Denies.not_grants ⟨hlt, h.grants, h.answer_eq⟩)
    · exact heq
    · exact absurd h.grants (Denies.not_grants ⟨hlt, h'.grants, h'.answer_eq⟩)
  have hanswers : Except.error cause = Except.error reason := h.answer_eq.symm.trans h'.answer_eq
  exact ⟨rfl, Except.error.inj hanswers⟩

end Launcher

variable {r : Rules ι τ ε} {t : τ} {s u : State ι (List Attempt × τ) ε}

namespace State

/-- How far the manager has come with the launching of workers. -/
inductive Launching (r : Rules ι τ ε) (s : State ι (List Attempt × τ) ε) : Prop
  | running (n) : s.manager = .launching n → r.launcher.Grants n → s.received = [] → Launching r s
  | done : (∀ n, s.manager ≠ .launching n) → r.launcher.Grants s.workers.length → Launching r s
  | denied (n cause) : r.launcher.Denies s.workers.length n cause → s.manager.hasLeft = true →
      s.failure = some (.search (.launchFailed cause)) → s.received = [] → Launching r s

namespace Launching

/-- Other moves than those that launch keep it, since they find the failure of a launch as it is. -/
theorem of_eq (h : Launching r s) (hlength : u.workers.length = s.workers.length)
    (hlaunching : ∀ n, u.manager = .launching n ↔ s.manager = .launching n)
    (hsink : ∀ n, s.manager = .launching n → u.sink = s.sink)
    (hleft : s.manager.hasLeft = true →
      u.manager.hasLeft = true ∧ u.failure = s.failure ∧ u.sink = s.sink) : Launching r u := by
  cases h with
  | running n hm hgrants hreceived =>
    refine .running n ((hlaunching n).2 hm) hgrants ?_
    rw [received, hsink n hm]
    exact hreceived
  | done hm hgrants => exact .done (fun n hu => hm n ((hlaunching n).1 hu)) (hlength ▸ hgrants)
  | denied n cause hdenies hl hfailure hreceived =>
    obtain ⟨hl, hf, hs⟩ := hleft hl
    refine .denied n cause (hlength ▸ hdenies) hl (hf.trans hfailure) ?_
    rw [received, hs]
    exact hreceived

/-- The manager launches one worker after the other, and none of them was denied yet. -/
theorem of_launching (h : Launching r s) {n : Nat} (hm : s.manager = .launching n) :
    r.launcher.Grants n ∧ s.received = [] := by
  cases h with
  | running m hm' hgrants hreceived =>
    obtain rfl : m = n := by simpa [hm] using hm'.symm
    exact ⟨hgrants, hreceived⟩
  | done hnone => exact absurd hm (hnone n)
  | denied _ _ _ hl =>
    rw [hm] at hl
    cases hl

theorem move (h : Launching r s) (hmove : Move r.noting s u) : Launching r u := by
  cases hmove with
  | @launch n w hm hw hlaunch =>
    obtain ⟨hgrants, hreceived⟩ := h.of_launching hm
    exact .running (n + 1) rfl (hgrants.succ hlaunch) hreceived
  | @abandon n cause hm hlt hdenied =>
    obtain ⟨hgrants, hreceived⟩ := h.of_launching hm
    have hlength : (s.abandon cause).workers.length = s.workers.length := List.length_map _
    exact .denied n cause ⟨hlength ▸ hlt, hgrants, hdenied⟩ rfl rfl hreceived
  | @listen n hm hw =>
    obtain ⟨hgrants, -⟩ := h.of_launching hm
    refine .done nofun fun i hi => ?_
    exact hgrants i (Nat.lt_of_lt_of_le hi (List.getElem?_eq_none_iff.1 hw))
  | work hw hmove =>
    exact h.of_eq (List.length_set ..) (fun _ => Iff.rfl) (fun _ _ => rfl)
      fun hl => ⟨hl, rfl, rfl⟩
  | fail hm | refuse hm | finish hm | accept hm | drain hm =>
    exact h.of_eq rfl (by simp [hm]) (by simp [hm]) (by simp [hm, Manager.hasLeft])
  | stop hm | close hm | join hm =>
    exact h.of_eq rfl (by simp [hm]) (by simp [hm]) fun _ => ⟨rfl, rfl, rfl⟩

end Launching

end State

theorem Reaches.launching {starts : List (Except SearchError ι)}
    (h : Reaches r.noting (.initial starts ([], t)) s) : s.Launching r :=
  h.invariant (.running 0 rfl nofun rfl) fun _ _ => State.Launching.move

end ProofOfWork.Pool

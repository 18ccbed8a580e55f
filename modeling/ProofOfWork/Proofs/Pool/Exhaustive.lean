import ProofOfWork.Proofs.Pool.Outcome

/-!
Exhaustive searches by a pool lose no attempt and double none, whatever the order of moves.
-/
namespace ProofOfWork.Pool

variable {c : Call τ ε} {s : State (Search ChaCha.Generator) (List Attempt × τ) ε}

namespace Call.Admitted

/-- In an exhaustive search that was not cut short a worker crashes exactly if its share breaks
down. -/
theorem hasCrashed_iff (h : c.Admitted) (hs : c.Ends s) (hmode : c.workers.mode = .exhaustive)
    (hcut : ¬ s.CutShort c.workers.mode) :
    (∃ w ∈ s.workers, w.hasCrashed = true) ↔
      ∃ i < c.count, ∃ item ∈ c.share i, Item.breaksDown item = true := by
  constructor
  · exact h.exists_breaksDown hs.reaches
  · rintro ⟨i, hi, item, hitem, hb⟩
    rw [← h.items_exhaustive hmode] at hitem
    exact h.hasCrashed_of_breaksDown hs hcut hi hitem hb

/-- Without a crash it has delivered the portions, and these are complete. -/
theorem shuffle_portions (h : c.Admitted) (hs : c.Ends s) (hmode : c.workers.mode = .exhaustive)
    (hcut : ¬ s.CutShort c.workers.mode) (hcrash : ∀ w ∈ s.workers, w.hasCrashed = false) :
    Shuffle ((List.range c.count).map c.portion) s.received ∧
      ∀ i < c.count, (c.portion i).length = Pool.share c.plan.attempts c.count i := by
  have hshuffle := h.shuffle hs hcut hcrash
  have hportions : (fun i => attemptsOf ((c.task i).items)) = c.portion := by
    funext i
    rw [h.items_exhaustive hmode, portion]
  rw [hportions] at hshuffle
  refine ⟨hshuffle, fun i hi => h.length_portion fun item hitem => ?_⟩
  apply Bool.eq_false_iff.2
  intro hb
  obtain ⟨w, hw, hc⟩ := (h.hasCrashed_iff hs hmode hcut).2 ⟨i, hi, item, hitem, hb⟩
  rw [hcrash w hw] at hc
  cases hc

/-- Whether it crashes is told by the shares and by the memory for a nonce. -/
theorem not_hasCrashed_iff (h : c.Admitted) (hs : c.Ends s)
    (hmode : c.workers.mode = .exhaustive) (hfailure : s.failure = none) :
    (∀ w ∈ s.workers, w.hasCrashed = false) ↔
      (c.plan.attempts = 0 ∨ c.plan.nonceLength ≤ Bytes.lengthLimit) ∧
        ∀ i < c.count, .error .hasherFailed ∉ c.share i := by
  have hcut : ¬ s.CutShort c.workers.mode := hmode ▸ State.not_cutShort_exhaustive hfailure
  have hiff := (h.hasCrashed_iff hs hmode hcut).trans h.breaksDown_iff
  constructor
  · intro hcrash
    have hnone : ¬ ∃ w ∈ s.workers, w.hasCrashed = true := by simpa using hcrash
    rw [hiff] at hnone
    refine ⟨?_, fun i hi hfailed => hnone (.inr ⟨i, hi, hfailed⟩)⟩
    by_cases hzero : c.plan.attempts = 0
    · exact .inl hzero
    · refine .inr (Nat.not_lt.1 fun hlong => hnone (.inl ⟨?_, hlong⟩))
      omega
  · rintro ⟨hfits, hsound⟩
    rcases s.hasCrashed_or_not with hcrashed | hcrash
    · rcases hiff.1 hcrashed with ⟨hattempts, hlong⟩ | ⟨i, hi, hfailed⟩
      · omega
      · exact absurd hfailed (hsound i hi)
    · exact hcrash

end Call.Admitted

/-- An exhaustive search whose sink refuses nothing is `ok` exactly if the machine makes a thread for
every worker, no digest breaks down and a nonce fits into memory. The sink was given every attempt of
every worker once then, those of one worker in their order, and the tally counts them. A worker that
crashes makes the search fail. -/
theorem exhaustive_search (hnonce : 0 < c.plan.nonceLength)
    (hlength : c.puzzle.hasher.outputLength = c.puzzle.threshold.length)
    (hmode : c.workers.mode = .exhaustive) (hsink : ∀ a t, (c.sink a t).1 = .ok ())
    (hs : c.Ends s) :
    ((∃ tally, s.outcome = .ok tally) ↔
      c.launcher.Grants c.count ∧
        (c.plan.attempts = 0 ∨ c.plan.nonceLength ≤ Bytes.lengthLimit) ∧
        ∀ i < c.count, .error .hasherFailed ∉ c.share i) ∧
    (∀ tally, s.outcome = .ok tally →
      Shuffle ((List.range c.count).map c.portion) s.received ∧
      (∀ i < c.count, (c.portion i).length = share c.plan.attempts c.count i) ∧
      s.received.length = c.plan.attempts ∧
      tally.attempts = c.plan.attempts ∧
      tally.passed =
        ((List.range c.count).map fun i => (c.portion i).countP (·.passed)).sum) ∧
    ((∃ w ∈ s.workers, w.hasCrashed = true) → s.outcome = .error (.search .workerFailed)) := by
  have h : c.Admitted := ⟨hnonce, hlength⟩
  refine ⟨⟨?_, ?_⟩, ?_, State.outcome_of_hasCrashed⟩
  · rintro ⟨tally, htally⟩
    obtain ⟨hcrash, hfailure, -⟩ := State.of_outcome_ok htally
    have hgrants := h.grants_of_failure_eq_none hs hfailure
    exact ⟨hgrants, (h.not_hasCrashed_iff hs hmode hfailure).1 hcrash⟩
  · rintro ⟨hgrants, hsound⟩
    have hfailure := h.failure_eq_none hs hgrants hsink
    have hcrash := (h.not_hasCrashed_iff hs hmode hfailure).2 hsound
    exact ⟨_, State.outcome_of_no_failure hcrash hfailure⟩
  · intro tally htally
    obtain ⟨hcrash, hfailure, rfl⟩ := State.of_outcome_ok htally
    have hcut : ¬ s.CutShort c.workers.mode := hmode ▸ State.not_cutShort_exhaustive hfailure
    obtain ⟨hshuffle, hportion⟩ := h.shuffle_portions hs hmode hcut hcrash
    have hall := Call.length_of_shuffle hshuffle hportion
    rw [h.tally_eq hs.reaches]
    refine ⟨hshuffle, hportion, hall, hall, ?_⟩
    have hpassed := hshuffle.countP_eq (·.passed)
    rwa [List.map_map] at hpassed

theorem exhaustive_search_five_attempts :
    let c := Call.easy ⟨5, 8⟩ ⟨2, some 1, .exhaustive, false⟩
    ∃ s, c.Ends s ∧ s.received.length = 5 ∧
      ∃ tally, s.outcome = .ok tally ∧ tally.attempts = 5 ∧ tally.passed = 5 := by
  intro c
  have h : c.Admitted := Call.easy_admitted _ (by decide)
  have hends := c.ends_last .managerFirst
  have hfits : c.plan.attempts = 0 ∨ c.plan.nonceLength ≤ Bytes.lengthLimit := by decide
  have hsound : ∀ i < c.count, .error .hasherFailed ∉ c.share i := by
    intro i _ hfailed
    obtain ⟨a, ha⟩ := h.exists_ok_of_total (fun _ => rfl) hfits hfailed
    cases ha
  have hall := exhaustive_search h.nonceLength_pos h.length_eq rfl (fun _ _ => rfl) hends
  obtain ⟨tally, htally⟩ := hall.1.2 ⟨Launcher.willing_grants _, hfits, hsound⟩
  obtain ⟨-, hportion, hreceived, hattempts, hpassed⟩ := hall.2.1 tally htally
  have hcount : ∀ i < c.count, (c.portion i).countP (·.passed) = share 5 c.count i := by
    intro i hi
    have hpass : (c.portion i).countP (·.passed) = (c.portion i).length := by
      apply List.countP_eq_length.2
      intro a ha
      exact Call.easy_passed (by decide) ha
    exact hpass.trans (hportion i hi)
  refine ⟨_, hends, hreceived, tally, htally, hattempts, ?_⟩
  calc tally.passed
      = ((List.range c.count).map fun i => (c.portion i).countP (·.passed)).sum := hpassed
    _ = ((List.range c.count).map (share 5 c.count)).sum := by
        refine congrArg List.sum (List.map_congr_left fun i hi => ?_)
        exact hcount i (List.mem_range.1 hi)
    _ = 5 := sum_share 5 Call.count_pos

/-- A nonce that no memory holds crashes the worker, though no digest breaks down. -/
theorem exhaustive_search_nonce_too_long :
    let c := Call.easy ⟨1, 2 ^ 64 - 1⟩ ⟨1, some 1, .exhaustive, false⟩
    c.puzzle.hasher.Total ∧ 0 < c.plan.nonceLength ∧
      c.puzzle.hasher.outputLength = c.puzzle.threshold.length ∧
      c.workers.mode = .exhaustive ∧ (∀ a t, (c.sink a t).1 = .ok ()) ∧
      c.launcher.Grants c.count ∧
      ∀ schedule, (c.search schedule).result = .error (.search .workerFailed) := by
  intro c
  have h : c.Admitted := Call.easy_admitted _ (by decide)
  refine ⟨fun _ => rfl, h.nonceLength_pos, rfl, rfl, fun _ _ => rfl, Launcher.willing_grants _, ?_⟩
  exact h.search_of_tooLong (Launcher.willing_grants _) (by decide) (by decide)

end ProofOfWork.Pool

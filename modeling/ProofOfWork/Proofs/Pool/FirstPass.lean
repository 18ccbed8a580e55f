import ProofOfWork.Proofs.Pool.Outcome

/-!
Searches for the first pass by a pool. No pass is missed and nothing is delivered after one, though
workers may hold further passes by then.
-/
namespace ProofOfWork.Pool

variable {c : Call τ ε} {s : State (Search ChaCha.Generator) (List Attempt × τ) ε}

namespace Call.Admitted

/-- A delivery that was not cut short met no pass, and all shares were delivered. -/
theorem portions_of_not_cutShort (h : c.Admitted) (hs : c.Ends s)
    (hmode : c.workers.mode = .firstPass) (hcut : ¬ s.CutShort c.workers.mode)
    (hcrash : ∀ w ∈ s.workers, w.hasCrashed = false) :
    Shuffle ((List.range c.count).map c.portion) s.received ∧
      ∀ i < c.count, ∀ a ∈ c.portion i, a.passed = false := by
  have hshuffle := h.shuffle hs hcut hcrash
  have hgoes : ∀ a ∈ s.received, a.passed = false := by
    refine Mode.goesOn_firstPass.1 (hmode ▸ ?_)
    exact Classical.byContradiction fun hended => hcut (.inr hended)
  have hnone : ∀ i < c.count, ∀ item ∈ c.share i, Item.passes item = false := by
    intro i hi
    apply Classical.byContradiction
    intro hsome
    have hpass : ∃ item ∈ c.share i, Item.passes item = true := by simpa using hsome
    obtain ⟨item, hitem, hpasses⟩ := exists_mem_upToFirst hpass
    cases item with
    | error cause => cases hpasses
    | ok a =>
      rw [← h.items_firstPass hmode] at hitem
      have hreceived : a ∈ s.received := hshuffle.mem_iff.2
        ⟨_, List.mem_map_of_mem (List.mem_range.2 hi), mem_attemptsOf.2 hitem⟩
      have hfailed : a.passed = true := hpasses
      rw [hgoes a hreceived] at hfailed
      cases hfailed
  refine ⟨?_, fun i hi a ha => hnone i hi _ (mem_attemptsOf.1 ha)⟩
  have hportions : (List.range c.count).map (fun i => attemptsOf ((c.task i).items)) =
      (List.range c.count).map c.portion := by
    apply List.map_congr_left
    intro i hi
    rw [h.items_firstPass hmode, upToFirst_eq_self (hnone i (List.mem_range.1 hi)), portion]
  rwa [hportions] at hshuffle

end Call.Admitted

/-- A search for the first pass by a hasher that never breaks down is `ok` if the machine makes a thread
for every worker, a nonce fits into memory and the sink refuses nothing. If a portion holds a pass, one pass reaches the sink and comes
last; otherwise all attempts reach it. Of each portion the first attempts reach it in their order. -/
theorem firstPass_search (htotal : c.puzzle.hasher.Total) (hgrants : c.launcher.Grants c.count)
    (hnonce : 0 < c.plan.nonceLength)
    (hfits : c.plan.attempts = 0 ∨ c.plan.nonceLength ≤ Bytes.lengthLimit)
    (hlength : c.puzzle.hasher.outputLength = c.puzzle.threshold.length)
    (hmode : c.workers.mode = .firstPass) (hsink : ∀ a t, (c.sink a t).1 = .ok ())
    (hs : c.Ends s) :
    (∀ i < c.count, (c.portion i).length = share c.plan.attempts c.count i) ∧
    (∃ head : Nat → List Attempt, Shuffle ((List.range c.count).map head) s.received ∧
      ∀ i < c.count, head i <+: c.portion i) ∧
    ∃ tally, s.outcome = .ok tally ∧ tally.attempts = s.received.length ∧
      ((∃ i < c.count, ∃ a ∈ c.portion i, a.passed = true) →
        tally.passed = 1 ∧ ∃ seen a, s.received = seen ++ [a] ∧ a.passed = true ∧
          ∀ b ∈ seen, b.passed = false) ∧
      ((∀ i < c.count, ∀ a ∈ c.portion i, a.passed = false) →
        tally.passed = 0 ∧ s.received.length = c.plan.attempts ∧
          Shuffle ((List.range c.count).map c.portion) s.received ∧
          ∀ a ∈ s.received, a.passed = false) := by
  have h : c.Admitted := ⟨hnonce, hlength⟩
  have hcrash := h.not_hasCrashed_of_total hs.reaches htotal hfits
  have hportion : ∀ i < c.count, (c.portion i).length = share c.plan.attempts c.count i := by
    intro i _
    apply h.length_portion
    intro item hitem
    obtain ⟨a, rfl⟩ := h.exists_ok_of_total htotal hfits hitem
    rfl
  refine ⟨hportion, h.exists_heads hs.reaches, .of s.received, ?_⟩
  rcases h.cases_of_ends hs hgrants with ⟨hcut, hf, -⟩ | ⟨seen, a, cause, -, -, -, hc⟩ |
    ⟨seen, a, hf, hr, -, hg, he⟩
  · obtain ⟨hshuffle, hnone⟩ := h.portions_of_not_cutShort hs hmode hcut hcrash
    have hreceived : ∀ a ∈ s.received, a.passed = false := by
      intro a ha
      obtain ⟨i, hi, hportion⟩ := h.mem_portion hs.reaches ha
      exact hnone i hi a hportion
    have hpassed := Tally.passed_of_eq_zero hreceived
    refine ⟨?_, rfl, ?_, ?_⟩
    · rw [State.outcome_of_no_failure hcrash hf, h.tally_eq hs.reaches]
    · rintro ⟨i, hi, a, ha, hpass⟩
      rw [hnone i hi a ha] at hpass
      cases hpass
    · exact fun _ => ⟨hpassed, Call.length_of_shuffle hshuffle hportion, hshuffle, hreceived⟩
  · rw [hsink] at hc
    cases hc
  · have hpass : a.passed = true := by
      rw [hmode] at he
      simpa [Mode.endsWith] using he
    have hseen : ∀ b ∈ seen, b.passed = false := Mode.goesOn_firstPass.1 (hmode ▸ hg)
    have hpassed : (Tally.of s.received).passed = 1 := by
      rw [hr]
      exact Tally.passed_of_concat_eq_one hseen hpass
    refine ⟨?_, rfl, ?_, ?_⟩
    · rw [State.outcome_of_no_failure hcrash hf, h.tally_eq hs.reaches]
    · exact fun _ => ⟨hpassed, seen, a, hr, hpass, hseen⟩
    · intro hnone
      have ha : a ∈ s.received := by
        rw [hr]
        exact List.mem_append_right seen (List.mem_singleton_self a)
      obtain ⟨i, hi, hmem⟩ := h.mem_portion hs.reaches ha
      rw [hnone i hi a hmem] at hpass
      cases hpass

theorem firstPass_search_two_workers :
    let c := Call.easy ⟨5, 8⟩ ⟨2, some 1, .firstPass, false⟩
    ∃ s, c.Ends s ∧ ∃ tally, s.outcome = .ok tally ∧ tally.passed = 1 ∧
      ∃ seen a, s.received = seen ++ [a] ∧ a.passed = true := by
  intro c
  have h : c.Admitted := Call.easy_admitted _ (by decide)
  have hends := c.ends_last .managerFirst
  obtain ⟨hportion, -, tally, htally, -, hpass, -⟩ := firstPass_search (fun _ => rfl)
    (Launcher.willing_grants _) h.nonceLength_pos (by decide) h.length_eq rfl (fun _ _ => rfl) hends
  have hfirst : (c.portion 0).length = 3 := (hportion 0 (by decide)).trans (by decide)
  obtain ⟨a, ha⟩ := List.exists_mem_of_length_pos (l := c.portion 0) (by rw [hfirst]; decide)
  obtain ⟨hpassed, seen, last, hreceived, hlast, -⟩ :=
    hpass ⟨0, by decide, a, ha, Call.easy_passed (by decide) ha⟩
  exact ⟨_, hends, tally, htally, hpassed, seen, last, hreceived, hlast⟩

/-- Nonces that no memory holds crash the workers, and no pass is found. -/
theorem firstPass_search_nonce_too_long :
    let c := Call.easy ⟨2, 2 ^ 64 - 1⟩ ⟨2, some 1, .firstPass, false⟩
    c.puzzle.hasher.Total ∧ 0 < c.plan.nonceLength ∧
      c.puzzle.hasher.outputLength = c.puzzle.threshold.length ∧
      c.workers.mode = .firstPass ∧ (∀ a t, (c.sink a t).1 = .ok ()) ∧
      c.launcher.Grants c.count ∧
      ∀ schedule, (c.search schedule).result = .error (.search .workerFailed) := by
  intro c
  have h : c.Admitted := Call.easy_admitted _ (by decide)
  refine ⟨fun _ => rfl, h.nonceLength_pos, rfl, rfl, fun _ _ => rfl, Launcher.willing_grants _, ?_⟩
  exact h.search_of_tooLong (Launcher.willing_grants _) (by decide) (by decide)

end ProofOfWork.Pool

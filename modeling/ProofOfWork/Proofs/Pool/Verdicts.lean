import ProofOfWork.Proofs.Pool.Success
import ProofOfWork.Proofs.Search.Verdicts

/-!
Attempts that reach a sink are confirmed by hashing their nonces again, whether one search or the
workers of a pool have made them.
-/
namespace ProofOfWork.Pool

namespace Call

variable {c : Call τ ε}

theorem Admitted.confirms_of_mem_portion (h : c.Admitted) {index : Nat} {a : Attempt}
    (ha : a ∈ c.portion index) : c.puzzle.Confirms c.plan.nonceLength a := by
  obtain ⟨nonce, hnonce⟩ := h.exists_attempt_of_mem_portion ha
  rw [← nonce.property]
  exact Puzzle.confirms_of_attempt h.length_eq hnonce

/-- What the sink notes is what the manager has received when the workers have ended. -/
theorem Admitted.search_noting (h : c.Admitted) (schedule : Schedule) :
    (c.noting.search schedule).sink.1 = (c.noting.last schedule).received := by
  have hs := c.noting.ends_last schedule
  have haccount := (h.noting.reaches hs.reaches).account.sink_eq
  have hnotes : c.noting.sink.after (c.noting.last schedule).received c.noting.start =
      ((c.noting.last schedule).received, _) := Sink.after_noting _ _
  rw [h.noting.search_eq]
  exact congrArg Prod.fst (haccount.trans hnotes)

/-- Also if the search fails in the end. -/
theorem confirms_received (c : Call τ ε) (schedule : Schedule) {a : Attempt}
    (ha : a ∈ (c.noting.search schedule).sink.1) : c.puzzle.Confirms c.plan.nonceLength a := by
  cases hrefusal : Search.refusal? c.puzzle c.plan with
  | some cause =>
    have hsame : Search.refusal? c.noting.puzzle c.noting.plan = some cause := hrefusal
    rw [search_of_refusal? hsame] at ha
    cases ha
  | none =>
    have h : c.Admitted := admitted_of_refusal?_eq_none hrefusal
    have hs := c.noting.ends_last schedule
    rw [h.search_noting] at ha
    obtain ⟨i, -, hportion⟩ := h.noting.mem_portion hs.reaches ha
    exact h.noting.confirms_of_mem_portion hportion

end Call

/-- Whoever searches, a sink is given attempts that their nonces confirm: those that a search
yields at any time, in any mode and with any source, those that its delivery gives to the sink, and
those that the manager of a pool gives to it under any schedule. -/
theorem attempts_confirmed (c : Call τ ε) :
    (∀ {σ : Type} (source : Source σ) (s : Search σ), s.Reachable c.puzzle c.plan source →
      (∀ a t, s.next = some (.ok a, t) → c.puzzle.Confirms c.plan.nonceLength a) ∧
      ∀ a ∈ (Search.feed.deliver c.sink.noting s ([], c.start)).sink.1,
        c.puzzle.Confirms c.plan.nonceLength a) ∧
    ∀ schedule, ∀ a ∈ (c.noting.search schedule).sink.1,
      c.puzzle.Confirms c.plan.nonceLength a := by
  constructor
  · intro σ source s hs
    exact ⟨fun a t hnext => hs.confirms_next hnext,
      fun a ha => hs.confirms_delivered c.sink c.start ha⟩
  · intro schedule a ha
    exact c.confirms_received schedule ha

theorem attempts_confirmed_sha256 :
    let c : Call Unit Empty :=
      { Call.easy ⟨2, 8⟩ ⟨2, some 1, .exhaustive, false⟩ with
        puzzle := ⟨Algorithm.sha256.hasher, [1, 2], ⟨1, 32⟩⟩ }
    (∃ (s t : Search ChaCha.Generator) (a : Attempt),
      s.Reachable c.puzzle c.plan ChaCha.source ∧ s.mode = .firstPass ∧
      s.next = some (.ok a, t) ∧ a.nonce.length = 8 ∧
      c.puzzle.verifyStrictly a.nonce = some (.ok a.passed)) ∧
    ∀ schedule, (c.noting.search schedule).sink.1.length = 2 ∧
      ∀ a ∈ (c.noting.search schedule).sink.1,
        c.puzzle.verifyStrictly a.nonce = some (.ok a.passed) := by
  intro c
  have h : c.Admitted := ⟨by decide, rfl⟩
  have htotal : c.puzzle.hasher.Total := Algorithm.sha256.hasher_total
  obtain ⟨hstream, hpool⟩ := attempts_confirmed c
  constructor
  · let s := (c.whole 0).inMode .firstPass
    have hs : s.Reachable c.puzzle c.plan ChaCha.source := .inMode _ (.start (h.start_eq 0))
    obtain ⟨a, ha⟩ := Search.exists_ok_pullAt (s := s) ChaCha.source_neverFails htotal (by decide)
      s.state
    have hnext : s.next = some ((s.pullAt s.state).1, _) := rfl
    rw [ha] at hnext
    have hconfirms := (hstream ChaCha.source s hs).1 a _ hnext
    exact ⟨s, _, a, hs, rfl, hnext, hconfirms.length_nonce,
      hconfirms.verifyStrictly_eq .sha256 rfl⟩
  · intro schedule
    refine ⟨?_, fun a ha => (hpool schedule a ha).verifyStrictly_eq .sha256 rfl⟩
    obtain ⟨tally, htally⟩ := h.noting.exists_search_ok (Launcher.willing_grants _) htotal
      (by decide) (fun _ _ => rfl) schedule
    have hdelivered := h.noting.delivered_search htally
    rw [h.search_noting]
    exact hdelivered.completes.length_eq

end ProofOfWork.Pool

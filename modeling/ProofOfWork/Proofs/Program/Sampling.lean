import ProofOfWork.Proofs.Digest.Algorithm
import ProofOfWork.Proofs.Pool.Success
import ProofOfWork.Proofs.Report.Lines

/-! Sampling runs that come to their end: the settings they resolve and the attempts they write. -/
namespace ProofOfWork

/-- The puzzle that the settings stand for. -/
def SampleSettings.puzzle (s : SampleSettings) (challenge : Bytes) (difficulty : Difficulty) :
    Puzzle where
  hasher := s.algorithm.hasher
  challenge := challenge
  threshold := difficulty.threshold

namespace Program

/-- The search of a run as a call, which the calling thread can make alone. -/
def call (host : Host) (s : SampleSettings) (p : Puzzle) (sink : Sink τ ε) (t : τ) :
    Pool.Call τ ε where
  puzzle := p
  plan := s.plan
  workers := s.workers host.processors
  entropy := host.entropy
  launcher := host.launcher
  sink := sink
  start := t

variable {host : Host} {s : SampleSettings}

theorem search_eq (p : Puzzle) (sink : Sink τ ε) (t : τ) : search host s p sink t =
    if (s.workers host.processors).threads ≤ 1 then (call host s p sink t).alone
    else (call host s p sink t).search host.schedule :=
  rfl

theorem call_count (p : Puzzle) (sink : Sink τ ε) (t : τ)
    (h : (s.workers host.processors).threads ≤ 1) : (call host s p sink t).count = 1 :=
  Pool.workerCount_eq_one (Nat.le_trans (Nat.min_le_left _ _) h)

/-- The machine makes the threads of the search, which the calling thread makes alone if it is the only
one. -/
def Staffed (host : Host) (s : SampleSettings) : Prop :=
  1 < (s.workers host.processors).threads →
    host.launcher.Grants (s.workers host.processors).threads

theorem Staffed.grants (h : Staffed host s)
    (hthreads : ¬ (s.workers host.processors).threads ≤ 1) (p : Puzzle) (sink : Sink τ ε) (t : τ) :
    (call host s p sink t).launcher.Grants (call host s p sink t).count := by
  refine (h (Nat.lt_of_not_le hthreads)).mono ?_
  show min (max (s.workers host.processors).threads 1) _ ≤ _
  omega

/-- On either path a search that succeeds has delivered attempts of its workers. -/
theorem exists_delivered {p : Puzzle} {sink : Sink τ ε} {t : τ} {tally : Tally}
    (hok : (search host s p sink t).result = .ok tally) :
    (call host s p sink t).Admitted ∧
      ∃ seen, (call host s p sink t).Delivered (search host s p sink t) seen := by
  rw [search_eq] at hok ⊢
  split at hok
  · rename_i hthreads
    have h := Pool.Call.admitted_of_alone_ok hok
    rw [if_pos hthreads]
    exact ⟨h, _, h.delivered_alone (call_count p sink t hthreads) hok⟩
  · rename_i hthreads
    have h := Pool.Call.admitted_of_search_ok hok
    rw [if_neg hthreads]
    exact ⟨h, _, h.delivered_search hok⟩

theorem exists_search_ok {p : Puzzle} {sink : Sink τ ε} {t : τ}
    (h : (call host s p sink t).Admitted) (hstaffed : Staffed host s) (htotal : p.hasher.Total)
    (hfits : s.attempts = 0 ∨ s.nonceLength ≤ Bytes.lengthLimit)
    (hsink : ∀ a t, (sink a t).1 = .ok ()) :
    ∃ tally, (search host s p sink t).result = .ok tally := by
  rw [search_eq]
  split
  · rename_i hthreads
    exact h.exists_alone_ok (call_count p sink t hthreads) htotal hfits hsink
  · rename_i hthreads
    exact h.exists_search_ok (hstaffed.grants hthreads p sink t) htotal hfits hsink host.schedule

/-- What is known of a run that came to its end. -/
structure Run (host : Host) (s : SampleSettings) (sampled : Sampled) (challenge : Bytes)
    (difficulty : Difficulty) (seen : List Attempt) : Prop where
  challenge_eq : s.resolveChallenge = .ok challenge
  difficulty_eq : s.resolveDifficulty = .ok difficulty
  nonceLength_pos : 0 < s.nonceLength
  length_eq : s.algorithm.outputLength = difficulty.length
  stdout_eq : sampled.stdout =
    seen.flatMap fun a => Output.line ((reportOf s challenge).record a)
  tally_eq : sampled.tally = .of seen
  required_eq : sampled.required = difficulty.threshold.required
  exists_nonce : ∀ a ∈ seen, ∃ nonce, (s.puzzle challenge difficulty).attempt nonce = some a
  completes : s.mode.Completes s.attempts seen

theorem Run.attempts_eq {sampled : Sampled} {challenge : Bytes} {difficulty : Difficulty}
    {seen : List Attempt} (h : Run host s sampled challenge difficulty seen)
    (hmode : s.mode = .exhaustive) : seen.length = s.attempts :=
  (hmode ▸ h.completes).length_eq

/-- With its settings resolved a run is its search. -/
theorem sample_eq {challenge : Bytes} {difficulty : Difficulty}
    (hchallenge : s.resolveChallenge = .ok challenge)
    (hdifficulty : s.resolveDifficulty = .ok difficulty) :
    sample host s =
      let outcome := search host s (s.puzzle challenge difficulty)
        (reportSink (reportOf s challenge)) .empty
      (outcome.result.mapError .ofFailure).map fun tally =>
        { stdout := outcome.sink.bytes, tally, required := difficulty.required,
          log := outcome.log } := by
  unfold sample
  rw [hchallenge, hdifficulty]
  rfl

theorem exists_run {sampled : Sampled} (h : sample host s = .ok sampled) :
    ∃ challenge difficulty seen, Run host s sampled challenge difficulty seen := by
  cases hchallenge : s.resolveChallenge with
  | error cause =>
    rw [sample, hchallenge] at h
    cases h
  | ok challenge =>
    cases hdifficulty : s.resolveDifficulty with
    | error cause =>
      rw [sample, hchallenge, hdifficulty] at h
      cases h
    | ok difficulty =>
      rw [sample_eq hchallenge hdifficulty] at h
      cases hresult : (search host s (s.puzzle challenge difficulty)
          (reportSink (reportOf s challenge)) .empty).result with
      | error cause =>
        simp only [hresult] at h
        cases h
      | ok tally =>
        simp only [hresult] at h
        obtain rfl := Except.ok.inj h
        obtain ⟨hadmitted, seen, hseen⟩ := exists_delivered hresult
        have htally : tally = .of seen := Except.ok.inj (hresult.symm.trans hseen.result_eq)
        refine ⟨challenge, difficulty, seen, hchallenge, hdifficulty, hadmitted.nonceLength_pos,
          hadmitted.length_eq, ?_, htally, rfl, ?_, hseen.completes⟩
        · have hbytes := congrArg Written.bytes hseen.sink_eq
          have hwritten := (reportOf s challenge).write_after Writer.memory_reliable seen .empty
          exact hbytes.trans hwritten.2
        · intro a ha
          obtain ⟨i, hportion⟩ := hseen.exists_portion a ha
          obtain ⟨nonce, hnonce⟩ := hadmitted.exists_attempt_of_mem_portion hportion
          exact ⟨nonce.val, hnonce⟩

/-- Settings that resolve to a difficulty of the right length make a run that comes to its end, if its
threads are made and a nonce fits into memory. -/
theorem exists_sampled {challenge : Bytes} {difficulty : Difficulty} (hstaffed : Staffed host s)
    (hchallenge : s.resolveChallenge = .ok challenge)
    (hdifficulty : s.resolveDifficulty = .ok difficulty) (hnonce : 0 < s.nonceLength)
    (hlength : s.algorithm.outputLength = difficulty.length)
    (hfits : s.attempts = 0 ∨ s.nonceLength ≤ Bytes.lengthLimit) :
    ∃ sampled, sample host s = .ok sampled := by
  have hsink : ∀ a out, (reportSink (reportOf s challenge) a out).1 = .ok () := by
    intro a out
    obtain ⟨later, hwrite, -⟩ := (reportOf s challenge).exists_write Writer.memory_reliable a out
    exact congrArg Prod.fst hwrite
  have hadmitted : (call host s (s.puzzle challenge difficulty)
      (reportSink (reportOf s challenge)) .empty).Admitted := ⟨hnonce, hlength⟩
  obtain ⟨tally, htally⟩ := exists_search_ok hadmitted hstaffed s.algorithm.hasher_total hfits hsink
  rw [sample_eq hchallenge hdifficulty]
  simp only [htally]
  exact ⟨_, rfl⟩

/-- The output is written as it is, and the totals are the last notice. -/
theorem run_sample {sampled : Sampled} (h : sample host s = .ok sampled)
    (logging : Except String Unit) :
    (run host logging (.sample s)).stdout = sampled.stdout ∧
      (run host logging (.sample s)).exitCode = 0 ∧
      ∃ before, (run host logging (.sample s)).notices =
        before ++ [.totals sampled.tally sampled.required] := by
  have htask : runTask host (.sample s) =
      .ok { stdout := sampled.stdout, notices := [.totals sampled.tally sampled.required],
            log := sampled.log, exitCode := 0 } := by
    rw [runTask, h]
    rfl
  unfold run
  rw [htask]
  exact ⟨rfl, rfl, _, rfl⟩

end Program

end ProofOfWork

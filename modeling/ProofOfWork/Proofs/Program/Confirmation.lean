import ProofOfWork.Proofs.CommandLine.Verification
import ProofOfWork.Proofs.Program.Sampling

/-! A verification that is asked for what a run has written confirms it. -/
namespace ProofOfWork

namespace Program

/-- Both ways of judging a digest agree on an attempt, since the digest has the right length. -/
theorem verify_of_attempt {s : SampleSettings} {challenge nonce : Bytes} {difficulty : Difficulty}
    {a : Attempt} (hlength : s.algorithm.outputLength = difficulty.length)
    (h : (s.puzzle challenge difficulty).attempt nonce = some a) :
    verify ⟨challenge, a.nonce, difficulty, s.algorithm⟩ = .ok a.passed := by
  obtain rfl := Option.some.inj h
  have hdigest : (s.algorithm.digest [challenge, nonce]).length = difficulty.threshold.length := by
    rw [Algorithm.length_digest]
    exact hlength
  rw [verify, difficulty.threshold.judge_of_length hdigest]
  rfl

/-- A verdict is printed on a line of its own. -/
theorem run_verify {v : VerifySettings} {passed : Bool} (h : verify v = .ok passed) (host : Host)
    (logging : Except String Unit) :
    (run host logging (.verify v)).stdout = Output.line (toString passed) ∧
      (run host logging (.verify v)).exitCode = 0 := by
  have htask : runTask host (.verify v) =
      .ok { stdout := Output.line (toString passed), notices := [], log := [], exitCode := 0 } := by
    rw [runTask, h]
    rfl
  unfold run
  rw [htask]
  exact ⟨rfl, rfl⟩

/-- A run in JSON that comes to its end writes one record on a line for each attempt that it counts.
If the members of a record are put on the command line of a verification, with the difficulty and
the algorithm of the run, they are read and the verdict of the record is printed. -/
theorem written_records_verify {host : Host} {s : SampleSettings} {sampled : Sampled}
    (hformat : s.format = .json) (h : sample host s = .ok sampled) :
    (∀ logging, (run host logging (.sample s)).stdout = sampled.stdout) ∧
    ∃ challenge difficulty, s.resolveChallenge = .ok challenge ∧
      s.resolveDifficulty = .ok difficulty ∧
      ∃ records : List Record,
        sampled.stdout = records.flatMap (fun r => Output.line r.text) ∧
        records.length = sampled.tally.attempts ∧
        ∀ r ∈ records, '\n' ∉ r.text.toList ∧ r.challenge = Hex.encode challenge ∧
          ∃ nonce, r.nonce = Hex.encode nonce ∧
            Invocation.ofWords ["verify", "--challenge", r.challenge, "--nonce", r.nonce,
                "--difficulty", difficulty.toHex, "--hash", s.algorithm.name] =
              .ok ⟨⟨0, none⟩, .verify ⟨challenge, nonce, difficulty, s.algorithm⟩⟩ ∧
            verify ⟨challenge, nonce, difficulty, s.algorithm⟩ = .ok r.passed ∧
            ∀ other logging,
              (run other logging (.verify ⟨challenge, nonce, difficulty, s.algorithm⟩)).stdout =
                Output.line (toString r.passed) ∧
              (run other logging
                (.verify ⟨challenge, nonce, difficulty, s.algorithm⟩)).exitCode = 0 := by
  refine ⟨fun logging => (run_sample h logging).1, ?_⟩
  obtain ⟨challenge, difficulty, seen, hrun⟩ := exists_run h
  refine ⟨challenge, difficulty, hrun.challenge_eq, hrun.difficulty_eq,
    seen.map (Record.ofAttempt challenge), ?_, ?_, ?_⟩
  · have hreport : reportOf s challenge = ⟨.json, some challenge⟩ := by
      rw [reportOf, hformat]
      rfl
    rw [hrun.stdout_eq, hreport, List.flatMap_map]
    apply List.flatMap_congr
    intro a _
    rw [Report.record_json]
  · rw [hrun.tally_eq, List.length_map]
    rfl
  · intro r hr
    obtain ⟨a, ha, rfl⟩ := List.mem_map.1 hr
    obtain ⟨nonce, hnonce⟩ := hrun.exists_nonce a ha
    have hverify := verify_of_attempt hrun.length_eq hnonce
    have hwords := VerifySettings.ofWords_words ⟨challenge, a.nonce, difficulty, s.algorithm⟩
    exact ⟨Record.newline_not_mem_text challenge a, rfl, a.nonce, rfl, hwords, hverify,
      run_verify hverify⟩

theorem written_records_verify_two_attempts :
    let host : Host :=
      ⟨1, fun _ => ⟨List.replicate 32 0, List.length_replicate⟩, .willing, .managerFirst⟩
    let difficulty : Difficulty := ⟨List.replicate 32 0xFF, by decide⟩
    let s : SampleSettings :=
      { challenge := some [0xC0], difficulty := some difficulty, attempts := 2, seed := some 1,
        format := .json }
    ∃ sampled, sample host s = .ok sampled ∧ ∃ records : List Record,
      sampled.stdout = records.flatMap (fun r => Output.line r.text) ∧ records.length = 2 ∧
      ∀ r ∈ records, r.challenge = "c0" ∧ ∃ invocation,
        Invocation.ofWords ["verify", "--challenge", r.challenge, "--nonce", r.nonce,
            "--difficulty", difficulty.toHex, "--hash", "sha256"] = .ok invocation ∧
          (run host (.ok ()) invocation.task).stdout = Output.line (toString r.passed) := by
  intro host difficulty s
  obtain ⟨sampled, hsampled⟩ : ∃ sampled, sample host s = .ok sampled :=
    @exists_sampled host s [0xC0] difficulty (fun _ => Pool.Launcher.willing_grants _) rfl rfl
      (by decide) rfl (by decide)
  have hcount : sampled.tally.attempts = 2 := by
    obtain ⟨challenge, difficulty, seen, hrun⟩ := exists_run hsampled
    rw [hrun.tally_eq]
    exact hrun.attempts_eq rfl
  obtain ⟨-, challenge, used, hchallenge, hused, records, hstdout, hlength, hrecords⟩ :=
    written_records_verify rfl hsampled
  obtain rfl : challenge = [0xC0] := (Except.ok.inj hchallenge).symm
  obtain rfl : used = difficulty := (Except.ok.inj hused).symm
  refine ⟨sampled, hsampled, records, hstdout, hlength.trans hcount, fun r hr => ?_⟩
  obtain ⟨-, hhex, nonce, -, hwords, -, hrun⟩ := hrecords r hr
  exact ⟨hhex, _, hwords, (hrun host (.ok ())).1⟩

end Program

end ProofOfWork

import ProofOfWork.Proofs.Program.Sampling
import ProofOfWork.Proofs.Report.Reading

/-! The totals at the end of a run agree with the lines that it has written. -/
namespace ProofOfWork

theorem Puzzle.leadingZeros_lt_of_attempt {p : Puzzle} {nonce : Bytes} {a : Attempt}
    (h : p.attempt nonce = some a) : a.leadingZeros < 2 ^ 32 := by
  obtain ⟨digest, -, rfl⟩ := Option.map_eq_some_iff.1 h
  have hle : digest.leadingZeros ≤ countLimit := Nat.min_le_right _ _
  exact Nat.lt_of_le_of_lt hle (by decide)

/-- The verdict is carried by both formats. -/
@[simp] theorem Report.entry_passed (r : Report) (a : Attempt) :
    (r.entry a).passed = a.passed := by
  unfold entry
  cases r.format <;> rfl

namespace Program

open Report (Entry)

variable {host : Host} {s : SampleSettings} {sampled : Sampled}

/-- The lines of a run are read as entries. -/
theorem Run.exists_entries {challenge : Bytes} {difficulty : Difficulty} {seen : List Attempt}
    (h : Run host s sampled challenge difficulty seen) :
    ∃ lines, sampled.stdout.splitOn 10 = lines ++ [[]] ∧
      lines.map (Entry.ofLine? s.format) =
        (seen.map (reportOf s challenge).entry).map some := by
  have hcount : ∀ a ∈ seen, a.leadingZeros < 2 ^ 32 := by
    intro a ha
    obtain ⟨nonce, hnonce⟩ := h.exists_nonce a ha
    exact Puzzle.leadingZeros_lt_of_attempt hnonce
  rw [h.stdout_eq]
  exact (reportOf s challenge).exists_lines hcount

/-- A run that comes to its end has written one line for each attempt that it counts, and as many
with a pass as it counts passes; these numbers and the required zero bits are printed last. Without
a search for the first pass all attempts are made. A search for it writes its pass last and no other,
or it makes all attempts and writes none. -/
theorem totals_agree_with_lines (h : sample host s = .ok sampled) :
    ∃ (difficulty : Difficulty) (lines : List Bytes) (entries : List Entry),
      s.resolveDifficulty = .ok difficulty ∧
      sampled.stdout.splitOn 10 = lines ++ [[]] ∧
      lines.map (Entry.ofLine? s.format) = entries.map some ∧
      entries.length = sampled.tally.attempts ∧
      entries.countP (·.passed) = sampled.tally.passed ∧
      (s.untilPass = false → entries.length = s.attempts) ∧
      (s.untilPass = true →
        (∃ front last, entries = front ++ [last] ∧ last.passed = true ∧
          ∀ e ∈ front, e.passed = false) ∨
        (∀ e ∈ entries, e.passed = false) ∧ entries.length = s.attempts) ∧
      ∀ logging, (run host logging (.sample s)).stdout = sampled.stdout ∧
        (run host logging (.sample s)).exitCode = 0 ∧
        ∀ elapsed, ∃ (before : List String) (totals : String) (rate : HashRate),
          let tally := sampled.tally
          let required := difficulty.threshold.required
          totals = s!"{tally.passed} of {tally.attempts} attempts met {required} leading zero bits" ∧
          (run host logging (.sample s)).notices.map (Notice.render elapsed) =
            before ++ [s!"{totals} ({rate})"] := by
  obtain ⟨challenge, difficulty, seen, hrun⟩ := exists_run h
  obtain ⟨lines, hlines, hread⟩ := hrun.exists_entries
  have hlength : (seen.map (reportOf s challenge).entry).length = sampled.tally.attempts := by
    rw [List.length_map, hrun.tally_eq]
    rfl
  have hpassed : (seen.map (reportOf s challenge).entry).countP (·.passed) =
      sampled.tally.passed := by
    rw [List.countP_map, hrun.tally_eq]
    simp [Function.comp_def, Tally.of]
  refine ⟨difficulty, lines, _, hrun.difficulty_eq, hlines, hread, hlength, hpassed, ?_, ?_, ?_⟩
  · intro hall
    have hmode : s.mode = .exhaustive := by rw [SampleSettings.mode, hall]; rfl
    rw [List.length_map]
    exact hrun.attempts_eq hmode
  · intro huntil
    have hmode : s.mode = .firstPass := by rw [SampleSettings.mode, huntil]; rfl
    rcases (hmode ▸ hrun.completes).firstPass_cases with
      ⟨front, a, rfl, hpass, hfront⟩ | ⟨hnone, hattempts⟩
    · exact .inl ⟨front.map (reportOf s challenge).entry, (reportOf s challenge).entry a,
        by simp, by simpa using hpass, by simpa using hfront⟩
    · exact .inr ⟨by simpa using hnone, by simpa using hattempts⟩
  · intro logging
    obtain ⟨hstdout, hcode, before, hnotices⟩ := run_sample h logging
    refine ⟨hstdout, hcode, fun elapsed => ?_⟩
    refine ⟨before.map (Notice.render elapsed), _, ⟨sampled.tally.attempts, elapsed⟩, rfl, ?_⟩
    rw [hnotices, List.map_append, List.map_singleton, hrun.required_eq]
    rfl

theorem totals_agree_with_lines_two_attempts :
    let host : Host :=
      ⟨1, fun _ => ⟨List.replicate 32 0, List.length_replicate⟩, .willing, .managerFirst⟩
    let difficulty : Difficulty := ⟨List.replicate 32 0xFF, by decide⟩
    let s : SampleSettings :=
      { difficulty := some difficulty, attempts := 2, seed := some 1, threads := 2 }
    ∃ sampled, sample host s = .ok sampled ∧ sampled.tally.attempts = 2 ∧
      ∃ first second, sampled.stdout.splitOn 10 = [first, second, []] ∧
        ∀ line ∈ [first, second], (Entry.ofLine? .text line).isSome := by
  intro host difficulty s
  obtain ⟨sampled, hsampled⟩ : ∃ sampled, sample host s = .ok sampled :=
    @exists_sampled host s _ difficulty (fun _ => Pool.Launcher.willing_grants _) rfl rfl
      (by decide) rfl (by decide)
  obtain ⟨used, lines, entries, -, hlines, hread, htotal, -, hall, -⟩ :=
    totals_agree_with_lines hsampled
  have hlength : lines.length = 2 := by
    have hmap := congrArg List.length hread
    rw [List.length_map, List.length_map] at hmap
    exact hmap.trans (hall rfl)
  obtain ⟨first, second, rfl⟩ := List.length_eq_two.1 hlength
  refine ⟨sampled, hsampled, htotal.symm.trans (hall rfl), first, second, hlines, ?_⟩
  intro line hline
  have hmem : Entry.ofLine? .text line ∈ entries.map some := hread ▸ List.mem_map_of_mem hline
  obtain ⟨entry, -, hentry⟩ := List.mem_map.1 hmem
  rw [← hentry]
  rfl

end Program

end ProofOfWork

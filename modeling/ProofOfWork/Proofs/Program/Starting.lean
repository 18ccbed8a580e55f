import ProofOfWork.Proofs.Difficulty.Count
import ProofOfWork.Proofs.Program.Sampling

/-!
Settings that start a search. All others are refused with their first fault, whichever threads would
have searched, and before anything is written.
-/
namespace ProofOfWork

namespace SampleSettings

/-- The challenge is given twice. -/
def challengeFaults (s : SampleSettings) : List Program.Error :=
  if s.challenge.isSome ∧ s.challengeText.isSome then
    [.settings (.conflict "--challenge" "--challenge-text")]
  else []

/-- The difficulty is given twice, or only by more bits than a digest has. -/
def difficultyFaults (s : SampleSettings) : List Program.Error :=
  let length := s.algorithm.outputLength
  (if s.difficulty.isSome ∧ s.zeroBits.isSome then
    [.settings (.conflict "--difficulty" "--zero-bits")] else []) ++
  (s.zeroBits.toList.filter fun bits => s.difficulty.isNone ∧ 8 * length < bits).map fun bits =>
    .settings (.difficulty (.tooManyBits bits length))

/-- A nonce is empty, or a given difficulty is not as long as a digest. -/
def searchFaults (s : SampleSettings) : List Program.Error :=
  let length := s.algorithm.outputLength
  (if s.nonceLength = 0 then [.search (.emptyNonce 0)] else []) ++
    (s.difficulty.toList.filter (·.length ≠ length)).map fun d =>
      .search (.wrongLength ⟨d.length, length⟩)

/-- All that is wrong with the settings, in the order in which it is looked for. -/
def faults (s : SampleSettings) : List Program.Error :=
  s.challengeFaults ++ s.difficultyFaults ++ s.searchFaults

variable (s : SampleSettings)

theorem resolveChallenge_cases :
    (∃ challenge, s.resolveChallenge = .ok challenge ∧ s.challengeFaults = []) ∨
      ∃ e, s.resolveChallenge = .error e ∧ s.challengeFaults = [.settings e] := by
  unfold resolveChallenge challengeFaults
  cases s.challenge with
  | none =>
    left
    cases s.challengeText with
    | none => exact ⟨_, rfl, rfl⟩
    | some text => exact ⟨_, rfl, rfl⟩
  | some challenge =>
    cases s.challengeText with
    | none => exact .inl ⟨_, rfl, rfl⟩
    | some text => exact .inr ⟨_, rfl, rfl⟩

end SampleSettings

/-- Digests are long enough for the default difficulty, and their bits can be counted. -/
theorem Algorithm.outputLength_bounds (a : Algorithm) : 0 < a.outputLength ∧
    8 * a.outputLength < 2 ^ 32 ∧ SampleSettings.defaultZeroBits ≤ 8 * a.outputLength := by
  cases a <;> decide

/-- For digests a count is refused only if they have fewer bits. -/
theorem Difficulty.ofZeroBits_outputLength (a : Algorithm) (bits : Nat) :
    (8 * a.outputLength < bits ∧
      ofZeroBits bits a.outputLength = .error (.tooManyBits bits a.outputLength)) ∨
    (bits ≤ 8 * a.outputLength ∧
      ∃ d, ofZeroBits bits a.outputLength = .ok d ∧ d.length = a.outputLength) := by
  obtain ⟨hpos, hlen, -⟩ := a.outputLength_bounds
  rcases Nat.lt_or_ge (8 * a.outputLength) bits with hmany | hfits
  · exact .inl ⟨hmany, (ofZeroBits_eq_tooManyBits_iff hlen).2 ⟨hpos, hmany⟩⟩
  · obtain ⟨d, hd⟩ := exists_length_eq hpos
    rw [← hd] at hlen hfits ⊢
    exact .inr ⟨hfits, d.requiring bits, ofZeroBits_eq hlen hfits, length_requiring bits d⟩

namespace SampleSettings

variable (s : SampleSettings)

/-- A difficulty that is not given has the length of a digest. -/
theorem resolveDifficulty_cases :
    (∃ difficulty, s.resolveDifficulty = .ok difficulty ∧ s.difficultyFaults = [] ∧
      difficulty.length = s.difficulty.elim s.algorithm.outputLength Difficulty.length) ∨
    ∃ e, s.resolveDifficulty = .error e ∧ s.difficultyFaults = [.settings e] := by
  unfold resolveDifficulty difficultyFaults
  cases s.difficulty with
  | some difficulty =>
    cases s.zeroBits with
    | none => exact .inl ⟨_, rfl, rfl, rfl⟩
    | some bits => exact .inr ⟨_, rfl, rfl⟩
  | none =>
    cases s.zeroBits with
    | none =>
      obtain ⟨-, -, hdefault⟩ := s.algorithm.outputLength_bounds
      rcases Difficulty.ofZeroBits_outputLength s.algorithm defaultZeroBits with
        ⟨hmany, -⟩ | ⟨-, d, hd, hlength⟩
      · omega
      · left
        exact ⟨d, by simp only [hd]; rfl, rfl, hlength⟩
    | some bits =>
      rcases Difficulty.ofZeroBits_outputLength s.algorithm bits with
        ⟨hmany, herror⟩ | ⟨hfits, d, hd, hlength⟩
      · right
        exact ⟨_, by simp only [herror]; rfl, by simp [hmany]⟩
      · left
        exact ⟨d, by simp only [hd]; rfl, by simp [hfits], hlength⟩

theorem refusal?_eq (challenge : Bytes) {difficulty : Difficulty}
    (hlength : difficulty.length =
      s.difficulty.elim s.algorithm.outputLength Difficulty.length) :
    (Search.refusal? (s.puzzle challenge difficulty) s.plan).map Program.Error.search =
      s.searchFaults.head? := by
  have hexpect : (s.puzzle challenge difficulty).threshold.expect
      (s.puzzle challenge difficulty).hasher.outputLength =
      if s.algorithm.outputLength = difficulty.length then .ok ()
      else .error ⟨difficulty.length, s.algorithm.outputLength⟩ := rfl
  have hnonce : (s.plan).nonceLength = s.nonceLength := rfl
  unfold Search.refusal? searchFaults
  rw [hexpect, hlength, hnonce]
  by_cases hempty : s.nonceLength = 0
  · simp [hempty]
  · cases s.difficulty with
    | none => simp [hempty]
    | some given =>
      by_cases hsame : s.algorithm.outputLength = given.length
      · simp [hempty, hsame]
      · simp [hempty, hsame, Ne.symm hsame]

theorem exitCode_of_mem_faults {e : Program.Error} (h : e ∈ s.faults) : e.exitCode = 1 := by
  simp only [faults, challengeFaults, difficultyFaults, searchFaults, List.mem_append,
    List.mem_map, List.mem_ite_nil_right, List.mem_singleton] at h
  rcases h with (⟨-, rfl⟩ | ⟨-, rfl⟩ | ⟨bits, -, rfl⟩) | ⟨-, rfl⟩ | ⟨given, -, rfl⟩
  all_goals rfl

/-- Only a difficulty that is given can have the wrong length. -/
theorem ne_wrongLength_of_mem_faults (hnone : s.difficulty = none) {e : Program.Error}
    (h : e ∈ s.faults) (cause : WrongLength) :
    e ≠ .search (.wrongLength cause) ∧ e ≠ .wrongLength cause := by
  simp only [faults, challengeFaults, difficultyFaults, searchFaults, hnone, List.mem_append,
    List.mem_map, List.mem_ite_nil_right, List.mem_singleton] at h
  rcases h with (⟨-, rfl⟩ | ⟨-, rfl⟩ | ⟨bits, -, rfl⟩) | ⟨-, rfl⟩ | ⟨given, hgiven, -⟩
  · simp
  · simp
  · simp
  · simp
  · cases hgiven

end SampleSettings

namespace Program

variable {host : Host} {s : SampleSettings}

/-- The settings resolve, and the search of the first stream starts. -/
def Starts (host : Host) (s : SampleSettings) : Prop :=
  ∃ challenge difficulty, s.resolveChallenge = .ok challenge ∧
    s.resolveDifficulty = .ok difficulty ∧
    ∃ search, Search.start (s.puzzle challenge difficulty) s.plan ChaCha.source
      (streamOf host.entropy s.seed 0) = .ok search

/-- The run fails before its search has started. -/
structure Refuses (host : Host) (s : SampleSettings) (e : Error) : Prop where
  fails : sample host s = .error e
  not_starts : ¬ Starts host s

theorem starts_iff {challenge : Bytes} {difficulty : Difficulty}
    (hchallenge : s.resolveChallenge = .ok challenge)
    (hdifficulty : s.resolveDifficulty = .ok difficulty) :
    Starts host s ↔ Search.refusal? (s.puzzle challenge difficulty) s.plan = none := by
  constructor
  · rintro ⟨challenge', difficulty', hchallenge', hdifficulty', hstart⟩
    obtain rfl := Except.ok.inj (hchallenge.symm.trans hchallenge')
    obtain rfl := Except.ok.inj (hdifficulty.symm.trans hdifficulty')
    exact Search.exists_start_iff.1 hstart
  · intro hnone
    exact ⟨challenge, difficulty, hchallenge, hdifficulty, Search.exists_start_iff.2 hnone⟩

/-- A refused search leaves the sink alone on either path. -/
theorem search_of_refusal? {p : Puzzle} {cause : SearchError}
    (h : Search.refusal? p s.plan = some cause) (sink : Sink τ ε) (t : τ) :
    search host s p sink t = ⟨.error (.search cause), t, []⟩ := by
  have hcall : Search.refusal? (call host s p sink t).puzzle (call host s p sink t).plan =
      some cause := h
  rw [search_eq]
  split
  · exact Pool.Call.alone_of_refusal? hcall
  · exact Pool.Call.search_of_refusal? hcall host.schedule

theorem refuses_of_refusal? {challenge : Bytes} {difficulty : Difficulty}
    (hchallenge : s.resolveChallenge = .ok challenge)
    (hdifficulty : s.resolveDifficulty = .ok difficulty) {cause : SearchError}
    (hcause : Search.refusal? (s.puzzle challenge difficulty) s.plan = some cause) :
    Refuses host s (.search cause) where
  fails := by
    rw [sample_eq hchallenge hdifficulty, search_of_refusal? hcause]
    rfl
  not_starts := by
    rw [starts_iff hchallenge hdifficulty, hcause]
    exact Option.some_ne_none cause

/-- Settings without a fault start, and others are refused with their first fault. -/
theorem starts_or_refuses (host : Host) (s : SampleSettings) :
    (s.faults = [] ∧ Starts host s) ∨
      ∃ e, s.faults.head? = some e ∧ Refuses host s e := by
  unfold SampleSettings.faults
  rcases s.resolveChallenge_cases with ⟨challenge, hchallenge, hone⟩ | ⟨e, hchallenge, hone⟩
  · rcases s.resolveDifficulty_cases with
      ⟨difficulty, hdifficulty, htwo, hlength⟩ | ⟨e, hdifficulty, htwo⟩
    · have hrefusal := s.refusal?_eq challenge hlength
      rw [hone, htwo, List.nil_append]
      cases hcause : Search.refusal? (s.puzzle challenge difficulty) s.plan with
      | none =>
        rw [hcause] at hrefusal
        exact .inl ⟨List.head?_eq_none_iff.1 hrefusal.symm,
          (starts_iff hchallenge hdifficulty).2 hcause⟩
      | some cause =>
        rw [hcause] at hrefusal
        exact .inr ⟨_, hrefusal.symm, refuses_of_refusal? hchallenge hdifficulty hcause⟩
    · refine .inr ⟨.settings e, by rw [hone, htwo]; rfl, ?_, ?_⟩
      · rw [sample, hchallenge, hdifficulty]
        rfl
      · rintro ⟨-, difficulty, -, hok, -⟩
        rw [hdifficulty] at hok
        cases hok
  · refine .inr ⟨.settings e, by rw [hone]; rfl, ?_, ?_⟩
    · rw [sample, hchallenge]
      rfl
    · rintro ⟨challenge, difficulty, hok, -⟩
      rw [hchallenge] at hok
      cases hok

theorem refuses_iff {e : Error} : Refuses host s e ↔ s.faults.head? = some e := by
  rcases starts_or_refuses host s with ⟨hnone, hstarts⟩ | ⟨first, hfirst, hrefuses⟩
  · constructor
    · exact fun h => absurd hstarts h.not_starts
    · intro h
      rw [hnone] at h
      cases h
  · constructor
    · intro h
      obtain rfl := Except.error.inj (h.fails.symm.trans hrefuses.fails)
      exact hfirst
    · intro h
      obtain rfl := Option.some.inj (h.symm.trans hfirst)
      exact hrefuses

/-- With its threads a search that has started fails only if it is to draw a nonce that no memory
holds. -/
theorem sample_of_starts (h : Starts host s) (hstaffed : Staffed host s) :
    (s.attempts = 0 ∨ s.nonceLength ≤ Bytes.lengthLimit →
      ∃ sampled, sample host s = .ok sampled) ∧
    (0 < s.attempts → Bytes.lengthLimit < s.nonceLength →
      sample host s = .error (.search (if (s.workers host.processors).threads ≤ 1 then
        .nonceTooLong s.nonceLength else .workerFailed))) := by
  obtain ⟨challenge, difficulty, hchallenge, hdifficulty, hstart⟩ := h
  have hnone := Search.exists_start_iff.1 hstart
  obtain ⟨hnonce, hlength⟩ := Search.refusal?_eq_none_iff.1 hnone
  constructor
  · exact exists_sampled hstaffed hchallenge hdifficulty hnonce hlength
  · intro hattempts hlong
    have hadmitted : (call host s (s.puzzle challenge difficulty)
        (reportSink (reportOf s challenge)) .empty).Admitted := ⟨hnonce, hlength⟩
    rw [sample_eq hchallenge hdifficulty, search_eq]
    split
    · rename_i hthreads
      have hresult := hadmitted.alone_of_tooLong (call_count _ _ _ hthreads) hattempts hlong
      simp only [hresult]
      rfl
    · rename_i hthreads
      have hresult := hadmitted.search_of_tooLong (hstaffed.grants hthreads _ _ _) hattempts hlong
        host.schedule
      simp only [hresult]
      rfl

theorem search_ne_wrongLength {p : Puzzle} {sink : Sink τ ε} {t : τ}
    (h : (call host s p sink t).Admitted) (cause : WrongLength) :
    (search host s p sink t).result ≠ .error (.search (.wrongLength cause)) := by
  intro hresult
  rw [search_eq] at hresult
  split at hresult
  · rename_i hthreads
    cases h.isBreakdown_of_alone_error (call_count p sink t hthreads) hresult
  · rcases h.cause_of_search_error hresult with hcause | ⟨reason, hcause⟩
    · cases hcause
    · cases hcause

/-- Whatever becomes of a search that has started, its difficulty has the right length. -/
theorem ne_wrongLength_of_starts (h : Starts host s) (cause : WrongLength) :
    sample host s ≠ .error (.search (.wrongLength cause)) ∧
      sample host s ≠ .error (.wrongLength cause) := by
  obtain ⟨challenge, difficulty, hchallenge, hdifficulty, hstart⟩ := h
  obtain ⟨hnonce, hlength⟩ := Search.refusal?_eq_none_iff.1 (Search.exists_start_iff.1 hstart)
  have hadmitted : (call host s (s.puzzle challenge difficulty)
      (reportSink (reportOf s challenge)) .empty).Admitted := ⟨hnonce, hlength⟩
  have hne := search_ne_wrongLength hadmitted cause
  rw [sample_eq hchallenge hdifficulty]
  cases hresult : (search host s (s.puzzle challenge difficulty)
      (reportSink (reportOf s challenge)) .empty).result with
  | ok tally =>
    simp only [hresult]
    exact ⟨nofun, nofun⟩
  | error failure =>
    simp only [hresult]
    cases failure with
    | refused refusal => exact ⟨nofun, nofun⟩
    | search found =>
      refine ⟨?_, nofun⟩
      rintro ⟨⟩
      exact hne hresult

theorem run_of_error {e : Error} (h : sample host s = .error e) (logging : Except String Unit) :
    (run host logging (.sample s)).stdout = [] ∧
      (run host logging (.sample s)).exitCode = e.exitCode ∧
      ∃ before, (run host logging (.sample s)).notices =
        before ++ [.line s!"Error: {e.message}"] := by
  have htask : runTask host (.sample s) = .error e := by
    rw [runTask, h]
    rfl
  unfold run
  rw [htask]
  exact ⟨rfl, rfl, _, rfl⟩

/-- Where the settings resolve, it is the search that is refused, and it gives the sink nothing. -/
theorem Refuses.search_eq {e : Error} (h : Refuses host s e) {challenge : Bytes}
    {difficulty : Difficulty} (hchallenge : s.resolveChallenge = .ok challenge)
    (hdifficulty : s.resolveDifficulty = .ok difficulty) :
    ∃ cause, e = .search cause ∧ ∀ {τ ε : Type} (sink : Sink τ ε) (t : τ),
      search host s (s.puzzle challenge difficulty) sink t = ⟨.error (.search cause), t, []⟩ := by
  cases hcause : Search.refusal? (s.puzzle challenge difficulty) s.plan with
  | none => exact absurd ((starts_iff hchallenge hdifficulty).2 hcause) h.not_starts
  | some cause =>
    have hrefuses : Refuses host s (.search cause) :=
      refuses_of_refusal? hchallenge hdifficulty hcause
    exact ⟨cause, Except.error.inj (h.fails.symm.trans hrefuses.fails),
      fun sink t => search_of_refusal? hcause sink t⟩

/-- A run is refused before its search has started exactly if its settings have a fault, and with
the first one, whichever host and threads it runs on. Then it fails, nothing is written and no sink
is given anything. Other settings start their search. With its threads it succeeds if the bits of what
it hashes can be counted in a word, and fails if a nonce does not fit into memory. Without a given
difficulty no length is wrong. -/
theorem sample_refused_iff (host : Host) (s : SampleSettings) :
    (∀ e, Refuses host s e ↔ s.faults.head? = some e) ∧
    (∀ e, Refuses host s e →
      (∀ (other : Host) (threads : Nat), Refuses other { s with threads } e) ∧
      (∀ logging, (run host logging (.sample s)).stdout = [] ∧
        (run host logging (.sample s)).exitCode = 1 ∧
        ∃ before, (run host logging (.sample s)).notices =
          before ++ [.line s!"Error: {e.message}"]) ∧
      ∀ challenge difficulty, s.resolveChallenge = .ok challenge →
        s.resolveDifficulty = .ok difficulty →
        ∃ cause, e = .search cause ∧ ∀ {τ ε : Type} (sink : Sink τ ε) (t : τ),
          search host s (s.puzzle challenge difficulty) sink t =
            ⟨.error (.search cause), t, []⟩) ∧
    (s.faults = [] → Starts host s ∧
      (Staffed host s →
        (∀ challenge, s.resolveChallenge = .ok challenge →
          8 * (challenge.length + s.nonceLength) < 2 ^ 64 →
          ∃ sampled, sample host s = .ok sampled) ∧
        (0 < s.attempts → Bytes.lengthLimit < s.nonceLength →
          sample host s = .error (.search (if (s.workers host.processors).threads ≤ 1 then
            .nonceTooLong s.nonceLength else .workerFailed))))) ∧
    (s.difficulty = none → ∀ cause, sample host s ≠ .error (.search (.wrongLength cause)) ∧
      sample host s ≠ .error (.wrongLength cause)) := by
  refine ⟨fun e => refuses_iff, ?_, ?_, ?_⟩
  · intro e h
    have hfirst := refuses_iff.1 h
    refine ⟨fun other threads => refuses_iff.2 hfirst, fun logging => ?_, ?_⟩
    · obtain ⟨hstdout, hcode, hnotice⟩ := run_of_error h.fails logging
      rw [s.exitCode_of_mem_faults (List.mem_of_head? hfirst)] at hcode
      exact ⟨hstdout, hcode, hnotice⟩
    · exact fun challenge difficulty hchallenge hdifficulty => h.search_eq hchallenge hdifficulty
  · intro hnone
    have hstarts : Starts host s := by
      rcases starts_or_refuses host s with ⟨-, hstarts⟩ | ⟨e, he, -⟩
      · exact hstarts
      · rw [hnone] at he
        cases he
    refine ⟨hstarts, fun hstaffed => ?_⟩
    obtain ⟨hok, hlong⟩ := sample_of_starts hstarts hstaffed
    refine ⟨fun challenge _ hcounted => hok (.inr ?_), hlong⟩
    rw [Bytes.lengthLimit]
    omega
  · intro hnone cause
    rcases starts_or_refuses host s with ⟨-, hstarts⟩ | ⟨e, he, hrefuses⟩
    · exact ne_wrongLength_of_starts hstarts cause
    · obtain ⟨hsearch, hverify⟩ :=
        s.ne_wrongLength_of_mem_faults hnone (List.mem_of_head? he) cause
      rw [hrefuses.fails]
      exact ⟨fun h => hsearch (Except.error.inj h), fun h => hverify (Except.error.inj h)⟩

/-- An empty nonce is found before a given difficulty of the wrong length. -/
theorem sample_refused_iff_empty_nonce :
    let host : Host :=
      ⟨1, fun _ => ⟨List.replicate 32 0, List.length_replicate⟩, .willing, .managerFirst⟩
    let s : SampleSettings :=
      { difficulty := some ⟨[0, 255], by decide⟩, nonceLength := 0, threads := 4 }
    s.faults = [.search (.emptyNonce 0), .search (.wrongLength ⟨2, 32⟩)] ∧
      Refuses host s (.search (.emptyNonce 0)) ∧
      Refuses host { s with threads := 1 } (.search (.emptyNonce 0)) ∧
      (run host (.ok ()) (.sample s)).stdout = [] := by
  intro host s
  have hfaults : s.faults = [.search (.emptyNonce 0), .search (.wrongLength ⟨2, 32⟩)] := rfl
  obtain ⟨hiff, hrefused, -⟩ := sample_refused_iff host s
  have h : Refuses host s (.search (.emptyNonce 0)) := (hiff _).2 (by rw [hfaults]; rfl)
  obtain ⟨hthreads, hrun, -⟩ := hrefused _ h
  exact ⟨hfaults, h, hthreads host 1, (hrun (.ok ())).1⟩

end Program

end ProofOfWork

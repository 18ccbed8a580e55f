import ProofOfWork.Invocation
import ProofOfWork.Proofs.Bytes.Hex
import ProofOfWork.Proofs.CommandLine.Options
import ProofOfWork.Proofs.Digest.Algorithm

/-! Every verification can be asked for on the command line. -/
namespace ProofOfWork

open CommandLine

theorem Hex.isValue_encode (bs : Bytes) : IsValue (encode bs) := by
  intro hhead
  rw [encode, String.toList_ofList] at hhead
  exact absurd (List.mem_of_head? hhead) (not_mem_encodeChars (by decide) bs)

theorem Algorithm.isValue_name (a : Algorithm) : IsValue a.name := by
  unfold IsValue
  cases a <;> decide

namespace LogSettings

theorem ofScans_of_silent {options : List (Argument × String)}
    (hverbose : options.filter (·.1.long == verboseArgument.long) = [])
    (hfile : options.filter (·.1.long == fileArgument.long) = []) :
    ofScans .empty (.ofOptions options) = .ok ⟨0, none⟩ := by
  have hcount : (Scan.ofOptions options).count verboseArgument = 0 := by
    rw [Scan.count_ofOptions, hverbose]
    rfl
  have hinner : ofScan (.ofOptions options) = .ok ⟨0, none⟩ := by
    rw [ofScan, Scan.optional_ofOptions rfl hfile, hcount]
    rfl
  have houter : ofScan .empty = .ok ⟨0, none⟩ := rfl
  have hprevailing : ∀ a, Scan.empty.prevailing (.ofOptions options) a = .ofOptions options :=
    fun a => if_neg (Nat.not_lt_zero _)
  unfold ofScans
  simp only [hprevailing, hinner, houter]
  rfl

end LogSettings

theorem Invocation.readTask_of_ok {outer inner : Scan} {words : List String} {name : String}
    {subcommand : Option (String × List String)} {required : List Argument}
    {read : Scan → Except Refusal Task} {task : Task} {log : LogSettings}
    (hscan : (taskCommand name (taskArguments name)).scan .empty words = .ok (inner, subcommand))
    (hsettle : inner.settle required = .ok ()) (hread : read inner = .ok task)
    (hlog : LogSettings.ofScans outer inner = .ok log) :
    readTask outer words name required read = .ok ⟨log, task⟩ := by
  simp only [readTask, hscan, bind, Except.bind, hsettle, hread, hlog]
  rfl

/-- The options of a verification with its settings as their values. -/
def VerifySettings.options (v : VerifySettings) : List (Argument × String) :=
  [(challengeArgument, Hex.encode v.challenge), (nonceArgument, Hex.encode v.nonce),
    (SampleSettings.difficultyArgument, v.difficulty.toHex),
    (SampleSettings.algorithmArgument, v.algorithm.name)]

/-- The words that ask for a verification. -/
def VerifySettings.words (v : VerifySettings) : List String :=
  Invocation.verifyName :: optionWords v.options

namespace VerifySettings

theorem offers_of_mem_arguments {a : Argument} (h : a ∈ arguments) :
    (Invocation.taskCommand Invocation.verifyName arguments).Offers a := by
  simp only [arguments, List.mem_cons, List.not_mem_nil, or_false] at h
  rcases h with rfl | rfl | rfl | rfl
  all_goals exact ⟨rfl, by decide, rfl, by decide, by decide⟩

theorem ofScan_options (v : VerifySettings) : ofScan (.ofOptions v.options) = .ok v := by
  have hchallenge : SampleSettings.readBytes (Hex.encode v.challenge) = .ok v.challenge := by
    rw [SampleSettings.readBytes, Hex.ofText_encode]
    rfl
  have hnonce : SampleSettings.readBytes (Hex.encode v.nonce) = .ok v.nonce := by
    rw [SampleSettings.readBytes, Hex.ofText_encode]
    rfl
  have hdifficulty : SampleSettings.readDifficulty v.difficulty.toHex = .ok v.difficulty := by
    rw [SampleSettings.readDifficulty, Difficulty.ofText_toHex]
    rfl
  have halgorithm : SampleSettings.readAlgorithm v.algorithm.name = .ok v.algorithm := by
    rw [SampleSettings.readAlgorithm, Algorithm.ofText_name]
    rfl
  rw [ofScan, Scan.required_ofOptions rfl hchallenge, Scan.required_ofOptions rfl hnonce,
    Scan.required_ofOptions rfl hdifficulty, Scan.required_ofOptions rfl halgorithm]
  rfl

theorem taskArguments_verifyName :
    Invocation.taskArguments Invocation.verifyName = arguments :=
  rfl

theorem map_fst_options (v : VerifySettings) : v.options.map Prod.fst = arguments :=
  rfl

theorem isValue_of_mem_options {v : VerifySettings} {o : Argument × String}
    (h : o ∈ v.options) : IsValue o.2 := by
  simp only [options, List.mem_cons, List.not_mem_nil, or_false] at h
  rcases h with rfl | rfl | rfl | rfl
  · exact Hex.isValue_encode _
  · exact Hex.isValue_encode _
  · exact Hex.isValue_encode _
  · exact Algorithm.isValue_name _

/-- The words of a verification are read as that verification. -/
theorem ofWords_words (v : VerifySettings) :
    Invocation.ofWords v.words = .ok ⟨⟨0, none⟩, .verify v⟩ := by
  have houter : Invocation.program.scan .empty v.words =
      .ok (.empty, some (Invocation.verifyName, optionWords v.options)) := rfl
  have hinner : (Invocation.taskCommand Invocation.verifyName
      (Invocation.taskArguments Invocation.verifyName)).scan .empty (optionWords v.options) =
        .ok (.ofOptions v.options, none) := by
    rw [taskArguments_verifyName]
    apply Scan.scan_optionWords
    intro o ho
    have hargument : o.1 ∈ arguments := v.map_fst_options ▸ List.mem_map_of_mem ho
    exact ⟨offers_of_mem_arguments hargument, isValue_of_mem_options ho⟩
  have hsettle : (Scan.ofOptions v.options).settle required = .ok () := by
    apply Scan.settle_ofOptions
    rw [map_fst_options]
    decide
  have hlog : LogSettings.ofScans .empty (.ofOptions v.options) = .ok ⟨0, none⟩ :=
    LogSettings.ofScans_of_silent rfl rfl
  have hread : Task.verify <$> ofScan (.ofOptions v.options) = .ok (.verify v) := by
    rw [ofScan_options]
    rfl
  have htask : Invocation.readTask .empty (optionWords v.options) Invocation.verifyName required
      (fun s => .verify <$> ofScan s) = .ok ⟨⟨0, none⟩, .verify v⟩ :=
    Invocation.readTask_of_ok hinner hsettle hread hlog
  rw [Invocation.ofWords, houter]
  exact htask

end VerifySettings

end ProofOfWork

import ProofOfWork.Difficulty.Retarget
import ProofOfWork.Settings.Log
import ProofOfWork.Settings.Sample

/-! What a command line asks for. -/
namespace ProofOfWork

structure VerifySettings where
  challenge : Bytes
  nonce : Bytes
  difficulty : Difficulty
  algorithm : Algorithm

namespace VerifySettings

open CommandLine

def challengeArgument : Argument := .option "challenge" (some 'c') "challenge-hex"
def nonceArgument : Argument := .option "nonce" (some 'n') "nonce-hex"

def arguments : List Argument :=
  [challengeArgument, nonceArgument, SampleSettings.difficultyArgument,
    SampleSettings.algorithmArgument]

def required : List Argument :=
  [challengeArgument, nonceArgument, SampleSettings.difficultyArgument]

def ofScan (s : Scan) : Except Refusal VerifySettings := do
  return {
    challenge := ← s.required challengeArgument SampleSettings.readBytes
    nonce := ← s.required nonceArgument SampleSettings.readBytes
    difficulty := ← s.required SampleSettings.difficultyArgument SampleSettings.readDifficulty
    algorithm := ← s.required SampleSettings.algorithmArgument SampleSettings.readAlgorithm }

end VerifySettings

structure RetargetSettings where
  difficulty : Difficulty
  timing : Timing

namespace RetargetSettings

open CommandLine

def previousArgument : Argument := .option "previous" none "previous"
def currentArgument : Argument := .option "current" none "current"
def targetArgument : Argument := .defaulted "target-interval" none "seconds" "600"

def arguments : List Argument :=
  [SampleSettings.difficultyArgument, previousArgument, currentArgument, targetArgument]

def required : List Argument :=
  [SampleSettings.difficultyArgument, previousArgument, currentArgument]

def ofScan (s : Scan) : Except Refusal RetargetSettings := do
  let difficulty ← s.required SampleSettings.difficultyArgument SampleSettings.readDifficulty
  let previous ← s.required previousArgument (readNatural 64)
  let current ← s.required currentArgument (readNatural 64)
  let target ← s.required targetArgument (readNatural 64)
  return { difficulty, timing := { previous, current, target } }

end RetargetSettings

/-- The program's commands. -/
inductive Task
  | sample (settings : SampleSettings)
  | verify (settings : VerifySettings)
  | retarget (settings : RetargetSettings)
  | info

structure Invocation where
  log : LogSettings
  task : Task

namespace Invocation

open CommandLine

def programName : String := "zeroforge"

def programVersion : String := "0.1.0"

def sampleName : String := "sample"
def verifyName : String := "verify"
def retargetName : String := "retarget"
def infoName : String := "info"
def helpName : String := "help"

def taskNames : List String := [sampleName, verifyName, retargetName, infoName]

/-- The first line of the pages of a command. -/
def title (name : String) : String :=
  s!"{programName}-{name} {programVersion}"

def program : Command where
  title := s!"{programName} {programVersion}"
  arguments := LogSettings.arguments ++ [.help, .version]
  subcommands := taskNames ++ [helpName]

def taskCommand (name : String) (arguments : List Argument) : Command where
  title := title name
  arguments := arguments ++ LogSettings.arguments ++ [.help, .version]
  subcommands := []

/-- The arguments of a task without those that every task has. -/
def taskArguments (name : String) : List Argument :=
  if name == sampleName then SampleSettings.arguments
  else if name == verifyName then VerifySettings.arguments
  else if name == retargetName then RetargetSettings.arguments
  else []

/-- The page of `help` itself shows no version. -/
def helpCommand : Command where
  title := s!"{programName}-{helpName} "
  arguments := []
  subcommands := []

/-- Words after `help` name the command whose page is wanted; no command has another below it. -/
def helpPage : List String → Refusal
  | [] => .help program
  | word :: words =>
    if word == helpName || taskNames.contains word then
      match words with
      | next :: _ => .unknownCommand next
      | [] => .help (if word == helpName then helpCommand else taskCommand word (taskArguments word))
    else .unknownCommand word

/-- A subcommand is checked before the arguments in front of it. -/
def readTask (outer : Scan) (words : List String) (name : String) (required : List Argument)
    (read : Scan → Except Refusal Task) : Except Refusal Invocation := do
  let (inner, _) ← (taskCommand name (taskArguments name)).scan .empty words
  inner.settle required
  let task ← read inner
  let log ← LogSettings.ofScans outer inner
  return { log, task }

def ofWords (words : List String) : Except Refusal Invocation := do
  match ← program.scan .empty words with
  | (_, none) => throw .missingCommand
  | (outer, some (name, rest)) =>
    if name == helpName then throw (helpPage rest)
    else if name == sampleName then
      readTask outer rest name [] fun s =>
        .sample <$> SampleSettings.ofScan s
    else if name == verifyName then
      readTask outer rest name VerifySettings.required fun s =>
        .verify <$> VerifySettings.ofScan s
    else if name == retargetName then
      readTask outer rest name RetargetSettings.required fun s =>
        .retarget <$> RetargetSettings.ofScan s
    else readTask outer rest name [] fun _ => .ok .info

end Invocation

end ProofOfWork

import ProofOfWork.CommandLine.Values
import ProofOfWork.Difficulty.Basic
import ProofOfWork.Digest.Algorithm
import ProofOfWork.Pool.Search
import ProofOfWork.Report.Format

/-! Settings of a sampling run, and the challenge, difficulty and workers that they stand for. -/
namespace ProofOfWork

structure SampleSettings where
  challenge : Option Bytes := none
  challengeText : Option String := none
  difficulty : Option Difficulty := none
  zeroBits : Option Nat := none
  attempts : Nat := 1000
  nonceLength : Nat := 10
  algorithm : Algorithm := .sha256
  seed : Option UInt64 := none
  threads : Nat := 1
  format : LineFormat := .text
  untilPass : Bool := false
  progress : Bool := false
  keepPriority : Bool := false

namespace SampleSettings

instance : Inhabited SampleSettings := ⟨{}⟩

/-- The text that is hashed when no challenge is given. -/
def defaultChallengeText : String := "text"

/-- The leading zero bits required when no difficulty is given. -/
def defaultZeroBits : Nat := 4

inductive Error
  | conflict (first second : String)
  | difficulty (cause : Difficulty.Error)
  deriving DecidableEq

def Error.message : Error → String
  | .conflict first second => s!"{first} and {second} can't be used together"
  | .difficulty cause => cause.message

def Error.isBreakdown : Error → Bool
  | .difficulty cause => cause.isBreakdown
  | .conflict _ _ => false

def digestText (s : SampleSettings) (text : String) : Bytes :=
  s.algorithm.digest [Text.utf8 text.toList]

def resolveChallenge (s : SampleSettings) : Except Error Bytes :=
  match s.challenge, s.challengeText with
  | some _, some _ => .error (.conflict "--challenge" "--challenge-text")
  | some challenge, none => .ok challenge
  | none, some text => .ok (s.digestText text)
  | none, none => .ok (s.digestText defaultChallengeText)

/-- An encoding built from a count is as long as a digest. -/
def resolveDifficulty (s : SampleSettings) : Except Error Difficulty :=
  let sized (bits : Nat) : Except Error Difficulty :=
    (Difficulty.ofZeroBits bits s.algorithm.outputLength).mapError .difficulty
  match s.difficulty, s.zeroBits with
  | some _, some _ => .error (.conflict "--difficulty" "--zero-bits")
  | some difficulty, none => .ok difficulty
  | none, some bits => sized bits
  | none, none => sized defaultZeroBits

def mode (s : SampleSettings) : Mode :=
  if s.untilPass then .firstPass else .exhaustive

def plan (s : SampleSettings) : Plan where
  attempts := s.attempts
  nonceLength := s.nonceLength

/-- Zero threads stand for one on each processor. -/
def workers (s : SampleSettings) (processors : Nat) : Pool.Workers where
  threads := if s.threads = 0 then processors else s.threads
  seed := s.seed
  mode := s.mode
  keepPriority := s.keepPriority

open CommandLine

def challengeArgument : Argument := .option "challenge" (some 'c') "hex"
def challengeTextArgument : Argument := .option "challenge-text" none "text"
def difficultyArgument : Argument := .option "difficulty" (some 'd') "encoding"
def zeroBitsArgument : Argument := .option "zero-bits" (some 'z') "bits"
def attemptsArgument : Argument := .defaulted "attempts" (some 'n') "attempts" "1000"
def nonceLengthArgument : Argument := .defaulted "nonce-length" (some 'l') "nonce-length" "10"
def algorithmArgument : Argument := .defaulted "hash" none "algorithm" "sha256"
def seedArgument : Argument := .option "seed" none "seed"
def threadsArgument : Argument := .defaulted "threads" (some 't') "threads" "1"
def formatArgument : Argument := .defaulted "format" (some 'f') "format" "text"
def untilPassArgument : Argument := .flag "until-pass"
def progressArgument : Argument := .flag "progress"
def keepPriorityArgument : Argument := .flag "keep-thread-priority"

def arguments : List Argument :=
  [challengeArgument, challengeTextArgument, difficultyArgument, zeroBitsArgument,
    attemptsArgument, nonceLengthArgument, algorithmArgument, seedArgument, threadsArgument,
    formatArgument, untilPassArgument, progressArgument, keepPriorityArgument]

def readBytes (text : String) : Except String Bytes :=
  (Hex.ofText text).mapError (·.message)

def readDifficulty (text : String) : Except String Difficulty :=
  (Difficulty.ofText text).mapError (·.message)

def readAlgorithm (text : String) : Except String Algorithm :=
  (Algorithm.ofText text).mapError (·.message)

def readFormat (text : String) : Except String LineFormat :=
  (LineFormat.ofText text).mapError (·.message)

def ofScan (s : Scan) : Except Refusal SampleSettings := do
  return {
    challenge := ← s.optional challengeArgument readBytes
    challengeText := ← s.optional challengeTextArgument .ok
    difficulty := ← s.optional difficultyArgument readDifficulty
    zeroBits := ← s.optional zeroBitsArgument (readNatural 32)
    attempts := ← s.required attemptsArgument (readNatural 64)
    nonceLength := ← s.required nonceLengthArgument (readNatural 64)
    algorithm := ← s.required algorithmArgument readAlgorithm
    seed := (← s.optional seedArgument (readNatural 64)).map UInt64.ofNat
    threads := ← s.required threadsArgument (readNatural 64)
    format := ← s.required formatArgument readFormat
    untilPass := ← s.flag untilPassArgument
    progress := ← s.flag progressArgument
    keepPriority := ← s.flag keepPriorityArgument }

/-- The settings on a command line of their own. -/
def command (title : String) : Command where
  title := title
  arguments := arguments ++ [.help, .version]
  subcommands := []

def ofWords (title : String) (words : List String) : Except Refusal SampleSettings := do
  let (s, _) ← (command title).scan .empty words
  s.settle []
  ofScan s

end SampleSettings

end ProofOfWork

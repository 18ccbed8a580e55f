import ProofOfWork.HashRate
import ProofOfWork.Invocation
import ProofOfWork.Random.Stream
import ProofOfWork.Report.Basic

/-! The program as a function of its settings and its host. -/
namespace ProofOfWork

/-- What the program learns from the machine that it runs on. -/
structure Host where
  processors : Nat
  entropy : Entropy
  /-- The threads that can be made for a search. -/
  launcher : Pool.Launcher
  /-- The order in which threads make progress. -/
  schedule : Pool.Schedule

namespace Host

/-- The threads and algorithms that are available. -/
def describe (h : Host) : String :=
  let algorithms := ", ".intercalate (Algorithm.all.map Algorithm.describe)
  s!"Host:\n\tThreads: {h.processors}\n\tHash algorithms: {algorithms}"

end Host

namespace Program

inductive Error
  | settings (cause : SampleSettings.Error)
  | search (cause : SearchError)
  | report (cause : Report.Error)
  | wrongLength (cause : WrongLength)

def Error.message : Error → String
  | .settings cause => cause.message
  | .search cause => cause.message
  | .report cause => cause.message
  | .wrongLength cause => cause.message

def Error.isBreakdown : Error → Bool
  | .settings cause => cause.isBreakdown
  | .search cause => cause.isBreakdown
  | .report _ | .wrongLength _ => false

/-- A breakdown has an exit code of its own. -/
def Error.exitCode (e : Error) : Nat :=
  if e.isBreakdown then 101 else 1

def Error.ofFailure : Failure Report.Error → Error
  | .search cause => .search cause
  | .refused cause => .report cause

/-- A line on the error stream. -/
inductive Notice
  | line (text : String)
  /-- The totals of a run, which are shown with its hash rate. -/
  | totals (tally : Tally) (required : Nat)

namespace Notice

def text : Notice → String
  | .line text => text
  | .totals tally required =>
    s!"{tally.passed} of {tally.attempts} attempts met {required} leading zero bits"

def render (elapsed : Duration) (n : Notice) : String :=
  match n with
  | .line text => text
  | .totals tally _ =>
    let rate : HashRate := { hashes := tally.attempts, elapsed }
    s!"{n.text} ({rate})"

end Notice

structure Output where
  stdout : Bytes
  notices : List Notice
  log : List LogLine
  exitCode : Nat

def Output.line (text : String) : Bytes :=
  Text.utf8 text.toList ++ Report.newline

/-- A sampling run that came to its end. -/
structure Sampled where
  stdout : Bytes
  tally : Tally
  required : Nat
  log : List LogLine

/-- Writes each attempt to the end of the output. -/
def reportSink (r : Report) : Sink Written Report.Error :=
  r.write .memory

/-- The search with the settings, on the calling thread or by a pool. -/
def search (host : Host) (s : SampleSettings) (p : Puzzle) (sink : Sink τ ε) (t : τ) :
    Pool.Outcome τ ε :=
  let workers := s.workers host.processors
  let stream := streamOf host.entropy s.seed
  if workers.threads ≤ 1 then
    match Search.start p s.plan ChaCha.source (stream 0) with
    | .error cause => ⟨.error (.search cause), t, []⟩
    | .ok search =>
      let delivery := Search.feed.deliver sink (search.inMode s.mode) t
      ⟨delivery.result, delivery.sink, []⟩
  else
    Pool.search p s.plan workers ChaCha.source (fun i => .ok (stream i)) host.launcher host.schedule
      sink t

def reportOf (s : SampleSettings) (challenge : Bytes) : Report where
  format := s.format
  challenge := if s.format = .json then some challenge else none

def sample (host : Host) (s : SampleSettings) : Except Error Sampled := do
  let challenge ← s.resolveChallenge.mapError .settings
  let difficulty ← s.resolveDifficulty.mapError .settings
  let puzzle : Puzzle :=
    { hasher := s.algorithm.hasher, challenge, threshold := difficulty.threshold }
  let outcome := search host s puzzle (reportSink (reportOf s challenge)) .empty
  let tally ← outcome.result.mapError .ofFailure
  return { stdout := outcome.sink.bytes, tally, required := puzzle.threshold.required,
           log := outcome.log }

def verify (s : VerifySettings) : Except Error Bool :=
  (s.difficulty.threshold.judge (s.algorithm.digest [s.challenge, s.nonce])).mapError
    .wrongLength

def retargetNotice (before after : Difficulty) (adjustment : Adjustment) : String :=
  s!"{before.required} -> {after.required} leading zero bits ({adjustment.name})"

def runTask (host : Host) : Task → Except Error Output
  | .sample settings => do
    let sampled ← sample host settings
    return { stdout := sampled.stdout, notices := [.totals sampled.tally sampled.required],
             log := sampled.log, exitCode := 0 }
  | .verify settings => do
    let passed ← verify settings
    return { stdout := Output.line (toString passed), notices := [], log := [], exitCode := 0 }
  | .retarget settings => do
    let (adjustment, moved) := settings.difficulty.retarget settings.timing
    return { stdout := Output.line moved.toHex
             notices := [.line (retargetNotice settings.difficulty moved adjustment)]
             log := [settings.difficulty.retargetLog settings.timing], exitCode := 0 }
  | .info => do
    return { stdout := Output.line host.describe, notices := [], log := [], exitCode := 0 }

/-- Runs a task whose log could be opened or not. -/
def run (host : Host) (logging : Except String Unit) (task : Task) : Output :=
  let disabled : List Notice :=
    match logging with
    | .ok () => []
    | .error cause => [.line s!"Logging disabled: {cause}"]
  match runTask host task with
  | .ok output => { output with notices := disabled ++ output.notices }
  | .error cause =>
    { stdout := [], notices := disabled ++ [.line s!"Error: {cause.message}"], log := [],
      exitCode := cause.exitCode }

end Program

end ProofOfWork

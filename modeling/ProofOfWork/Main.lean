import ProofOfWork.Program

/-! The command line: everything that touches the machine. -/
namespace ProofOfWork.Main

/-- The text of the operating system and its number for an error. -/
def osText : IO.Error → String
  | .noFileOrDirectory _ code details => s!"{details} (os error {code})"
  | .permissionDenied _ code details => s!"{details} (os error {code})"
  | .inappropriateType _ code details => s!"{details} (os error {code})"
  | .invalidArgument _ code details => s!"{details} (os error {code})"
  | e => toString e

def countProcessors : IO Nat := do
  try
    let text ← IO.FS.readFile "/proc/cpuinfo"
    return max 1 ((text.splitOn "\n").countP (·.startsWith "processor"))
  catch _ => return 1

/-- Keys cut out of the keystream of one random key. -/
def gatherEntropy : IO Entropy := do
  let bytes := (← IO.getRandomBytes 32).toList
  if h : bytes.length = 32 then
    let master : ChaCha.Key := ⟨bytes, h⟩
    return fun i => ⟨(ChaCha.block master (UInt64.ofNat i)).take 32, by simp [ChaCha.blockSize]⟩
  else throw (IO.userError "no random bytes")

/-- The place of the log in the data directory of the user. -/
def defaultLogFile : IO (Option String) := do
  let home := (← IO.getEnv "HOME").map (· ++ "/.local/share")
  let some base := (← IO.getEnv "XDG_DATA_HOME") <|> home | return none
  let directory := base ++ "/" ++ Invocation.programName
  IO.FS.createDirAll directory
  return some (directory ++ "/" ++ Invocation.programName ++ ".log")

def openLog (settings : LogSettings) : IO (Except String IO.FS.Handle) := do
  try
    let path ←
      match settings.file with
      | some path => pure (some path)
      | none => defaultLogFile
    match path with
    | some path => return .ok (← IO.FS.Handle.mk path .write)
    | none => return .error "couldn't determine data directory"
  catch e => return .error s!"IO error: {osText e}"

def runInvocation (invocation : Invocation) : IO UInt32 := do
  let handle ← openLog invocation.log
  let host : Host :=
    { processors := ← countProcessors, entropy := ← gatherEntropy, launcher := .willing,
      schedule := .managerFirst }
  let started ← IO.monoNanosNow
  let output := Program.run host (handle.map fun _ => ()) invocation.task
  let stdout ← IO.getStdout
  stdout.write ⟨output.stdout.toArray⟩
  stdout.flush
  let elapsed := (← IO.monoNanosNow) - started
  let span : Duration :=
    ⟨elapsed / Duration.nanosecondsPerSecond, elapsed % Duration.nanosecondsPerSecond⟩
  if let .ok file := handle then
    for line in output.log do
      if line.level.detail ≤ invocation.log.level.detail then file.putStrLn line.render
  for notice in output.notices do
    IO.eprintln (notice.render span)
  return output.exitCode.toUInt32

def runWords (words : List String) : IO UInt32 :=
  match Invocation.ofWords words with
  | .ok invocation => runInvocation invocation
  | .error (.help c) => do
    c.page.forM fun line => IO.println line
    return 0
  | .error (.version title) => do
    IO.println title
    return 0
  | .error refusal => do
    IO.eprintln refusal.message
    return 1

end ProofOfWork.Main

def main (words : List String) : IO UInt32 :=
  ProofOfWork.Main.runWords words

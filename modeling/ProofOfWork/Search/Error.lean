import ProofOfWork.Difficulty.Threshold

/-! Why a search cannot start or go on. -/
namespace ProofOfWork

inductive SearchError
  | emptyNonce (nonceLength : Nat)
  | wrongLength (cause : WrongLength)
  | sourceExhausted (cause : String)
  /-- Memory holds no nonce of the length. -/
  | nonceTooLong (nonceLength : Nat)
  /-- The hasher gave no digest. -/
  | hasherFailed
  /-- The machine made no thread for a worker of a pool. -/
  | launchFailed (cause : String)
  /-- A worker of a pool broke down. -/
  | workerFailed
  deriving DecidableEq

namespace SearchError

def message : SearchError → String
  | .emptyNonce n => s!"nonce length must be positive, got {n}"
  | .wrongLength cause => cause.message
  | .sourceExhausted cause => s!"random source exhausted: {cause}"
  | .nonceTooLong n => s!"no memory holds a nonce of {n} bytes"
  | .hasherFailed => "the hasher gave no digest"
  | .launchFailed cause => s!"couldn't spawn sampler thread: {cause}"
  | .workerFailed => "a sampler thread panicked"

/-- The search broke down while it was asked for an item. No one hears of it but whoever asked: it
ends a worker without a word. -/
def isBreakdown : SearchError → Bool
  | .nonceTooLong _ | .hasherFailed => true
  | .emptyNonce _ | .wrongLength _ | .sourceExhausted _ | .launchFailed _ | .workerFailed => false

end SearchError

end ProofOfWork

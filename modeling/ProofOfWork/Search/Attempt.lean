import ProofOfWork.Difficulty.Threshold
import ProofOfWork.Digest.Hasher

/-! Attempts at a puzzle: a nonce is hashed after the challenge and the digest is judged. -/
namespace ProofOfWork

structure Puzzle where
  hasher : Hasher
  challenge : Bytes
  threshold : Threshold

/-- A hashed nonce and its verdict. -/
structure Attempt where
  nonce : Bytes
  leadingZeros : Nat
  passed : Bool
  deriving DecidableEq

namespace Puzzle

/-- There is no digest if the hasher breaks down. -/
def digest (p : Puzzle) (nonce : Bytes) : Option Bytes :=
  p.hasher.digest [p.challenge, nonce]

def attempt (p : Puzzle) (nonce : Bytes) : Option Attempt :=
  (p.digest nonce).map fun digest =>
    { nonce
      leadingZeros := digest.leadingZeros
      passed := p.threshold.required ≤ digest.leadingZeros }

/-- Checks a nonce that was found before. -/
def verify (p : Puzzle) (nonce : Bytes) : Option Bool :=
  (p.digest nonce).map p.threshold.accepts

/-- As `verify`, but a digest must have the length of the difficulty encoding. -/
def verifyStrictly (p : Puzzle) (nonce : Bytes) : Option (Except WrongLength Bool) :=
  (p.digest nonce).map p.threshold.judge

end Puzzle

end ProofOfWork

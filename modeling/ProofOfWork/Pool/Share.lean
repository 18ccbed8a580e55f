/-! The shares of the attempts that the workers of a pool make. -/
namespace ProofOfWork.Pool

/-- At least one worker, and none without an attempt. -/
def workerCount (threads attempts : Nat) : Nat :=
  min (max threads 1) (max attempts 1)

/-- Equal shares; the first workers make one attempt more where the attempts do not divide. -/
def share (attempts workers index : Nat) : Nat :=
  attempts / workers + if index < attempts % workers then 1 else 0

end ProofOfWork.Pool

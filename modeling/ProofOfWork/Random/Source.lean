import ProofOfWork.Bytes.Basic

/-! Sources of random bytes. -/
namespace ProofOfWork

/-- Some number of bytes. -/
abbrev Block (n : Nat) := { bs : Bytes // bs.length = n }

/-- A state machine that draws blocks of bytes; a failed draw gives its cause. -/
structure Source (σ : Type) where
  draw : (n : Nat) → σ → Except String (Block n) × σ

namespace Source

/-- The same source beside a count of the draws made from it. -/
def counted (s : Source σ) : Source (σ × Nat) where
  draw n state :=
    let (drawn, next) := s.draw n state.1
    (drawn, next, state.2 + 1)

end Source

end ProofOfWork

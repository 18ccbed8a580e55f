import ProofOfWork.Bytes.Basic

/-! Hash functions as a search sees them. -/
namespace ProofOfWork

/-- A hash function with the digest length that it declares; on some inputs it may break down. -/
structure Hasher where
  outputLength : Nat
  digest : List Bytes → Option Bytes

/-- The hasher never breaks down. -/
def Hasher.Total (h : Hasher) : Prop :=
  ∀ parts, (h.digest parts).isSome

end ProofOfWork

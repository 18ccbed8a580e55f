import ProofOfWork.Random.ChaCha

/-! The generators behind the streams of a search. -/
namespace ProofOfWork

/-- Keys from outside for the streams of a search without a seed. -/
abbrev Entropy := Nat → ChaCha.Key

/-- Stream `index` of a seed, or of the entropy. -/
def streamOf (entropy : Entropy) (seed : Option UInt64) (index : Nat) : ChaCha.Generator :=
  match seed with
  | some seed => ChaCha.seeded seed index.toUInt64
  | none => .start (entropy index)

end ProofOfWork

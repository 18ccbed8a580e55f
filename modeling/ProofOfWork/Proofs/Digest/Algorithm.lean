import ProofOfWork.Digest.Algorithm

/-! Digests have the length that their algorithm declares, and algorithms are known by their names. -/
namespace ProofOfWork.Algorithm

theorem length_digest (a : Algorithm) (parts : List Bytes) :
    (a.digest parts).length = a.outputLength := by
  cases a with
  | sha256 => exact Sha2.Context.length_finish _ 32 (by decide)
  | sha384 => exact Sha2.Context.length_finish _ 48 (by decide)
  | sha512 => exact Sha2.Context.length_finish _ 64 (by decide)
  | sha512Over256 => exact Sha2.Context.length_finish _ 32 (by decide)

theorem hasher_total (a : Algorithm) : a.hasher.Total :=
  fun _ => rfl

theorem ofText_name (a : Algorithm) : ofText a.name = .ok a := by
  cases a <;> rfl

end ProofOfWork.Algorithm

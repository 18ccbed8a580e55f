import ProofOfWork.Bytes.Basic

/-! Leading zero bits of bytes and of byte sequences, most significant bit first. -/
namespace ProofOfWork

/-- Zero bits above the highest set bit; the zero byte has eight. -/
def byteZeros (b : UInt8) : Nat :=
  ([7, 6, 5, 4, 3, 2, 1, 0].takeWhile fun i => !b.toNat.testBit i).length

/-- Counts are 32-bit words and stay at the largest one. -/
def countLimit : Nat := 0xFFFFFFFF

namespace Bytes

/-- Eight for each zero byte in front, then the zero bits of the first other byte. -/
def leadingZeros (bs : Bytes) : Nat :=
  let whole := (bs.takeWhile (· == 0)).length
  let rest := (bs.dropWhile (· == 0)).head?.elim 0 byteZeros
  min (8 * whole + rest) countLimit

end Bytes

end ProofOfWork

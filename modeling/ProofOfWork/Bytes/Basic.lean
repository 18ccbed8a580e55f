/-! Byte sequences and the numbers they spell. -/
namespace ProofOfWork

abbrev Bytes := List UInt8

namespace Bytes

/-- The greatest length that a byte sequence can be asked to have. Memory is taken to hold every
sequence up to it; a machine that has less ends the program when it runs out. -/
def lengthLimit : Nat := 0x7FFFFFFFFFFFFFFF

/-- The number spelled with the most significant byte first. -/
def value (bs : Bytes) : Nat :=
  bs.foldl (fun n b => 256 * n + b.toNat) 0

/-- The low `size` bytes of `n`, least significant first. -/
def ofNatLE : (size n : Nat) → Bytes
  | 0, _ => []
  | size + 1, n => n.toUInt8 :: ofNatLE size (n / 256)

/-- The low `size` bytes of `n`, most significant first. -/
def ofNatBE (size n : Nat) : Bytes :=
  (ofNatLE size n).reverse

theorem length_flatMap_of_eq {f : α → Bytes} {size : Nat} (h : ∀ x, (f x).length = size)
    (xs : List α) : (xs.flatMap f).length = size * xs.length := by
  induction xs with
  | nil => rfl
  | cons x xs ih => simp [h, ih, Nat.mul_succ, Nat.add_comm]

@[simp] theorem length_ofNatLE (size n : Nat) : (ofNatLE size n).length = size := by
  induction size generalizing n with
  | zero => rfl
  | succ size ih => simp [ofNatLE, ih]

@[simp] theorem length_ofNatBE (size n : Nat) : (ofNatBE size n).length = size := by
  simp [ofNatBE]

end Bytes

end ProofOfWork

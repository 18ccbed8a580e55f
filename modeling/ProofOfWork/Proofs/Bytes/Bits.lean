import Mathlib.Order.Bounds.Basic
import ProofOfWork.Difficulty.Threshold
import ProofOfWork.Proofs.Bytes.ZeroBits

/-!
Byte sequences as bits. The count of leading zero bits is the length of the zeros in front, and a
digest meets a count exactly if its value is below a power of two.
-/
namespace ProofOfWork

/-- The bits of a byte, most significant first. -/
def byteBits (b : UInt8) : List Bool :=
  (List.range 8).reverse.map b.toNat.testBit

@[simp] theorem length_byteBits (b : UInt8) : (byteBits b).length = 8 := by
  simp [byteBits]

theorem length_takeWhile_byteBits (b : UInt8) :
    ((byteBits b).takeWhile (!·)).length = byteZeros b := by
  rw [byteBits, List.takeWhile_map, List.length_map]
  rfl

theorem replicate_false_isPrefix_iff {k : Nat} {xs : List Bool} :
    List.replicate k false <+: xs ↔ k ≤ (xs.takeWhile (!·)).length := by
  induction xs generalizing k with
  | nil => cases k <;> simp
  | cons x xs ih =>
    cases k with
    | zero => simp
    | succ k =>
      rw [List.replicate_succ, List.cons_prefix_cons, ih]
      cases x <;> simp

namespace Bytes

/-- All bits in their order, those of a byte with the most significant one first. -/
def bits (bs : Bytes) : List Bool :=
  bs.flatMap byteBits

theorem length_takeWhile_bits (bs : Bytes) : (bs.bits.takeWhile (!·)).length = bs.zeroBits := by
  induction bs with
  | nil => rfl
  | cons b bs ih =>
    have hcons : bits (b :: bs) = byteBits b ++ bits bs := List.flatMap_cons
    rw [hcons, List.takeWhile_append, length_takeWhile_byteBits, length_byteBits, zeroBits]
    by_cases hb : b = 0
    · have hall : byteZeros b = 8 := by rw [hb, byteZeros_zero]
      rw [if_pos hall, if_pos hb, List.length_append, ih, length_byteBits]
    · have hfew := byteZeros_lt hb
      rw [if_neg hfew.ne, if_neg hb, length_takeWhile_byteBits]

variable {digest : Bytes}

/-- No count above the number of bits is met. -/
theorem meets_iff_value_lt (hlen : 8 * digest.length < 2 ^ 32) {required : Nat} :
    digest.meets required = true ↔
      required ≤ 8 * digest.length ∧ digest.value < 2 ^ (8 * digest.length - required) := by
  have hle := digest.leadingZeros_le
  unfold meets
  rw [decide_eq_true_iff]
  constructor
  · intro hmeets
    have hfits : required ≤ 8 * digest.length := hmeets.trans hle
    exact ⟨hfits, (le_leadingZeros_iff hlen hfits).1 hmeets⟩
  · rintro ⟨hfits, hvalue⟩
    exact (le_leadingZeros_iff hlen hfits).2 hvalue

/-- The zeros in front are as many as are counted. -/
theorem replicate_false_isPrefix_bits_iff (hlen : 8 * digest.length < 2 ^ 32) {k : Nat} :
    List.replicate k false <+: digest.bits ↔ k ≤ digest.leadingZeros := by
  rw [replicate_false_isPrefix_iff, length_takeWhile_bits, leadingZeros_eq_zeroBits hlen]

/-- A digest meets a count exactly if its value, most significant byte first, is below the power of
two that leaves so many bits out. The count of leading zero bits is the length of the longest prefix
of zeros. -/
theorem meets_threshold_of_bits (digest : Bytes) (hlen : 8 * digest.length < 2 ^ 32) :
    (∀ required, digest.meets required = true ↔
      required ≤ 8 * digest.length ∧ digest.value < 2 ^ (8 * digest.length - required)) ∧
    IsGreatest {k | List.replicate k false <+: digest.bits} digest.leadingZeros := by
  refine ⟨fun required => meets_iff_value_lt hlen, ?_, ?_⟩
  · exact (replicate_false_isPrefix_bits_iff hlen).2 (Nat.le_refl _)
  · intro k hk
    exact (replicate_false_isPrefix_bits_iff hlen).1 hk

theorem meets_threshold_of_bits_three_bytes :
    let digest : Bytes := [0x00, 0x01, 0xAB]
    8 * digest.length < 2 ^ 32 ∧ digest.meets 15 = true ∧ digest.meets 16 = false ∧
      IsGreatest {k | List.replicate k false <+: digest.bits} 15 := by
  intro digest
  have hlen : 8 * digest.length < 2 ^ 32 := by decide
  obtain ⟨hmeets, hgreatest⟩ := meets_threshold_of_bits digest hlen
  refine ⟨hlen, (hmeets 15).2 (by decide), ?_, hgreatest⟩
  rw [Bool.eq_false_iff, ne_eq, hmeets 16]
  decide

end Bytes

end ProofOfWork

import Mathlib.Data.Nat.Bits
import ProofOfWork.Bytes.LeadingZeros
import ProofOfWork.Proofs.Bytes.Value

/-!
Leading zero bits and values. A sequence starts with so many zero bits exactly if its value is
below a power of two.
-/
namespace ProofOfWork

/-- The bits of a number are looked at from the highest one that it may have. -/
theorem le_length_takeWhile_testBit {n x k : Nat} (hx : x < 2 ^ n) (hk : k ≤ n) :
    k ≤ ((List.range n).reverse.takeWhile fun i => !x.testBit i).length ↔ x < 2 ^ (n - k) := by
  induction n generalizing k with
  | zero =>
    obtain rfl : k = 0 := Nat.le_zero.1 hk
    exact iff_of_true (Nat.zero_le _) hx
  | succ n ih =>
    rw [List.range_succ, List.reverse_append, List.reverse_singleton, List.singleton_append]
    cases htop : x.testBit n with
    | true =>
      rw [List.takeWhile_cons_of_neg (by simp [htop]), List.length_nil]
      have hge : 2 ^ n ≤ x := Nat.ge_two_pow_of_testBit htop
      constructor
      · intro hzero
        obtain rfl : k = 0 := Nat.le_zero.1 hzero
        exact hx
      · intro hlt
        by_contra hpos
        have hle : 2 ^ (n + 1 - k) ≤ 2 ^ n := Nat.pow_le_pow_right (by omega) (by omega)
        omega
    | false =>
      rw [List.takeWhile_cons_of_pos (by simp [htop]), List.length_cons]
      have hlow : x < 2 ^ n := by
        apply Nat.lt_pow_two_of_testBit
        intro i hi
        rcases Nat.eq_or_lt_of_le hi with rfl | hlt
        · exact htop
        · exact Nat.testBit_lt_two_pow (Nat.lt_of_lt_of_le hx (Nat.pow_le_pow_right (by omega) hlt))
      cases k with
      | zero => exact iff_of_true (Nat.zero_le _) hx
      | succ k =>
        rw [Nat.add_le_add_iff_right, Nat.add_sub_add_right]
        exact ih hlow (Nat.le_of_succ_le_succ hk)

theorem le_byteZeros_iff {b : UInt8} {k : Nat} (hk : k ≤ 8) :
    k ≤ byteZeros b ↔ b.toNat < 2 ^ (8 - k) :=
  le_length_takeWhile_testBit b.toNat_lt hk

@[simp] theorem byteZeros_zero : byteZeros 0 = 8 := rfl

theorem byteZeros_lt {b : UInt8} (h : b ≠ 0) : byteZeros b < 8 := by
  by_contra hge
  have hzero : b.toNat < 1 := (le_byteZeros_iff (Nat.le_refl 8)).1 (Nat.not_lt.1 hge)
  exact h (UInt8.toNat_inj.1 (Nat.lt_one_iff.1 hzero))

namespace Bytes

/-- The leading zero bits without a limit to the count. -/
def zeroBits : Bytes → Nat
  | [] => 0
  | b :: bs => if b = 0 then 8 + zeroBits bs else byteZeros b

theorem leadingZeros_eq (bs : Bytes) : bs.leadingZeros = min bs.zeroBits countLimit := by
  have huncut : 8 * (bs.takeWhile (· == 0)).length +
      (bs.dropWhile (· == 0)).head?.elim 0 byteZeros = bs.zeroBits := by
    induction bs with
    | nil => rfl
    | cons b bs ih =>
      by_cases h : b = 0
      · subst h
        rw [zeroBits, if_pos rfl, ← ih, List.takeWhile_cons_of_pos rfl,
          List.dropWhile_cons_of_pos rfl, List.length_cons]
        omega
      · simp [zeroBits, h]
  exact congrArg (min · countLimit) huncut

theorem zeroBits_le (bs : Bytes) : bs.zeroBits ≤ 8 * bs.length := by
  induction bs with
  | nil => exact Nat.le_refl 0
  | cons b bs ih =>
    rw [zeroBits, List.length_cons]
    split
    · omega
    · rename_i hb
      have := byteZeros_lt hb
      omega

theorem zeroBits_eq_iff {bs : Bytes} : bs.zeroBits = 8 * bs.length ↔ ∀ b ∈ bs, b = 0 := by
  induction bs with
  | nil => simp [zeroBits]
  | cons b bs ih =>
    rw [zeroBits, List.length_cons, List.forall_mem_cons, ← ih]
    split
    · rename_i hb
      simp only [hb, true_and]
      omega
    · rename_i hb
      have := byteZeros_lt hb
      simp only [hb, false_and, iff_false]
      omega

theorem le_zeroBits_iff {bs : Bytes} {k : Nat} (hk : k ≤ 8 * bs.length) :
    k ≤ bs.zeroBits ↔ bs.value < 2 ^ (8 * bs.length - k) := by
  induction bs generalizing k with
  | nil =>
    obtain rfl : k = 0 := Nat.le_zero.1 hk
    exact iff_of_true (Nat.zero_le _) Nat.one_pos
  | cons b bs ih =>
    have hlow := value_lt bs
    rw [List.length_cons] at hk ⊢
    rw [value_cons, zeroBits]
    by_cases hfew : k ≤ 8
    · -- the first byte alone decides
      have hfirst : k ≤ (if b = 0 then 8 + zeroBits bs else byteZeros b) ↔ k ≤ byteZeros b := by
        split
        · rename_i hb
          subst hb
          exact iff_of_true (by omega) hfew
        · exact Iff.rfl
      have hpow : 2 ^ (8 * (bs.length + 1) - k) = 2 ^ (8 - k) * 2 ^ (8 * bs.length) := by
        rw [← Nat.pow_add]
        congr 1
        omega
      rw [hfirst, le_byteZeros_iff hfew, hpow, ← Nat.div_lt_iff_lt_mul (Nat.two_pow_pos _),
        Nat.mul_comm b.toNat, Nat.mul_add_div (Nat.two_pow_pos _), Nat.div_eq_of_lt hlow,
        Nat.add_zero]
    · -- the first byte must be zero
      have hrest : 8 * (bs.length + 1) - k = 8 * bs.length - (k - 8) := by omega
      rw [hrest]
      by_cases hb : b = 0
      · subst hb
        have hih := @ih (k - 8) (by omega)
        rw [if_pos rfl, UInt8.toNat_zero, Nat.zero_mul, Nat.zero_add, ← hih]
        omega
      · have hzeros := byteZeros_lt hb
        have hpos : 1 ≤ b.toNat := Nat.one_le_iff_ne_zero.2 fun h => hb (UInt8.toNat_inj.1 h)
        have hhigh : 2 ^ (8 * bs.length) ≤ b.toNat * 2 ^ (8 * bs.length) :=
          Nat.le_mul_of_pos_left _ hpos
        have hle : 2 ^ (8 * bs.length - (k - 8)) ≤ 2 ^ (8 * bs.length) :=
          Nat.pow_le_pow_right (by omega) (by omega)
        rw [if_neg hb]
        exact iff_of_false (by omega) (by omega)

variable {bs : Bytes}

/-- The count is exact as long as a word can hold it. -/
theorem leadingZeros_eq_zeroBits (h : 8 * bs.length < 2 ^ 32) : bs.leadingZeros = bs.zeroBits := by
  have hle := bs.zeroBits_le
  rw [leadingZeros_eq, countLimit]
  omega

theorem leadingZeros_le (bs : Bytes) : bs.leadingZeros ≤ 8 * bs.length := by
  rw [leadingZeros_eq]
  exact Nat.le_trans (Nat.min_le_left _ _) bs.zeroBits_le

/-- The first `k` bits are zeros exactly if the value is below that of the bit before the rest. -/
theorem le_leadingZeros_iff (h : 8 * bs.length < 2 ^ 32) {k : Nat} (hk : k ≤ 8 * bs.length) :
    k ≤ bs.leadingZeros ↔ bs.value < 2 ^ (8 * bs.length - k) := by
  rw [leadingZeros_eq_zeroBits h]
  exact le_zeroBits_iff hk

end Bytes

end ProofOfWork

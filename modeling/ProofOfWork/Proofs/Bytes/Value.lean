import Mathlib.Data.List.Basic
import Mathlib.Data.Nat.Digits.Defs
import ProofOfWork.Bytes.Basic

/-! Byte sequences as the digits of a number in base 256. -/
namespace ProofOfWork.Bytes

/-- The digits of the library come least significant first. -/
theorem value_eq_ofDigits (bs : Bytes) :
    bs.value = Nat.ofDigits 256 (bs.reverse.map UInt8.toNat) := by
  rw [Nat.ofDigits_eq_foldr, List.foldr_map, List.foldr_reverse, value]
  simp only [Nat.cast_id, Nat.add_comm]

private theorem digit_lt (bs : Bytes) : ∀ n ∈ bs.reverse.map UInt8.toNat, n < 256 := by
  intro n hn
  obtain ⟨b, -, rfl⟩ := List.mem_map.1 hn
  exact b.toNat_lt

theorem value_cons (b : UInt8) (bs : Bytes) :
    value (b :: bs) = b.toNat * 2 ^ (8 * bs.length) + bs.value := by
  have hpow : 2 ^ (8 * bs.length) = 256 ^ bs.length := by rw [Nat.pow_mul]
  rw [value_eq_ofDigits, value_eq_ofDigits, List.reverse_cons, List.map_append,
    Nat.ofDigits_append, List.length_map, List.length_reverse, hpow]
  simp [Nat.mul_comm, Nat.add_comm]

theorem value_lt (bs : Bytes) : bs.value < 2 ^ (8 * bs.length) := by
  have hlt := Nat.ofDigits_lt_base_pow_length (by decide : 1 < 256) (digit_lt bs)
  rw [List.length_map, List.length_reverse] at hlt
  rw [value_eq_ofDigits, Nat.pow_mul]
  exact hlt

/-- Sequences of one length are told apart by their values. -/
theorem eq_of_value_eq {as bs : Bytes} (hlength : as.length = bs.length)
    (hvalue : as.value = bs.value) : as = bs := by
  rw [value_eq_ofDigits, value_eq_ofDigits] at hvalue
  have hdigits : as.reverse.map UInt8.toNat = bs.reverse.map UInt8.toNat :=
    Nat.ofDigits_inj_of_len_eq (by decide) (by simpa using hlength) (digit_lt as)
      (digit_lt bs) hvalue
  have hreverse := List.map_injective_iff.2 (fun _ _ => UInt8.toNat_inj.1) hdigits
  exact List.reverse_injective hreverse

end ProofOfWork.Bytes

import ProofOfWork.Proofs.Bytes.ZeroBits
import ProofOfWork.Proofs.UpToFirst

/-!
The count of leading zero bits as a scan over the bytes in their order, and the count of two
sequences in a row.
-/
namespace ProofOfWork

namespace Bytes

/-- Adds the zero bits of the bytes to a count, up to the first byte with fewer than eight. -/
def scan (count : Nat) : Bytes → Nat
  | [] => count
  | b :: bs => if byteZeros b < 8 then count + byteZeros b else scan (count + byteZeros b) bs

theorem scan_eq_sum (count : Nat) (bs : Bytes) :
    scan count bs = count + ((upToFirst (byteZeros · < 8) bs).map byteZeros).sum := by
  induction bs generalizing count with
  | nil => rfl
  | cons b bs ih =>
    unfold scan upToFirst
    by_cases hfew : byteZeros b < 8
    · simp [hfew]
    · simp [hfew, ih, Nat.add_assoc]

theorem scan_eq_zeroBits (count : Nat) (bs : Bytes) : scan count bs = count + bs.zeroBits := by
  induction bs generalizing count with
  | nil => rfl
  | cons b bs ih =>
    unfold scan zeroBits
    by_cases hb : b = 0
    · have hall : byteZeros b = 8 := by rw [hb, byteZeros_zero]
      rw [if_neg hall.not_lt, if_pos hb, ih, hall, Nat.add_assoc]
    · rw [if_pos (byteZeros_lt hb), if_neg hb]

variable {as : Bytes}

theorem zeroBits_append_of_zero (h : ∀ a ∈ as, a = 0) (bs : Bytes) :
    zeroBits (as ++ bs) = 8 * as.length + bs.zeroBits := by
  induction as with
  | nil => simp
  | cons a as ih =>
    obtain ⟨ha, hrest⟩ := List.forall_mem_cons.1 h
    rw [List.cons_append, zeroBits, if_pos ha, ih hrest, List.length_cons]
    omega

/-- What comes after a byte that is not zero does not count. -/
theorem zeroBits_append_of_ne (h : ∃ a ∈ as, a ≠ 0) (bs : Bytes) :
    zeroBits (as ++ bs) = as.zeroBits := by
  induction as with
  | nil => simp at h
  | cons a as ih =>
    rw [List.cons_append, zeroBits, zeroBits]
    by_cases ha : a = 0
    · have hrest : ∃ a ∈ as, a ≠ 0 := by simpa [ha] using h
      rw [if_pos ha, if_pos ha, ih hrest]
    · rw [if_neg ha, if_neg ha]

theorem leadingZeros_append_of_zero (h : ∀ a ∈ as, a = 0) (bs : Bytes) :
    (as ++ bs).leadingZeros = min (8 * as.length + bs.leadingZeros) countLimit := by
  rw [leadingZeros_eq, leadingZeros_eq, zeroBits_append_of_zero h]
  omega

theorem leadingZeros_append_of_ne (h : ∃ a ∈ as, a ≠ 0) (bs : Bytes) :
    (as ++ bs).leadingZeros = as.leadingZeros := by
  rw [leadingZeros_eq, leadingZeros_eq, zeroBits_append_of_ne h]

/-- The count of leading zero bits is what a scan adds up, the zero bits of the bytes up to and with
the first one that has fewer than eight, and stays at the largest word. Of two sequences in a row
the second one counts only behind zero bytes, and then each of these counts eight. -/
theorem leadingZeros_adds_up :
    (∀ bs : Bytes, bs.leadingZeros = min (scan 0 bs) countLimit ∧
      (8 * bs.length < 2 ^ 32 → bs.leadingZeros = scan 0 bs)) ∧
    (∀ bs : Bytes, scan 0 bs = ((upToFirst (byteZeros · < 8) bs).map byteZeros).sum) ∧
    ∀ as bs : Bytes,
      ((∀ a ∈ as, a = 0) →
        (as ++ bs).leadingZeros = min (8 * as.length + bs.leadingZeros) countLimit ∧
        (8 * (as ++ bs).length < 2 ^ 32 →
          (as ++ bs).leadingZeros = 8 * as.length + bs.leadingZeros)) ∧
      ((∃ a ∈ as, a ≠ 0) → (as ++ bs).leadingZeros = as.leadingZeros) := by
  refine ⟨?_, ?_, ?_⟩
  · intro bs
    have hscan : scan 0 bs = bs.zeroBits := by rw [scan_eq_zeroBits, Nat.zero_add]
    rw [hscan]
    exact ⟨leadingZeros_eq bs, leadingZeros_eq_zeroBits⟩
  · intro bs
    rw [scan_eq_sum, Nat.zero_add]
  · intro as bs
    refine ⟨?_, fun hne => leadingZeros_append_of_ne hne bs⟩
    intro hzero
    have happend := leadingZeros_append_of_zero hzero bs
    refine ⟨happend, ?_⟩
    intro hfits
    have hle := leadingZeros_le bs
    rw [List.length_append] at hfits
    rw [happend, countLimit]
    omega

theorem leadingZeros_adds_up_three_bytes :
    8 * ([0x00, 0x03, 0x00] : Bytes).length < 2 ^ 32 ∧
      leadingZeros [0x00, 0x03, 0x00] = scan 0 [0x00, 0x03, 0x00] ∧ scan 0 [0x00, 0x03, 0x00] = 14 ∧
      leadingZeros ([0x00] ++ [0x03, 0x00]) = 8 + 6 ∧
      leadingZeros ([0x00, 0x03] ++ [0x00]) = 14 := by
  obtain ⟨hscan, -, happend⟩ := leadingZeros_adds_up
  have hzero := (happend [0x00] [0x03, 0x00]).1 (List.forall_mem_singleton.2 rfl)
  have hne := (happend [0x00, 0x03] [0x00]).2 ⟨0x03, by simp, by decide⟩
  exact ⟨by decide, (hscan _).2 (by decide), rfl, hzero.2 (by decide), hne⟩

end Bytes

end ProofOfWork

import ProofOfWork.Difficulty.Threshold
import ProofOfWork.Proofs.Difficulty.Canonical

/-!
Difficulties as numeric targets. A digest that is numerically no greater than the encoding is
accepted; only canonical encodings accept no other digest.
-/
namespace ProofOfWork.Difficulty

variable {d : Difficulty} {digest : Bytes}

theorem judge_eq_ok_true_iff (h : digest.length = d.length) :
    d.threshold.judge digest = .ok true ↔ d.required ≤ digest.leadingZeros := by
  have hjudge : d.threshold.judge digest = .ok (decide (d.required ≤ digest.leadingZeros)) :=
    d.threshold.judge_of_length h
  rw [hjudge, Except.ok.injEq, decide_eq_true_iff]

/-- A digest is accepted exactly if its value is below that of the last required bit. -/
theorem judge_iff_value_lt (hlen : 8 * d.length < 2 ^ 32) (h : digest.length = d.length) :
    d.threshold.judge digest = .ok true ↔
      digest.value < 2 ^ (8 * d.length - d.required) := by
  have hcount : 8 * digest.length < 2 ^ 32 := h ▸ hlen
  have hrequired : d.required ≤ 8 * digest.length := h ▸ d.required_le
  rw [judge_eq_ok_true_iff h, Bytes.le_leadingZeros_iff hcount hrequired, h]

theorem value_lt_of_required (hlen : 8 * d.length < 2 ^ 32) :
    d.bytes.value < 2 ^ (8 * d.length - d.required) :=
  (le_required_iff hlen d.required_le).1 (Nat.le_refl _)

/-- The canonical encoding of the same count is the greatest digest that is accepted. -/
theorem judge_iff_value_le_requiring (hlen : 8 * d.length < 2 ^ 32)
    (h : digest.length = d.length) :
    d.threshold.judge digest = .ok true ↔
      digest.value ≤ (d.requiring d.required).bytes.value := by
  have hvalue := value_requiring d.required_le
  rw [judge_iff_value_lt hlen h]
  omega

/-- An encoding that is not canonical lies below the canonical one of its count. -/
theorem value_lt_requiring (hlen : 8 * d.length < 2 ^ 32) (hcanonical : ¬ d.Canonical) :
    d.bytes.value < (d.requiring d.required).bytes.value := by
  have hvalue := value_requiring d.required_le
  have hlt := value_lt_of_required hlen
  have hlength : d.bytes.length = (d.requiring d.required).bytes.length :=
    (length_requiring d.required d).symm
  have hne : d.bytes.value ≠ (d.requiring d.required).bytes.value := by
    intro heq
    have hbytes := Bytes.eq_of_value_eq hlength heq
    exact hcanonical ((canonical_iff hlen).2 (eq_of_bytes_eq hbytes))
  omega

/-- Counting zero bits accepts every digest whose value is at most that of the encoding. It agrees
with the comparison of values exactly for canonical encodings; any other encoding accepts a digest
above it. -/
theorem judge_agrees_with_value (d : Difficulty) (hlen : 8 * d.length < 2 ^ 32) :
    (∀ digest : Bytes, digest.length = d.length → digest.value ≤ d.bytes.value →
      d.threshold.judge digest = .ok true) ∧
    (d.Canonical ↔ ∀ digest : Bytes, digest.length = d.length →
      (d.threshold.judge digest = .ok true ↔ digest.value ≤ d.bytes.value)) ∧
    (¬ d.Canonical → ∃ digest : Bytes, digest.length = d.length ∧
      d.bytes.value < digest.value ∧ d.threshold.judge digest = .ok true) := by
  have above (hcanonical : ¬ d.Canonical) : ∃ digest : Bytes, digest.length = d.length ∧
      d.bytes.value < digest.value ∧ d.threshold.judge digest = .ok true := by
    have hlength := length_requiring d.required d
    exact ⟨_, hlength, value_lt_requiring hlen hcanonical,
      (judge_iff_value_le_requiring hlen hlength).2 (Nat.le_refl _)⟩
  refine ⟨?_, ?_, above⟩
  · intro digest hdigest hle
    have hlt := value_lt_of_required hlen
    exact (judge_iff_value_lt hlen hdigest).2 (Nat.lt_of_le_of_lt hle hlt)
  · constructor
    · intro hcanonical digest hdigest
      have hsame := (canonical_iff hlen).1 hcanonical
      rw [judge_iff_value_le_requiring hlen hdigest, ← hsame]
    · intro hagree
      by_contra hcanonical
      obtain ⟨digest, hdigest, hgreater, hjudge⟩ := above hcanonical
      have hle := (hagree digest hdigest).1 hjudge
      omega

theorem judge_agrees_with_value_two_bytes :
    let d : Difficulty := ⟨[0x0F, 0x00], by decide⟩
    8 * d.length < 2 ^ 32 ∧ ¬ d.Canonical ∧ d.threshold.judge [0x0E, 0xFF] = .ok true ∧
      ∃ digest : Bytes, digest.length = 2 ∧ 0x0F00 < digest.value ∧
        d.threshold.judge digest = .ok true := by
  intro d
  have hlen : 8 * d.length < 2 ^ 32 := by decide
  have hcanonical : ¬ d.Canonical := by
    rw [canonical_iff hlen]
    decide
  obtain ⟨hbelow, -, habove⟩ := judge_agrees_with_value d hlen
  exact ⟨hlen, hcanonical, hbelow _ rfl (by decide), habove hcanonical⟩

end ProofOfWork.Difficulty

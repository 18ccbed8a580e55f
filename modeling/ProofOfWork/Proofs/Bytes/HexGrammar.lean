import ProofOfWork.Proofs.Bytes.HexDigits

/-!
Which bytes are read as hexadecimal digits, and what is reported of the others: an odd number of
bytes first, then the first byte that is no digit.
-/
namespace ProofOfWork.Hex

/-- The byte stands for a digit of the value, in either case. -/
def IsDigitByte (b : UInt8) (n : Nat) : Prop :=
  IsDigit (Char.ofNat b.toNat) n

/-- The byte at this place is no digit, and there are only digits before it. -/
structure IsFirstBad (digits : Bytes) (b : UInt8) (i : Nat) : Prop where
  getElem?_eq : digits[i]? = some b
  not_digit : ∀ n, ¬ IsDigitByte b n
  digits_before : ∀ j < i, ∀ c, digits[j]? = some c → ∃ n, IsDigitByte c n

variable {b c : UInt8} {n i j position : Nat} {digits bs : Bytes}

theorem toNat_char (b : UInt8) : (Char.ofNat b.toNat).toNat = b.toNat := by
  have hb := b.toNat_lt
  exact Text.toNat_ofNat_of_lt_or_gt (.inl (by omega))

theorem digitValue?_of_isDigit {c : Char} (h : IsDigit c n) :
    digitValue? (UInt8.ofNat c.toNat) = some n := by
  have hall : ∀ n : Fin 16, digitValue? (UInt8.ofNat (digit n).toNat) = some n.val ∧
      digitValue? (UInt8.ofNat (digit n).toUpper.toNat) = some n.val := by decide
  obtain ⟨hn, rfl | rfl⟩ := h
  · exact (hall ⟨n, hn⟩).1
  · exact (hall ⟨n, hn⟩).2

theorem digitValue?_eq_some_iff : digitValue? b = some n ↔ IsDigitByte b n := by
  have hbyte : UInt8.ofNat (Char.ofNat b.toNat).toNat = b := by
    rw [toNat_char]
    exact UInt8.ofNat_toNat
  constructor
  · intro h
    have hlow : (Char.ofNat b.toNat).toNat < 128 := by
      rw [toNat_char]
      exact (lt_of_digitValue? h).1
    exact isDigit_of_digitValue? hlow (hbyte.symm ▸ h)
  · intro h
    have hvalue := digitValue?_of_isDigit h
    rwa [hbyte] at hvalue

theorem map_digitValue?_eq_iff {ns : List Nat} :
    digits.map digitValue? = ns.map some ↔ List.Forall₂ IsDigitByte digits ns := by
  rw [← List.forall₂_eq_eq_eq, List.forall₂_map_left_iff, List.forall₂_map_right_iff]
  simp only [digitValue?_eq_some_iff]

theorem digitAt_eq_error {e : Error} (h : digitAt b position = .error e) :
    e = .invalidDigit b position ∧ ∀ n, ¬ IsDigitByte b n := by
  unfold digitAt at h
  split at h
  · cases h
  · rename_i hnone
    cases h
    refine ⟨rfl, fun n hn => ?_⟩
    rw [digitValue?_eq_some_iff.2 hn] at hnone
    cases hnone

namespace IsFirstBad

theorem head (h : ∀ n, ¬ IsDigitByte b n) : IsFirstBad (b :: digits) b 0 :=
  ⟨rfl, h, fun _ hj => absurd hj (Nat.not_lt_zero _)⟩

theorem cons (h : IsFirstBad digits b i) (hc : IsDigitByte c n) :
    IsFirstBad (c :: digits) b (i + 1) where
  getElem?_eq := h.getElem?_eq
  not_digit := h.not_digit
  digits_before := by
    intro j hj a ha
    cases j with
    | zero =>
      cases ha
      exact ⟨n, hc⟩
    | succ j => exact h.digits_before j (by omega) a ha

theorem not_lt (h : IsFirstBad digits b i) (h' : IsFirstBad digits c j) : ¬ i < j := by
  intro hlt
  obtain ⟨n, hn⟩ := h'.digits_before i hlt b h.getElem?_eq
  exact h.not_digit n hn

theorem unique (h : IsFirstBad digits b i) (h' : IsFirstBad digits c j) : b = c ∧ i = j := by
  obtain rfl : i = j := by
    have hle := h.not_lt h'
    have hge := h'.not_lt h
    omega
  have hsame := h.getElem?_eq.symm.trans h'.getElem?_eq
  exact ⟨Option.some.inj hsame, rfl⟩

end IsFirstBad

/-- Reading stops at the first byte that is no digit. -/
theorem isFirstBad_of_decodePairs {e : Error} (h : decodePairs position digits = .error e) :
    ∃ b i, e = .invalidDigit b (position + i) ∧ IsFirstBad digits b i := by
  fun_induction decodePairs position digits with
  | case1 position a b rest ih =>
    cases hhigh : digitAt a position with
    | error e' =>
      rw [hhigh] at h
      cases h
      obtain ⟨rfl, hbad⟩ := digitAt_eq_error hhigh
      exact ⟨a, 0, rfl, .head hbad⟩
    | ok high =>
      have ha := digitValue?_eq_some_iff.1 (digitAt_eq_ok hhigh)
      cases hlow : digitAt b (position + 1) with
      | error e' =>
        rw [hhigh, hlow] at h
        cases h
        obtain ⟨rfl, hbad⟩ := digitAt_eq_error hlow
        exact ⟨b, 1, rfl, (IsFirstBad.head hbad).cons ha⟩
      | ok low =>
        have hb := digitValue?_eq_some_iff.1 (digitAt_eq_ok hlow)
        cases htail : decodePairs (position + 2) rest with
        | error e' =>
          rw [hhigh, hlow, htail] at h
          cases h
          obtain ⟨bad, i, rfl, hfirst⟩ := ih htail
          refine ⟨bad, i + 2, ?_, (hfirst.cons hb).cons ha⟩
          rw [Nat.add_assoc, Nat.add_comm 2 i]
        | ok tail =>
          rw [hhigh, hlow, htail] at h
          cases h
  | case2 => cases h

theorem decode_eq_ok_iff :
    decode digits = .ok bs ↔ List.Forall₂ IsDigitByte digits (halves bs) := by
  constructor
  · intro h
    unfold decode at h
    split at h
    · cases h
    · rename_i heven
      exact map_digitValue?_eq_iff.1 (map_digitValue?_of_decodePairs (by omega) h)
  · intro h
    exact decode_of_values (map_digitValue?_eq_iff.2 h)

theorem decode_eq_oddLength_iff : decode digits = .error .oddLength ↔ digits.length % 2 = 1 := by
  constructor
  · intro h
    unfold decode at h
    split at h
    · assumption
    · obtain ⟨b, i, he, -⟩ := isFirstBad_of_decodePairs h
      cases he
  · exact fun h => if_pos h

theorem isFirstBad_of_decode (h : decode digits = .error (.invalidDigit b i)) :
    digits.length % 2 = 0 ∧ IsFirstBad digits b i := by
  unfold decode at h
  split at h
  · cases h
  · rename_i heven
    obtain ⟨c, j, he, hfirst⟩ := isFirstBad_of_decodePairs h
    rw [Nat.zero_add] at he
    cases he
    exact ⟨by omega, hfirst⟩

theorem exists_decode_eq_ok_iff :
    (∃ bs, decode digits = .ok bs) ↔
      digits.length % 2 = 0 ∧ ∀ b ∈ digits, ∃ n, IsDigitByte b n := by
  constructor
  · rintro ⟨bs, h⟩
    have hdigits := decode_eq_ok_iff.1 h
    have hlength := (decodePairs_of_values 0 (map_digitValue?_eq_iff.2 hdigits)).2
    refine ⟨by omega, fun b hb => ?_⟩
    obtain ⟨hcount, hget⟩ := List.forall₂_iff_get.1 hdigits
    obtain ⟨i, hi, rfl⟩ := List.getElem_of_mem hb
    exact ⟨_, hget i hi (hcount ▸ hi)⟩
  · rintro ⟨heven, hall⟩
    cases h : decode digits with
    | ok bs => exact ⟨bs, rfl⟩
    | error e =>
      cases e with
      | oddLength =>
        have hodd := decode_eq_oddLength_iff.1 h
        omega
      | invalidDigit b i =>
        obtain ⟨-, hfirst⟩ := isFirstBad_of_decode h
        obtain ⟨n, hn⟩ := hall b (List.mem_of_getElem? hfirst.getElem?_eq)
        exact absurd hn (hfirst.not_digit n)

theorem decode_eq_invalidDigit_iff :
    decode digits = .error (.invalidDigit b i) ↔
      digits.length % 2 = 0 ∧ IsFirstBad digits b i := by
  refine ⟨isFirstBad_of_decode, ?_⟩
  rintro ⟨heven, hfirst⟩
  cases h : decode digits with
  | ok bs =>
    obtain ⟨-, hall⟩ := exists_decode_eq_ok_iff.1 ⟨bs, h⟩
    obtain ⟨n, hn⟩ := hall b (List.mem_of_getElem? hfirst.getElem?_eq)
    exact absurd hn (hfirst.not_digit n)
  | error e =>
    cases e with
    | oddLength =>
      have hodd := decode_eq_oddLength_iff.1 h
      omega
    | invalidDigit c j =>
      obtain ⟨rfl, rfl⟩ := hfirst.unique (isFirstBad_of_decode h).2
      rfl

end ProofOfWork.Hex

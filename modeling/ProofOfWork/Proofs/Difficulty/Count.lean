import Mathlib.Data.Set.Function
import Mathlib.Order.Bounds.Basic
import ProofOfWork.Proofs.Difficulty.Canonical

/-!
Counts of leading zero bits and the encodings built from them. A count that fits gives the greatest
sequence that starts with so many zero bits, and the count is read off that sequence again.
-/
namespace ProofOfWork.Difficulty

variable {bits length : Nat} {d : Difficulty}

theorem exists_length_eq (hpos : 0 < length) : ∃ d : Difficulty, d.length = length :=
  ⟨easiest length hpos.ne', List.length_replicate⟩

theorem ofZeroBits_eq_empty_iff : ofZeroBits bits length = .error .empty ↔ length = 0 := by
  unfold ofZeroBits
  split_ifs <;> simp [*]

/-- Where all bits can be counted, a count is refused only because there are not so many. -/
theorem ofZeroBits_eq_tooManyBits_iff (hlen : 8 * length < 2 ^ 32) :
    ofZeroBits bits length = .error (.tooManyBits bits length) ↔
      0 < length ∧ 8 * length < bits := by
  unfold ofZeroBits
  split_ifs with hempty hlong hmany
  · simp [hempty]
  · unfold bitLimit at hlong
    omega
  · simp [Nat.pos_of_ne_zero hempty, hmany]
  · simp [hmany]

section Encoding

variable (hlen : 8 * d.length < 2 ^ 32)

include hlen

/-- No sequence with so many leading zero bits has a greater value. -/
theorem isGreatest_value_requiring (hfits : bits ≤ 8 * d.length) :
    IsGreatest (Bytes.value '' {bs | bs.length = d.length ∧ bits ≤ bs.leadingZeros})
      (d.requiring bits).bytes.value := by
  constructor
  · have hzeros : bits ≤ (d.requiring bits).bytes.leadingZeros :=
      (required_requiring hlen hfits).ge
    exact ⟨(d.requiring bits).bytes, ⟨length_requiring bits d, hzeros⟩, rfl⟩
  · rintro _ ⟨bs, ⟨hlength, hzeros⟩, rfl⟩
    have hlt : bs.value < 2 ^ (8 * bs.length - bits) := by
      rw [← hlength] at hlen hfits
      exact (Bytes.le_leadingZeros_iff hlen hfits).1 hzeros
    have hvalue := value_requiring hfits
    rw [hlength] at hlt
    omega

theorem canonical_requiring (hfits : bits ≤ 8 * d.length) : (d.requiring bits).Canonical := by
  refine ⟨bits, ?_⟩
  rw [length_requiring]
  exact ofZeroBits_eq hlen hfits

/-- Canonical encodings of one length are told apart by their counts, and every count that fits has
one. -/
theorem required_bijOn : Set.BijOn required {e | e.length = d.length ∧ e.Canonical}
    (Set.Iic (8 * d.length)) := by
  refine ⟨?_, ?_, ?_⟩
  · rintro e ⟨hlength, -⟩
    rw [Set.mem_Iic, ← hlength]
    exact e.required_le
  · rintro e ⟨hlength, he⟩ f ⟨hlength', hf⟩ hrequired
    rw [canonical_iff (hlength.symm ▸ hlen)] at he
    rw [canonical_iff (hlength'.symm ▸ hlen)] at hf
    rw [he, hf, hrequired]
    exact requiring_eq_of_length_eq (hlength.trans hlength'.symm) _
  · intro bits hfits
    exact ⟨d.requiring bits, ⟨length_requiring bits d, canonical_requiring hlen hfits⟩,
      required_requiring hlen hfits⟩

end Encoding

/-- An encoding is built from a count unless the length is zero or has too few bits. It asks for the
count, and it is the greatest sequence of its length that starts with so many zero bits. A difficulty
of that length that is made to ask for the count has the same encoding, whatever it was before. So
the counts up to the number of bits and the canonical encodings of a length answer each other. -/
theorem encodings_of_counts (length : Nat) (hlen : 8 * length < 2 ^ 32) :
    (∀ bits, ofZeroBits bits length = .error .empty ↔ length = 0) ∧
    (∀ bits, ofZeroBits bits length = .error (.tooManyBits bits length) ↔
      0 < length ∧ 8 * length < bits) ∧
    (0 < length → ∀ bits ≤ 8 * length, ∃ d, ofZeroBits bits length = .ok d ∧
      d.length = length ∧ d.required = bits ∧ d.bytes.value = 2 ^ (8 * length - bits) - 1 ∧
      IsGreatest (Bytes.value '' {bs | bs.length = length ∧ bits ≤ bs.leadingZeros})
        d.bytes.value ∧
      ∀ e : Difficulty, e.length = length → e.requiring bits = d) ∧
    (0 < length → Set.BijOn required {d | d.length = length ∧ d.Canonical}
      (Set.Iic (8 * length))) := by
  refine ⟨fun bits => ofZeroBits_eq_empty_iff, fun bits => ofZeroBits_eq_tooManyBits_iff hlen,
    ?_, ?_⟩
  · intro hpos bits hfits
    obtain ⟨d, rfl⟩ := exists_length_eq hpos
    have hvalue := value_requiring hfits
    refine ⟨d.requiring bits, ofZeroBits_eq hlen hfits, length_requiring bits d,
      required_requiring hlen hfits, ?_, isGreatest_value_requiring hlen hfits, ?_⟩
    · omega
    · intro e he
      exact requiring_eq_of_length_eq he bits
  · intro hpos
    obtain ⟨d, rfl⟩ := exists_length_eq hpos
    exact required_bijOn hlen

theorem encodings_of_counts_two_bytes :
    8 * 2 < 2 ^ 32 ∧ ofZeroBits 17 2 = .error (.tooManyBits 17 2) ∧
      (∃ d, ofZeroBits 11 2 = .ok d ∧ d.required = 11 ∧ d.bytes.value = 31 ∧
        (⟨[0xAB, 0xCD], by decide⟩ : Difficulty).requiring 11 = d) ∧
      Set.BijOn required {d | d.length = 2 ∧ d.Canonical} (Set.Iic 16) := by
  have hlen : 8 * 2 < 2 ^ 32 := by decide
  obtain ⟨-, hmany, hfits, hcounts⟩ := encodings_of_counts 2 hlen
  obtain ⟨d, hd, -, hrequired, hvalue, -, hsame⟩ := hfits (by decide) 11 (by decide)
  refine ⟨hlen, ?_, ⟨d, hd, hrequired, hvalue, ?_⟩, hcounts (by decide)⟩
  · exact (hmany 17).2 (by decide)
  · exact hsame _ rfl

end ProofOfWork.Difficulty

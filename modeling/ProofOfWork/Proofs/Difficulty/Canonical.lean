import ProofOfWork.Difficulty.Basic
import ProofOfWork.Proofs.Bytes.ZeroBits

/-!
Canonical encodings. The one of a count has the greatest value that starts with so many zero bits,
and it asks for that count.
-/
namespace ProofOfWork.Difficulty

theorem canonicalByte_succ (bits i : Nat) :
    canonicalByte bits (i + 1) = canonicalByte (bits - 8) i := by
  rcases Nat.lt_or_ge bits 8 with hfew | hmany
  · have hzero : bits - 8 = 0 := by omega
    rw [canonicalByte, Nat.div_eq_of_lt hfew, Nat.compare_eq_gt.2 (Nat.succ_pos i), hzero]
    cases i <;> rfl
  · have hdiv : bits / 8 = (bits - 8) / 8 + 1 := by omega
    have hmod : bits % 8 = (bits - 8) % 8 := by omega
    have hcompare : compare (i + 1) ((bits - 8) / 8 + 1) = compare i ((bits - 8) / 8) := by
      simp only [Nat.compare_eq_ite_lt, Nat.add_lt_add_iff_right]
    rw [canonicalByte, canonicalByte, hdiv, hmod, hcompare]

theorem toNat_canonicalByte_zero (bits : Nat) :
    (canonicalByte bits 0).toNat + 1 = 2 ^ (8 - bits) := by
  rcases Nat.lt_or_ge bits 8 with hfew | hmany
  · have hall : ∀ n < 8, (canonicalByte n 0).toNat + 1 = 2 ^ (8 - n) := by decide
    exact hall bits hfew
  · have hpos : 0 < bits / 8 := by omega
    have hzero : 8 - bits = 0 := by omega
    rw [canonicalByte, Nat.compare_eq_lt.2 hpos, hzero]
    rfl

/-- The bytes of the canonical encoding of a count. -/
def canonicalBytes (bits length : Nat) : Bytes :=
  (List.range length).map (canonicalByte bits)

@[simp] theorem length_canonicalBytes (bits length : Nat) :
    (canonicalBytes bits length).length = length := by
  simp [canonicalBytes]

/-- Eight bits fewer are left to the bytes after the first one. -/
theorem canonicalBytes_succ (bits length : Nat) :
    canonicalBytes bits (length + 1) =
      canonicalByte bits 0 :: canonicalBytes (bits - 8) length := by
  rw [canonicalBytes, List.range_succ_eq_map, List.map_cons, List.map_map, canonicalBytes]
  exact congrArg _ (List.map_congr_left fun i _ => canonicalByte_succ bits i)

theorem value_canonicalBytes {bits length : Nat} (h : bits ≤ 8 * length) :
    (canonicalBytes bits length).value + 1 = 2 ^ (8 * length - bits) := by
  induction length generalizing bits with
  | zero =>
    obtain rfl : bits = 0 := Nat.le_zero.1 h
    rfl
  | succ length ih =>
    have hfirst := toNat_canonicalByte_zero bits
    have hrest := @ih (bits - 8) (by omega)
    rw [canonicalBytes_succ, Bytes.value_cons, length_canonicalBytes, Nat.add_assoc, hrest]
    rcases Nat.lt_or_ge 8 bits with hmany | hfew
    · have hzero : 8 - bits = 0 := by omega
      have hbyte : (canonicalByte bits 0).toNat = 0 := by
        rw [hzero] at hfirst
        omega
      rw [hbyte, Nat.zero_mul, Nat.zero_add]
      congr 1
      omega
    · have hzero : bits - 8 = 0 := by omega
      rw [hzero, Nat.sub_zero, ← Nat.succ_mul, Nat.succ_eq_add_one, hfirst, ← Nat.pow_add]
      congr 1
      omega

variable {d e : Difficulty} {bits : Nat}

theorem eq_of_bytes_eq (h : d.bytes = e.bytes) : d = e := by
  cases d
  cases e
  cases h
  rfl

theorem length_pos (d : Difficulty) : 0 < d.length :=
  List.length_pos_iff.2 d.bytes_ne_nil

theorem required_le (d : Difficulty) : d.required ≤ 8 * d.length :=
  Bytes.leadingZeros_le d.bytes

theorem bytes_requiring (bits : Nat) (d : Difficulty) :
    (d.requiring bits).bytes = canonicalBytes bits d.length := by
  refine List.ext_getElem ?_ fun i _ _ => ?_
  · simp [requiring, length]
  · simp [requiring, canonicalBytes]

@[simp] theorem length_requiring (bits : Nat) (d : Difficulty) :
    (d.requiring bits).length = d.length := by
  rw [length, bytes_requiring, length_canonicalBytes]

/-- Nothing but the length is kept. -/
theorem requiring_eq_of_length_eq (h : d.length = e.length) (bits : Nat) :
    d.requiring bits = e.requiring bits := by
  apply eq_of_bytes_eq
  rw [bytes_requiring, bytes_requiring, h]

theorem value_requiring (h : bits ≤ 8 * d.length) :
    (d.requiring bits).bytes.value + 1 = 2 ^ (8 * d.length - bits) := by
  rw [bytes_requiring]
  exact value_canonicalBytes h

theorem le_required_iff (hlen : 8 * d.length < 2 ^ 32) (h : bits ≤ 8 * d.length) :
    bits ≤ d.required ↔ d.bytes.value < 2 ^ (8 * d.length - bits) :=
  Bytes.le_leadingZeros_iff hlen h

/-- A canonical encoding asks for the count that it was made for. -/
theorem required_requiring (hlen : 8 * d.length < 2 ^ 32) (h : bits ≤ 8 * d.length) :
    (d.requiring bits).required = bits := by
  have hvalue := value_requiring h
  have hle : ∀ {k}, k ≤ 8 * d.length →
      (k ≤ (d.requiring bits).required ↔ (d.requiring bits).bytes.value < 2 ^ (8 * d.length - k)) := by
    intro k hk
    have hiff := @le_required_iff (d.requiring bits) k (by simpa using hlen) (by simpa using hk)
    rwa [length_requiring] at hiff
  apply Nat.le_antisymm
  · by_contra hmore
    have hbound := (d.requiring bits).required_le
    rw [length_requiring] at hbound
    have hlow := (hle (by omega : bits + 1 ≤ 8 * d.length)).1 (by omega)
    have hpow : 2 ^ (8 * d.length - (bits + 1)) < 2 ^ (8 * d.length - bits) :=
      Nat.pow_lt_pow_right (by omega) (by omega)
    omega
  · exact (hle h).2 (by omega)

theorem ofZeroBits_eq (hlen : 8 * d.length < 2 ^ 32) (h : bits ≤ 8 * d.length) :
    ofZeroBits bits d.length = .ok (d.requiring bits) := by
  have hpos := d.length_pos
  have hlimit : ¬ bitLimit < 8 * d.length := by
    rw [bitLimit]
    omega
  rw [ofZeroBits, dif_neg (by omega), if_neg hlimit, if_neg (Nat.not_lt.2 h)]
  congr 1
  apply requiring_eq_of_length_eq
  simp [easiest, length]

theorem ofZeroBits_required (hlen : 8 * d.length < 2 ^ 32) (hlength : e.length = d.length)
    (h : e = d.requiring e.required) : ofZeroBits e.required d.length = .ok e := by
  have hle := e.required_le
  rw [hlength] at hle
  rw [ofZeroBits_eq hlen hle, ← h]

theorem eq_requiring_of_ofZeroBits (h : ofZeroBits bits d.length = .ok d) :
    bits ≤ 8 * d.length ∧ d = d.requiring bits := by
  unfold ofZeroBits at h
  split at h
  · cases h
  · rename_i hlength
    split at h
    · cases h
    · split at h
      · cases h
      · rename_i hfits
        refine ⟨Nat.not_lt.1 hfits, ?_⟩
        have hd := (Except.ok.inj h).symm
        have hsame : (easiest d.length hlength).length = d.length := by simp [easiest, length]
        rw [requiring_eq_of_length_eq hsame] at hd
        exact hd

/-- An encoding is canonical if it is the one of its own count. -/
theorem canonical_iff (hlen : 8 * d.length < 2 ^ 32) :
    d.Canonical ↔ d = d.requiring d.required := by
  constructor
  · rintro ⟨bits, h⟩
    obtain ⟨hfits, hd⟩ := eq_requiring_of_ofZeroBits h
    have hbits : d.required = bits := by
      rw [hd]
      exact required_requiring hlen hfits
    rw [hbits]
    exact hd
  · intro h
    exact ⟨d.required, ofZeroBits_required hlen rfl h⟩

end ProofOfWork.Difficulty

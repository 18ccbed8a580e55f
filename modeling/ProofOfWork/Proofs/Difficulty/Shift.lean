import ProofOfWork.Proofs.Difficulty.Step

/-!
Retargets of canonical encodings. Only the first byte that is not zero is shifted by one bit, which
halves or doubles the number that the encoding spells; a move back restores the encoding.
-/
namespace ProofOfWork

namespace Bytes

/-- The first byte that is not zero is shifted to the right. -/
inductive ShiftsRight : Bytes → Bytes → Prop
  | intro (zeros : Bytes) (v : UInt8) (rest : Bytes) : (∀ b ∈ zeros, b = 0) → v ≠ 0 →
      ShiftsRight (zeros ++ v :: rest) (zeros ++ v >>> 1 :: rest)

/-- The first byte that is not zero is shifted to the left and a set bit moves in. If the byte is
full, or if there is none, the bit is set in the zero byte before. -/
inductive ShiftsLeft : Bytes → Bytes → Prop
  | within (zeros : Bytes) (v : UInt8) (rest : Bytes) : (∀ b ∈ zeros, b = 0) → v ≠ 0 → v ≠ 0xFF →
      ShiftsLeft (zeros ++ v :: rest) (zeros ++ (v <<< 1 ||| 1) :: rest)
  | carry (zeros rest : Bytes) : (∀ b ∈ zeros, b = 0) →
      ShiftsLeft (zeros ++ 0 :: 0xFF :: rest) (zeros ++ 1 :: 0xFF :: rest)
  | last (zeros : Bytes) : (∀ b ∈ zeros, b = 0) → ShiftsLeft (zeros ++ [0]) (zeros ++ [1])

variable {bs cs : Bytes}

private theorem zero_cons {zeros : Bytes} (h : ∀ b ∈ zeros, b = 0) : ∀ b ∈ 0 :: zeros, b = 0 :=
  List.forall_mem_cons.2 ⟨rfl, h⟩

theorem ShiftsRight.cons_zero (h : bs.ShiftsRight cs) : ShiftsRight (0 :: bs) (0 :: cs) := by
  obtain ⟨zeros, v, rest, hzeros, hv⟩ := h
  exact .intro (0 :: zeros) v rest (zero_cons hzeros) hv

theorem ShiftsLeft.cons_zero (h : bs.ShiftsLeft cs) : ShiftsLeft (0 :: bs) (0 :: cs) := by
  cases h with
  | within zeros v rest hzeros hv hfull =>
    exact .within (0 :: zeros) v rest (zero_cons hzeros) hv hfull
  | carry zeros rest hzeros => exact .carry (0 :: zeros) rest (zero_cons hzeros)
  | last zeros hzeros => exact .last (0 :: zeros) (zero_cons hzeros)

end Bytes

namespace Difficulty

variable {d e f : Difficulty} {a b : Adjustment} {bits length : Nat}

theorem canonicalByte_zero_of_le (h : 8 ≤ bits) : canonicalByte bits 0 = 0 := by
  have hpos : 0 < bits / 8 := by omega
  rw [canonicalByte, Nat.compare_eq_lt.2 hpos]

/-- One more zero bit at the front of the canonical encoding shifts its first set byte. -/
theorem canonicalBytes_shiftsRight (h : bits < 8 * length) :
    (canonicalBytes bits length).ShiftsRight (canonicalBytes (bits + 1) length) := by
  induction length generalizing bits with
  | zero => omega
  | succ length ih =>
    rw [canonicalBytes_succ, canonicalBytes_succ]
    rcases Nat.lt_or_ge bits 8 with hfew | hmany
    · have hbyte : ∀ n < 8, canonicalByte (n + 1) 0 = canonicalByte n 0 >>> 1 ∧
          canonicalByte n 0 ≠ 0 := by decide
      obtain ⟨hshift, hne⟩ := hbyte bits hfew
      have hrest : bits + 1 - 8 = bits - 8 := by omega
      rw [hshift, hrest]
      exact .intro [] _ _ (List.forall_mem_nil _) hne
    · have hrest : bits + 1 - 8 = bits - 8 + 1 := by omega
      rw [canonicalByte_zero_of_le hmany, canonicalByte_zero_of_le (by omega), hrest]
      exact (ih (by omega)).cons_zero

theorem canonicalBytes_shiftsLeft (h : bits < 8 * length) :
    (canonicalBytes (bits + 1) length).ShiftsLeft (canonicalBytes bits length) := by
  induction length generalizing bits with
  | zero => omega
  | succ length ih =>
    rw [canonicalBytes_succ, canonicalBytes_succ]
    rcases Nat.lt_trichotomy bits 7 with hfew | rfl | hmany
    · have hbyte : ∀ n < 7, canonicalByte n 0 = canonicalByte (n + 1) 0 <<< 1 ||| 1 ∧
          canonicalByte (n + 1) 0 ≠ 0 ∧ canonicalByte (n + 1) 0 ≠ 0xFF := by decide
      obtain ⟨hshift, hne, hfull⟩ := hbyte bits hfew
      have hrest : bits + 1 - 8 = bits - 8 := by omega
      rw [hshift, hrest]
      exact .within [] _ _ (List.forall_mem_nil _) hne hfull
    · -- the bit moves over a byte boundary, or out of the all-zero encoding
      cases length with
      | zero => exact .last [] (List.forall_mem_nil _)
      | succ length =>
        rw [canonicalBytes_succ]
        exact .carry [] _ (List.forall_mem_nil _)
    · have hrest : bits + 1 - 8 = bits - 8 + 1 := by omega
      rw [canonicalByte_zero_of_le (by omega), canonicalByte_zero_of_le (by omega), hrest]
      exact (ih (by omega)).cons_zero

theorem value_canonicalBytes_eq_succ (h : bits < 8 * length) :
    (canonicalBytes bits length).value = 2 * (canonicalBytes (bits + 1) length).value + 1 := by
  have hless := value_canonicalBytes (Nat.le_of_lt h)
  have hmore : (canonicalBytes (bits + 1) length).value + 1 = 2 ^ (8 * length - (bits + 1)) :=
    value_canonicalBytes h
  have hpow : 2 ^ (8 * length - bits) = 2 * 2 ^ (8 * length - (bits + 1)) := by
    rw [← Nat.pow_succ']
    congr 1
    omega
  omega

theorem Canonical.bytes_eq (hlen : 8 * d.length < 2 ^ 32) (h : d.Canonical) :
    d.bytes = canonicalBytes d.required d.length := by
  rw [← bytes_requiring, ← (canonical_iff hlen).1 h]

namespace Moves

theorem shiftsRight (h : d.Moves .harder e) (hlen : 8 * d.length < 2 ^ 32)
    (hcanonical : d.Canonical) :
    d.bytes.ShiftsRight e.bytes ∧ e.bytes.value = d.bytes.value / 2 := by
  have hd := hcanonical.bytes_eq hlen
  cases h with
  | harder hroom =>
    have hlast : d.required < 8 * d.length := by omega
    have hvalue := value_canonicalBytes_eq_succ hlast
    rw [bytes_requiring, hd]
    exact ⟨canonicalBytes_shiftsRight hlast, by omega⟩

theorem shiftsLeft (h : d.Moves .easier e) (hlen : 8 * d.length < 2 ^ 32)
    (hcanonical : d.Canonical) :
    d.bytes.ShiftsLeft e.bytes ∧ e.bytes.value = 2 * d.bytes.value + 1 := by
  have hd := hcanonical.bytes_eq hlen
  cases h with
  | easier hroom =>
    obtain ⟨bits, hbits⟩ : ∃ bits, d.required = bits + 1 := ⟨d.required - 1, by omega⟩
    have hlast : bits < 8 * d.length := by
      have hle := d.required_le
      omega
    rw [bytes_requiring, hd, hbits, Nat.add_sub_cancel]
    exact ⟨canonicalBytes_shiftsLeft hlast, value_canonicalBytes_eq_succ hlast⟩

/-- Two moves whose shifts cancel lead back to a canonical encoding. -/
theorem eq_of_shift_add_eq_zero (hfirst : d.Moves a e) (hsecond : e.Moves b f)
    (hlen : 8 * d.length < 2 ^ 32) (hcanonical : d.Canonical) (hb : b ≠ .unchanged)
    (hshift : a.shift + b.shift = 0) : f = d := by
  have hlength := hfirst.length_eq
  have hlater : 8 * e.length < 2 ^ 32 := hlength.symm ▸ hlen
  have hcount : f.required = d.required := by
    have he := hfirst.required_eq hlen
    have hf := hsecond.required_eq hlater
    omega
  rw [hsecond.eq_requiring hlater hb, hcount, requiring_eq_of_length_eq hlength]
  exact ((canonical_iff hlen).1 hcanonical).symm

end Moves

/-- A canonical encoding that becomes harder has its first set byte shifted to the right, and its
value is halved. One that becomes easier has it shifted to the left, over a byte boundary where it
is full, and the value is doubled and one more. A step in one direction and a step in the other one
restore the encoding. -/
theorem retarget_shifts_canonical (d : Difficulty) (hlen : 8 * d.length < 2 ^ 32)
    (hcanonical : d.Canonical) (t u : Timing) :
    ((d.retarget t).1 = .harder →
      d.bytes.ShiftsRight (d.retarget t).2.bytes ∧
      (d.retarget t).2.bytes.value = d.bytes.value / 2) ∧
    ((d.retarget t).1 = .easier →
      d.bytes.ShiftsLeft (d.retarget t).2.bytes ∧
      (d.retarget t).2.bytes.value = 2 * d.bytes.value + 1) ∧
    ((d.retarget t).1 = .harder → ((d.retarget t).2.retarget u).1 = .easier →
      ((d.retarget t).2.retarget u).2 = d) ∧
    ((d.retarget t).1 = .easier → ((d.retarget t).2.retarget u).1 = .harder →
      ((d.retarget t).2.retarget u).2 = d) := by
  have hfirst := moves_retarget hlen t
  have hlater : 8 * (d.retarget t).2.length < 2 ^ 32 := hfirst.length_eq.symm ▸ hlen
  have hsecond := moves_retarget hlater u
  refine ⟨?_, ?_, ?_, ?_⟩
  · intro hharder
    rw [hharder] at hfirst
    exact hfirst.shiftsRight hlen hcanonical
  · intro heasier
    rw [heasier] at hfirst
    exact hfirst.shiftsLeft hlen hcanonical
  · intro hharder heasier
    rw [hharder] at hfirst
    rw [heasier] at hsecond
    exact hfirst.eq_of_shift_add_eq_zero hsecond hlen hcanonical (by decide) rfl
  · intro heasier hharder
    rw [heasier] at hfirst
    rw [hharder] at hsecond
    exact hfirst.eq_of_shift_add_eq_zero hsecond hlen hcanonical (by decide) rfl

theorem retarget_shifts_canonical_full_byte :
    let d : Difficulty := ⟨[0x00, 0xFF], by decide⟩
    let slow : Timing := ⟨0, 601, 600⟩
    let fast : Timing := ⟨0, 1, 600⟩
    8 * d.length < 2 ^ 32 ∧ d.Canonical ∧
      (d.retarget slow).1 = .easier ∧ (d.retarget slow).2.bytes = [0x01, 0xFF] ∧
      d.bytes.ShiftsLeft (d.retarget slow).2.bytes ∧
      ((d.retarget slow).2.retarget fast).1 = .harder ∧
      ((d.retarget slow).2.retarget fast).2 = d ∧
      (d.retarget fast).1 = .harder ∧ (d.retarget fast).2.bytes = [0x00, 0x7F] ∧
      d.bytes.ShiftsRight (d.retarget fast).2.bytes ∧
      ((d.retarget fast).2.retarget slow).1 = .easier ∧
      ((d.retarget fast).2.retarget slow).2 = d := by
  intro d slow fast
  have hlen : 8 * d.length < 2 ^ 32 := by decide
  have hcanonical : d.Canonical := by
    rw [canonical_iff hlen]
    decide
  have hslow : (d.retarget slow).1 = .easier := by decide
  have hfast : (d.retarget fast).1 = .harder := by decide
  have hback : ((d.retarget slow).2.retarget fast).1 = .harder := by decide
  have hforth : ((d.retarget fast).2.retarget slow).1 = .easier := by decide
  obtain ⟨-, hleft, -, hrestored⟩ := retarget_shifts_canonical d hlen hcanonical slow fast
  obtain ⟨hright, -, hreturned, -⟩ := retarget_shifts_canonical d hlen hcanonical fast slow
  exact ⟨hlen, hcanonical, hslow, by decide, (hleft hslow).1, hback, hrestored hslow hback, hfast,
    by decide, (hright hfast).1, hforth, hreturned hfast hforth⟩

end Difficulty

end ProofOfWork

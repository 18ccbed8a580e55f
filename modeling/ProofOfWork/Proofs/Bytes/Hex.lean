import ProofOfWork.Difficulty.Basic
import ProofOfWork.Proofs.Text.Blank

/-! Written hexadecimal text is read back as the bytes that it was written from. -/
namespace ProofOfWork
namespace Hex

theorem isBlank_digit (n : Fin 16) : Text.isBlank (digit n) = false := by
  decide +revert

theorem map_digitValue?_utf8_digit (n : Fin 16) :
    (Text.utf8 [digit n]).map digitValue? = [some n.val] := by
  decide +revert

theorem high_lt (b : UInt8) : b.toNat / 16 < 16 := by
  have hb := b.toNat_lt
  omega

theorem low_lt (b : UInt8) : b.toNat % 16 < 16 :=
  Nat.mod_lt _ (by decide)

/-- The values of the digits of some bytes. -/
def halves (bs : Bytes) : List Nat :=
  bs.flatMap fun b => [b.toNat / 16, b.toNat % 16]

theorem map_digit_halves (bs : Bytes) : (halves bs).map digit = encodeChars bs := by
  rw [halves, List.map_flatMap]
  rfl

theorem lt_of_mem_halves {bs : Bytes} {n : Nat} (h : n ∈ halves bs) : n < 16 := by
  obtain ⟨b, -, hn⟩ := List.mem_flatMap.1 h
  rcases List.mem_cons.1 hn with rfl | hn
  · exact high_lt b
  · exact List.mem_singleton.1 hn ▸ low_lt b

/-- Nothing but digits is written. -/
theorem exists_digit_of_mem_encodeChars {bs : Bytes} {c : Char} (h : c ∈ encodeChars bs) :
    ∃ n : Fin 16, c = digit n := by
  rw [← map_digit_halves] at h
  obtain ⟨n, hn, rfl⟩ := List.mem_map.1 h
  exact ⟨⟨n, lt_of_mem_halves hn⟩, rfl⟩

theorem not_mem_encodeChars {c : Char} (h : ∀ n : Fin 16, c ≠ digit n) (bs : Bytes) :
    c ∉ encodeChars bs := by
  intro hc
  obtain ⟨n, hn⟩ := exists_digit_of_mem_encodeChars hc
  exact h n hn

/-- What is written for some bytes has the values of their digits. -/
theorem map_digitValue?_utf8_encodeChars (bs : Bytes) :
    (Text.utf8 (encodeChars bs)).map digitValue? = (halves bs).map some := by
  rw [← map_digit_halves, Text.utf8, List.flatMap_map, List.map_flatMap, List.map_eq_flatMap]
  apply List.flatMap_congr
  intro n hn
  have hvalue := map_digitValue?_utf8_digit ⟨n, lt_of_mem_halves hn⟩
  rwa [Text.utf8, List.flatMap_singleton] at hvalue

theorem digitAt_of_value {b : UInt8} {n : Nat} (h : digitValue? b = some n) (position : Nat) :
    digitAt b position = .ok n := by
  rw [digitAt, h]

/-- The two digits of a byte are read as that byte. -/
theorem decodePairs_of_values {digits bs : Bytes} (position : Nat)
    (h : digits.map digitValue? = (halves bs).map some) :
    decodePairs position digits = .ok bs ∧ digits.length = 2 * bs.length := by
  induction bs generalizing digits position with
  | nil =>
    obtain rfl : digits = [] := List.map_eq_nil_iff.1 h
    exact ⟨rfl, rfl⟩
  | cons b bs ih =>
    have hsplit : halves (b :: bs) = b.toNat / 16 :: b.toNat % 16 :: halves bs := rfl
    rw [hsplit] at h
    obtain ⟨high, digits, rfl, hhigh, h⟩ := List.map_eq_cons_iff.1 h
    obtain ⟨low, digits, rfl, hlow, h⟩ := List.map_eq_cons_iff.1 h
    obtain ⟨hlater, hlength⟩ := ih (position + 2) h
    have hbyte : (16 * (b.toNat / 16) + b.toNat % 16).toUInt8 = b := by
      rw [Nat.div_add_mod]
      exact UInt8.ofNat_toNat
    constructor
    · rw [decodePairs, digitAt_of_value hhigh, digitAt_of_value hlow, hlater]
      exact congrArg (fun b => Except.ok (b :: bs)) hbyte
    · rw [List.length_cons, List.length_cons, List.length_cons, hlength]
      omega

/-- There is nothing to trim from digits, and no `x` among them. -/
theorem bare_encodeChars (bs : Bytes) : bare (encodeChars bs) = encodeChars bs := by
  have htrim : Text.trim (encodeChars bs) = encodeChars bs := by
    apply Text.trim_eq_self_iff.2
    apply Text.isTrimmed_of_forall
    intro c hc
    obtain ⟨n, rfl⟩ := exists_digit_of_mem_encodeChars hc
    exact isBlank_digit n
  unfold bare
  rw [htrim]
  split
  · rename_i rest hmarked
    have hx : 'x' ∈ encodeChars bs := by
      rw [hmarked]
      exact List.mem_cons_of_mem _ List.mem_cons_self
    exact absurd hx (not_mem_encodeChars (by decide) bs)
  · rfl

theorem decode_of_values {digits bs : Bytes}
    (h : digits.map digitValue? = (halves bs).map some) : decode digits = .ok bs := by
  obtain ⟨hpairs, hlength⟩ := decodePairs_of_values 0 h
  rw [decode, if_neg (by omega), hpairs]

theorem decode_utf8_encodeChars (bs : Bytes) : decode (Text.utf8 (encodeChars bs)) = .ok bs :=
  decode_of_values (map_digitValue?_utf8_encodeChars bs)

theorem ofText_encode (bs : Bytes) : ofText (encode bs) = .ok bs := by
  rw [ofText, encode, String.toList_ofList, bare_encodeChars, decode_utf8_encodeChars]

end Hex

theorem Difficulty.ofText_toHex (d : Difficulty) : ofText d.toHex = .ok d := by
  rw [ofText, toHex, Hex.ofText_encode]
  exact dif_neg d.bytes_ne_nil

end ProofOfWork

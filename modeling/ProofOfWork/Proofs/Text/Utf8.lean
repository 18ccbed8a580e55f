import ProofOfWork.Text.Utf8

/-! UTF-8 is read back, and a byte below 128 stands for the character with its number. -/
namespace ProofOfWork.Text

/-- The characters that the bytes spell, if they are UTF-8. -/
def ofUtf8? (bs : Bytes) : Option (List Char) :=
  bs.toByteArray.utf8Decode?.map Array.toList

theorem ofUtf8?_utf8 (text : List Char) : ofUtf8? (utf8 text) = some text := by
  have hbytes : (utf8 text).toByteArray = text.utf8Encode := rfl
  rw [ofUtf8?, hbytes, List.utf8Decode?_utf8Encode]
  rfl

theorem toNat_ofNat_of_lt_or_gt {n : Nat} (h : n < 0xD800 ∨ 0xDFFF < n ∧ n < 0x110000) :
    (Char.ofNat n).toNat = n := by
  rw [Char.ofNat, dif_pos h]
  rfl

theorem exists_mem_utf8EncodeChar (c : Char) : ∃ b, b ∈ String.utf8EncodeChar c := by
  apply List.exists_mem_of_length_pos
  rw [String.length_utf8EncodeChar]
  exact c.utf8Size_pos

theorem utf8_eq_nil_iff {text : List Char} : utf8 text = [] ↔ text = [] := by
  constructor
  · intro h
    rw [List.eq_nil_iff_forall_not_mem]
    intro c hc
    obtain ⟨b, hb⟩ := exists_mem_utf8EncodeChar c
    have hmem : b ∈ utf8 text := List.mem_flatMap.2 ⟨c, hc, hb⟩
    rw [h] at hmem
    exact absurd hmem List.not_mem_nil
  · rintro rfl
    rfl

theorem utf8EncodeChar_of_lt {c : Char} (h : c.toNat < 128) :
    String.utf8EncodeChar c = [UInt8.ofNat c.toNat] :=
  if_pos (Nat.le_of_lt_succ h)

/-- Every byte of a longer encoding has its highest bit set. -/
theorem le_toNat_of_mem_utf8EncodeChar {c : Char} (h : 128 ≤ c.toNat) {b : UInt8}
    (hb : b ∈ String.utf8EncodeChar c) : 128 ≤ b.toNat := by
  have hmarked : ∀ n mark, 128 ≤ mark → n + mark < 256 → 128 ≤ (UInt8.ofNat (n + mark)).toNat := by
    intro n mark hmark hlt
    rw [UInt8.toNat_ofNat']
    omega
  have hlong : ¬ c.val.toNat ≤ 0x7f := Nat.not_le.2 h
  simp only [String.utf8EncodeChar, if_neg hlong] at hb
  split at hb
  · simp only [List.mem_cons, List.not_mem_nil, or_false] at hb
    rcases hb with rfl | rfl
    all_goals exact hmarked _ _ (by decide) (by omega)
  · split at hb
    · simp only [List.mem_cons, List.not_mem_nil, or_false] at hb
      rcases hb with rfl | rfl | rfl
      all_goals exact hmarked _ _ (by decide) (by omega)
    · simp only [List.mem_cons, List.not_mem_nil, or_false] at hb
      rcases hb with rfl | rfl | rfl | rfl
      all_goals exact hmarked _ _ (by decide) (by omega)

theorem mem_of_mem_utf8 {c : Char} (hc : c.toNat < 128) {text : List Char}
    (h : UInt8.ofNat c.toNat ∈ utf8 text) : c ∈ text := by
  obtain ⟨d, hd, hmem⟩ := List.mem_flatMap.1 h
  have hbyte : (UInt8.ofNat c.toNat).toNat = c.toNat := by
    rw [UInt8.toNat_ofNat']
    omega
  rcases Nat.lt_or_ge d.toNat 128 with hlow | hhigh
  · rw [utf8EncodeChar_of_lt hlow, List.mem_singleton] at hmem
    have hnat := congrArg UInt8.toNat hmem
    rw [hbyte, UInt8.toNat_ofNat', Nat.mod_eq_of_lt (by omega)] at hnat
    rwa [Char.toNat_inj.1 hnat]
  · have hle := le_toNat_of_mem_utf8EncodeChar hhigh hmem
    omega

end ProofOfWork.Text

import ProofOfWork.Proofs.Bytes.HexSpelling
import ProofOfWork.Proofs.Difficulty.Texts

/-!
The two readers of hexadecimal text, of bytes and of difficulties. They accept the same digits and
refuse the same texts for the same reason, but for the empty difficulty.
-/
namespace ProofOfWork.Difficulty

variable {s t : String} {d : Difficulty}

theorem ofText_of_hex_ok {bs : Bytes} (h : Hex.ofText s = .ok bs) : ofText s = ofBytes bs := by
  rw [ofText, h]
  rfl

theorem ofText_of_hex_error {e : Hex.Error} (h : Hex.ofText s = .error e) :
    ofText s = .error (.hex e) := by
  rw [ofText, h]
  rfl

theorem ofText_eq_ok_iff : ofText s = .ok d ↔ Hex.ofText s = .ok d.bytes := by
  constructor
  · exact hex_of_ofText
  · intro h
    rw [ofText_of_hex_ok h]
    exact dif_neg d.bytes_ne_nil

theorem ofText_eq_hex_iff {e : Hex.Error} :
    ofText s = .error (.hex e) ↔ Hex.ofText s = .error e := by
  cases h : Hex.ofText s with
  | error e' => simp [ofText_of_hex_error h]
  | ok bs =>
    rw [ofText_of_hex_ok h, ofBytes]
    split_ifs <;> simp

theorem ofText_eq_empty_iff : ofText s = .error .empty ↔ Hex.ofText s = .ok [] := by
  cases h : Hex.ofText s with
  | error e' => simp [ofText_of_hex_error h]
  | ok bs =>
    rw [ofText_of_hex_ok h, ofBytes]
    split_ifs <;> simp [*]

theorem hex_ofText_eq_nil_iff : Hex.ofText s = .ok [] ↔ Hex.bare s.toList = [] := by
  have hnone : Hex.halves [] = [] := rfl
  rw [Hex.ofText, Hex.decode_eq_ok_iff, hnone, List.forall₂_nil_right_iff, Text.utf8_eq_nil_iff]

/-- What is left of a text without the blanks at its ends and without one mark in front is read as
the bytes that its digits spell, or refused: first for an odd number of bytes, then for the first
byte that is no digit. A difficulty is read from the same texts but the empty one, as the same bytes
and with the same refusals. Blanks around an accepted text, the case of its digits, and a mark in
front of what the blanks surround make no difference. -/
theorem hex_readers_agree (s : String) :
    (∀ u, Hex.IsBare s.toList u ↔ u = Hex.bare s.toList) ∧
    ((∃ bs, Hex.ofText s = .ok bs) ↔
      (Hex.digitBytes s).length % 2 = 0 ∧ ∀ b ∈ Hex.digitBytes s, ∃ n, Hex.IsDigitByte b n) ∧
    (∀ bs, Hex.ofText s = .ok bs ↔
      List.Forall₂ Hex.IsDigitByte (Hex.digitBytes s) (Hex.halves bs)) ∧
    (Hex.ofText s = .error .oddLength ↔ (Hex.digitBytes s).length % 2 = 1) ∧
    (∀ b i, Hex.ofText s = .error (.invalidDigit b i) ↔
      (Hex.digitBytes s).length % 2 = 0 ∧ Hex.IsFirstBad (Hex.digitBytes s) b i) ∧
    (ofText s = .error .empty ↔ Hex.bare s.toList = []) ∧
    (∀ d, ofText s = .ok d ↔ Hex.ofText s = .ok d.bytes) ∧
    (∀ e, ofText s = .error (.hex e) ↔ Hex.ofText s = .error e) ∧
    ∀ t : String, Hex.Respelled s.toList t.toList → ∀ bs, Hex.ofText s = .ok bs →
      Hex.ofText t = .ok bs ∧ ofText t = ofText s := by
  refine ⟨fun u => Hex.isBare_iff, Hex.exists_decode_eq_ok_iff, fun bs => Hex.decode_eq_ok_iff,
    Hex.decode_eq_oddLength_iff, fun b i => Hex.decode_eq_invalidDigit_iff, ?_,
    fun d => ofText_eq_ok_iff, fun e => ofText_eq_hex_iff, ?_⟩
  · rw [ofText_eq_empty_iff, hex_ofText_eq_nil_iff]
  · intro t hrespelled bs hs
    have ht := Hex.ofText_of_respelled hrespelled hs
    exact ⟨ht, (ofText_of_hex_ok ht).trans (ofText_of_hex_ok hs).symm⟩

theorem hex_readers_agree_one_byte :
    let d : Difficulty := ⟨[0xAB], by decide⟩
    Hex.Respelled "aB".toList "\taB ".toList ∧ Hex.ofText "\taB " = .ok [0xAB] ∧
    Hex.Respelled "aB".toList "Ab".toList ∧ Hex.ofText "Ab" = .ok [0xAB] ∧
    Hex.Respelled " aB".toList " 0xaB".toList ∧ Hex.ofText " 0xaB" = .ok [0xAB] ∧
    ofText " 0xaB" = .ok d := by
  intro d
  obtain ⟨-, -, -, -, -, -, -, -, hsame⟩ := hex_readers_agree "aB"
  obtain ⟨-, -, -, -, -, -, hread, -, hsame'⟩ := hex_readers_agree " aB"
  have htext : Hex.ofText "aB" = .ok [0xAB] := by decide
  have htext' : Hex.ofText " aB" = .ok [0xAB] := by decide
  have hspaced : Hex.Respelled "aB".toList "\taB ".toList :=
    @Hex.Respelled.spaced ['\t'] "aB".toList [' '] (by decide) (by decide)
  have hrecased : Hex.Respelled "aB".toList "Ab".toList :=
    .recased (.cons (.inr ⟨10, by decide⟩) (.cons (.inr ⟨11, by decide⟩) .nil))
  have hmarked : Hex.Respelled " aB".toList " 0xaB".toList :=
    @Hex.Respelled.marked [' '] "aB".toList [] (by decide) (by decide) (by decide) (by decide)
  obtain ⟨hlast, hlast'⟩ := hsame' _ hmarked _ htext'
  exact ⟨hspaced, (hsame _ hspaced _ htext).1, hrecased, (hsame _ hrecased _ htext).1, hmarked,
    hlast, hlast'.trans ((hread d).2 htext')⟩

/-- A mark in front of the blanks makes them part of the digits. -/
theorem mark_before_blank_refused :
    Hex.ofText " ab" = .ok [0xAB] ∧ ¬ Hex.mark <+: Text.trim " ab".toList ∧
    Hex.ofText ("0x" ++ " ab") = .error .oddLength ∧
    ofText ("0x" ++ " ab") = .error (.hex .oddLength) := by
  refine ⟨by decide, by decide, by decide, by decide⟩

end ProofOfWork.Difficulty

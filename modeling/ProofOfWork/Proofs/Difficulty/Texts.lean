import ProofOfWork.Difficulty.Json
import ProofOfWork.Proofs.Bytes.HexSpelling
import ProofOfWork.Proofs.Difficulty.Canonical
import ProofOfWork.Proofs.Json.StringDocument

/-!
The texts of difficulties. Each accepted text has a normal form, which is the one that is written,
and a JSON string is read as the text that it stands for.
-/
namespace ProofOfWork.Difficulty

/-- Without what is dropped around the digits, and in lowercase. -/
def normalText (text : String) : String :=
  String.ofList (Text.lowercase (Hex.bare text.toList))

variable {s t : String} {d e : Difficulty}

/-- What the normal form drops is said without the reader. -/
theorem exists_isBare_normalText (s : String) : ∃ digits, Hex.IsBare s.toList digits ∧
    normalText s = String.ofList (Text.lowercase digits) :=
  ⟨_, Hex.isBare_iff.2 rfl, rfl⟩

theorem hex_of_ofText (h : ofText s = .ok d) : Hex.ofText s = .ok d.bytes := by
  obtain ⟨bytes, hbytes, hd⟩ := exists_of_bind_eq_ok h
  unfold ofBytes at hd
  split at hd
  · cases hd
  · cases hd
    exact eq_ok_of_mapError hbytes

/-- The text that is written is the normal form of the one that was read. -/
theorem toHex_eq_normalText (h : ofText s = .ok d) : d.toHex = normalText s := by
  rw [toHex, Hex.encode, normalText, Hex.lowercase_of_decode (hex_of_ofText h)]

theorem ofText_normalText (h : ofText s = .ok d) : ofText (normalText s) = .ok d := by
  rw [← toHex_eq_normalText h, ofText_toHex]

theorem normalText_normalText (h : ofText s = .ok d) :
    normalText (normalText s) = normalText s := by
  rw [← toHex_eq_normalText (ofText_normalText h), ← toHex_eq_normalText h]

theorem toHex_injective (h : d.toHex = e.toHex) : d = e := by
  have hread := d.ofText_toHex
  rw [h, ofText_toHex] at hread
  exact (Except.ok.inj hread).symm

theorem eq_iff_normalText_eq (hs : ofText s = .ok d) (ht : ofText t = .ok e) :
    d = e ↔ normalText s = normalText t := by
  rw [← toHex_eq_normalText hs, ← toHex_eq_normalText ht]
  exact ⟨congrArg toHex, toHex_injective⟩

theorem ofJson_of_isStringOf {document text : String}
    (h : Json.IsStringOf document.toList text.toList) :
    ofJson document = (ofText text).mapError .rejected := by
  rw [ofJson, Json.readString_of_isStringOf h, String.ofList_toList]

theorem isStringOf_toJson (d : Difficulty) : Json.IsStringOf d.toJson.toList d.toHex.toList := by
  apply Json.quote_isStringOf
  intro c hc
  rw [toHex, Hex.encode, String.toList_ofList] at hc
  exact Json.isPlain_of_mem_encodeChars hc

theorem ofJson_toJson (d : Difficulty) : ofJson d.toJson = .ok d := by
  rw [ofJson_of_isStringOf d.isStringOf_toJson, ofText_toHex]
  rfl

theorem ofJson_eq_ok_iff {document : String} :
    ofJson document = .ok d ↔
      ∃ text, Json.IsStringOf document.toList text ∧ ofText (String.ofList text) = .ok d := by
  rw [ofJson, Json.readString_eq_ok_iff]

/-- A difficulty is read back from its text and from its JSON. To read a text and write the
difficulty is to normalise it: what is left without the blanks around it and one mark in front is
written in lowercase. Two texts are of one difficulty if their normal forms are the same.
A JSON document that is a string is read, or rejected, as the text that it stands for, and no other
document is read. -/
theorem texts_and_json_read_back :
    (∀ d : Difficulty, ofText d.toHex = .ok d ∧ ofJson d.toJson = .ok d) ∧
    (∀ s, ∃ digits, Hex.IsBare s.toList digits ∧
      normalText s = String.ofList (Text.lowercase digits)) ∧
    (∀ s d, ofText s = .ok d → d.toHex = normalText s ∧ ofText (normalText s) = .ok d ∧
      normalText (normalText s) = normalText s) ∧
    (∀ s t d e, ofText s = .ok d → ofText t = .ok e → (d = e ↔ normalText s = normalText t)) ∧
    (∀ document text : String, Json.IsStringOf document.toList text.toList →
      ofJson document = (ofText text).mapError .rejected) ∧
    ∀ document d, ofJson document = .ok d →
      ∃ text, Json.IsStringOf document.toList text ∧ ofText (String.ofList text) = .ok d := by
  refine ⟨fun d => ⟨d.ofText_toHex, d.ofJson_toJson⟩, exists_isBare_normalText, ?_, ?_, ?_, ?_⟩
  · intro s d h
    exact ⟨toHex_eq_normalText h, ofText_normalText h, normalText_normalText h⟩
  · intro s t d e hs ht
    exact eq_iff_normalText_eq hs ht
  · intro document text h
    exact ofJson_of_isStringOf h
  · intro document d h
    exact ofJson_eq_ok_iff.1 h

/-- A capital letter, a mark in front and an escape make no difference. -/
theorem texts_and_json_read_back_one_byte :
    let d : Difficulty := ⟨[0xAB], by decide⟩
    ofText " 0xAB\t" = .ok d ∧ ofText "aB" = .ok d ∧ d.toHex = normalText " 0xAB\t" ∧
    normalText " 0xAB\t" = normalText "aB" ∧ ofJson "\t\"\\u0061B\"\n" = .ok d := by
  intro d
  obtain ⟨-, -, hnormal, hsame, hjson, -⟩ := texts_and_json_read_back
  have hmarked : ofText " 0xAB\t" = .ok d := by decide
  have hbare : ofText "aB" = .ok d := by decide
  have hunit : Json.IsCodeUnit ['0', '0', '6', '1'] 'a'.toNat :=
    ⟨0, 0, 6, 1, .cons (by decide) (.cons (by decide) (.cons (by decide) (.cons (by decide) .nil))),
      rfl⟩
  have hstring : Json.IsStringOf "\t\"\\u0061B\"\n".toList "aB".toList :=
    ⟨['\t'], [['\\', 'u', '0', '0', '6', '1'], ['B']], ['\n'], by decide, by simp,
      .cons (.unit hunit) (.cons (.plain (by decide)) .nil)⟩
  refine ⟨hmarked, hbare, (hnormal _ _ hmarked).1, (hsame _ _ _ _ hmarked hbare).1 rfl, ?_⟩
  rw [hjson _ _ hstring, hbare]
  rfl

end ProofOfWork.Difficulty

import Mathlib.Data.List.Basic
import ProofOfWork.Digest.Algorithm
import ProofOfWork.Proofs.Text.Lowercase
import ProofOfWork.Report.Format

/-!
The names of algorithms and of line formats. They are read in either case of ASCII letters and in no
other spelling, but for the hyphens in the name of an algorithm.
-/
namespace ProofOfWork

variable {text : String}

namespace Algorithm

/-- The names of an algorithm, in small letters and without hyphens. -/
def spellings : Algorithm → List String
  | .sha256 => ["sha256"]
  | .sha384 => ["sha384"]
  | .sha512 => ["sha512"]
  | .sha512Over256 => ["sha512/256", "sha512_256"]

/-- Without its hyphens the text is a name of the algorithm, but for the case of ASCII letters. -/
def IsNamed (a : Algorithm) (text : String) : Prop :=
  ∃ name ∈ a.spellings, Text.EqIgnoringCase (text.toList.filter (· != '-')) name.toList

instance (a : Algorithm) (text : String) : Decidable (a.IsNamed text) :=
  List.decidableBEx _ a.spellings

variable {a : Algorithm}

theorem isName_of_mem_spellings {name : String} (h : name ∈ a.spellings) :
    Text.IsName name.toList := by
  have hall : ∀ name ∈ all.flatMap spellings, Text.IsName name.toList := by decide
  exact hall name (List.mem_flatMap.2 ⟨a, by cases a <;> decide, h⟩)

theorem hyphen_toLower (c : Char) : (c.toLower != '-') = (c != '-') := by
  have hhyphen : c.toLower = '-' ↔ c = '-' := by
    rw [← Char.toNat_inj, ← Char.toNat_inj, Text.toNat_toLower]
    show _ = 45 ↔ c.toNat = 45
    split <;> omega
  rw [Bool.eq_iff_iff, bne_iff_ne, bne_iff_ne, Ne, Ne, hhyphen]

theorem ne_hyphen_of_isTrace {c : Char} (h : Text.IsTrace c) : (c != '-') = true := by
  rw [bne_iff_ne]
  rintro rfl
  rcases h with hk | hge
  · exact absurd hk (by decide)
  · exact absurd hge (by decide)

theorem ofText_eq_ok_iff : ofText text = .ok a ↔ a.IsNamed text := by
  have hlower : ofText text = .ok a ↔ ∃ name ∈ a.spellings,
      String.ofList ((Text.lowercase text.toList).filter (· != '-')) = name := by
    unfold ofText
    generalize String.ofList ((Text.lowercase text.toList).filter (· != '-')) = lower
    split <;> cases a <;> simp_all [spellings]
  rw [hlower]
  refine exists_congr fun name => and_congr_right fun hname => ?_
  rw [← String.toList_inj, String.toList_ofList]
  exact Text.filter_lowercase_eq_iff hyphen_toLower (fun _ => ne_hyphen_of_isTrace)
    (isName_of_mem_spellings hname)

theorem eq_of_ofText_eq_error {e : Invalid} (h : ofText text = .error e) : e = ⟨text⟩ := by
  unfold ofText at h
  split at h <;> cases h
  rfl

theorem IsNamed.lt (h : a.IsNamed text) : ∀ c ∈ text.toList, c.toNat < 128 := by
  obtain ⟨name, hname, heq⟩ := h
  intro c hc
  by_cases hhyphen : c = '-'
  · rw [hhyphen]
    decide
  · have hmem : c ∈ text.toList.filter (· != '-') :=
      List.mem_filter.2 ⟨hc, bne_iff_ne.2 hhyphen⟩
    exact heq.lt (fun d hd => (isName_of_mem_spellings hname d hd).1) c hmem

end Algorithm

namespace LineFormat

/-- The text is the name of the format, but for the case of ASCII letters. -/
def IsNamed (f : LineFormat) (text : String) : Prop :=
  Text.EqIgnoringCase text.toList f.name.toList

instance (f : LineFormat) (text : String) : Decidable (f.IsNamed text) :=
  inferInstanceAs (Decidable (Text.EqIgnoringCase _ _))

variable {f : LineFormat}

theorem isName_name (f : LineFormat) : Text.IsName f.name.toList := by
  cases f <;> decide

theorem ofText_eq_ok_iff : ofText text = .ok f ↔ f.IsNamed text := by
  have hlower : ofText text = .ok f ↔ String.ofList (Text.lowercase text.toList) = f.name := by
    unfold ofText
    generalize String.ofList (Text.lowercase text.toList) = lower
    split <;> cases f <;> simp_all [name]
  have hall : (Text.lowercase text.toList).filter (fun _ => true) = f.name.toList ↔
      Text.EqIgnoringCase (text.toList.filter fun _ => true) f.name.toList :=
    Text.filter_lowercase_eq_iff (fun _ => rfl) (fun _ _ => rfl) f.isName_name
  rw [List.filter_true, List.filter_true] at hall
  rw [hlower, ← String.toList_inj, String.toList_ofList, hall, IsNamed]

theorem eq_of_ofText_eq_error {e : Invalid} (h : ofText text = .error e) :
    e = ⟨String.ofList (Text.lowercase text.toList)⟩ := by
  unfold ofText at h
  split at h <;> cases h
  rfl

theorem IsNamed.lt (h : f.IsNamed text) : ∀ c ∈ text.toList, c.toNat < 128 :=
  Text.EqIgnoringCase.lt h fun d hd => (f.isName_name d hd).1

end LineFormat

/-- A text is read as an algorithm or as a line format exactly if it names one, in either case of
ASCII letters and, for an algorithm, with hyphens anywhere. The error for any other text keeps it
as it is, or in lowercase. Nothing beyond ASCII names anything. -/
theorem names_read_exactly (text : String) :
    (∀ a, Algorithm.ofText text = .ok a ↔ a.IsNamed text) ∧
    ((∀ a : Algorithm, ¬ a.IsNamed text) → Algorithm.ofText text = .error ⟨text⟩) ∧
    (∀ f, LineFormat.ofText text = .ok f ↔ f.IsNamed text) ∧
    ((∀ f : LineFormat, ¬ f.IsNamed text) →
      LineFormat.ofText text = .error ⟨String.ofList (Text.lowercase text.toList)⟩) ∧
    ((∃ c ∈ text.toList, 128 ≤ c.toNat) →
      (∀ a, Algorithm.ofText text ≠ .ok a) ∧ ∀ f, LineFormat.ofText text ≠ .ok f) := by
  refine ⟨fun a => Algorithm.ofText_eq_ok_iff, ?_, fun f => LineFormat.ofText_eq_ok_iff, ?_, ?_⟩
  · intro hnone
    cases hresult : Algorithm.ofText text with
    | ok a => exact absurd (Algorithm.ofText_eq_ok_iff.1 hresult) (hnone a)
    | error e => rw [Algorithm.eq_of_ofText_eq_error hresult]
  · intro hnone
    cases hresult : LineFormat.ofText text with
    | ok f => exact absurd (LineFormat.ofText_eq_ok_iff.1 hresult) (hnone f)
    | error e => rw [LineFormat.eq_of_ofText_eq_error hresult]
  · rintro ⟨c, hc, hge⟩
    constructor
    · intro a ha
      exact absurd hge (Nat.not_le.2 ((Algorithm.ofText_eq_ok_iff.1 ha).lt c hc))
    · intro f hf
      exact absurd hge (Nat.not_le.2 ((LineFormat.ofText_eq_ok_iff.1 hf).lt c hc))

/-- A sigma at the end of a word has a lowercase of its own. -/
example : (LineFormat.ofText "\u0391\u03a3 \u03a3").mapError (·.text) =
    .error "\u03b1\u03c2 \u03c3" := by
  decide +kernel

theorem names_read_exactly_long_s :
    Algorithm.ofText "-SHA-51-2_256" = .ok .sha512Over256 ∧
      Algorithm.ofText "\u017fha256" = .error ⟨"\u017fha256"⟩ ∧
      LineFormat.ofText "JSON" = .ok .json ∧
      LineFormat.ofText "J\u0130son" = .error ⟨"ji\u0307son"⟩ := by
  obtain ⟨hhyphens, -⟩ := names_read_exactly "-SHA-51-2_256"
  obtain ⟨hread, herror, -, -, hbeyond⟩ := names_read_exactly "\u017fha256"
  obtain ⟨-, -, hcapital, -⟩ := names_read_exactly "JSON"
  obtain ⟨-, -, -, hlower, -⟩ := names_read_exactly "J\u0130son"
  have hnone : ∀ a : Algorithm, ¬ a.IsNamed "\u017fha256" := by
    intro a ha
    exact (hbeyond ⟨'\u017f', by decide, by decide⟩).1 a ((hread a).2 ha)
  have hneither : ∀ f : LineFormat, ¬ f.IsNamed "J\u0130son" := by
    intro f
    cases f <;> decide
  refine ⟨(hhyphens _).2 (by decide), herror hnone, (hcapital _).2 (by decide), ?_⟩
  rw [hlower hneither]
  rfl

end ProofOfWork

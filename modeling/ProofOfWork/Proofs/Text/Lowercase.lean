import ProofOfWork.Proofs.Text.Utf8
import ProofOfWork.Text.Lowercase

/-!
Full lowercasing against the case of ASCII letters. Text in ASCII loses its capital letters and
nothing else. Other text becomes no text in ASCII, unless all that is beyond ASCII in it are Kelvin
signs, whose small letter is the `k`.
-/
namespace ProofOfWork.Text

/-- The texts are the same but for the case of ASCII letters. -/
def EqIgnoringCase (text other : List Char) : Prop :=
  text.map Char.toLower = other.map Char.toLower

instance (text other : List Char) : Decidable (EqIgnoringCase text other) :=
  inferInstanceAs (Decidable (_ = _))

theorem toNat_toLower (c : Char) :
    c.toLower.toNat = if 65 ≤ c.toNat ∧ c.toNat ≤ 90 then c.toNat + 32 else c.toNat := by
  unfold Char.toLower
  by_cases h : c.val ≥ 'A'.val ∧ c.val ≤ 'Z'.val
  · have hcapital : 65 ≤ c.toNat ∧ c.toNat ≤ 90 := h
    rw [dif_pos h, if_pos hcapital]
    show (c.val + 32).toNat = c.toNat + 32
    rw [UInt32.toNat_add]
    apply Nat.mod_eq_of_lt
    show c.toNat + 32 < 2 ^ 32
    omega
  · have hother : ¬ (65 ≤ c.toNat ∧ c.toNat ≤ 90) := h
    rw [dif_neg h, if_neg hother]

theorem toNat_toLower_lt_iff {c : Char} : c.toLower.toNat < 128 ↔ c.toNat < 128 := by
  rw [toNat_toLower]
  split <;> omega

namespace CaseRun

/-- The run lies beyond ASCII, and so do the characters that it leads to. -/
def IsForeign (r : CaseRun) : Prop :=
  128 ≤ r.first ∧ 128 ≤ r.first + r.shift ∧
    (r.last + r.shift < 0xD800 ∨ 0xDFFF < r.first + r.shift ∧ r.last + r.shift < 0x110000)

instance (r : CaseRun) : Decidable r.IsForeign :=
  inferInstanceAs (Decidable (_ ∧ _ ∧ _))

variable {r : CaseRun} {n : Nat}

theorem covers_iff : r.covers n = true ↔
    r.first ≤ n ∧ n ≤ r.last ∧ (n - r.first) % r.stride = 0 := by
  simp [covers, and_assoc]

theorem IsForeign.le_toNat_lower (h : r.IsForeign) (hn : r.covers n = true) :
    128 ≤ (Char.ofNat (r.lower n)).toNat := by
  obtain ⟨-, hlow, hvalid⟩ := h
  obtain ⟨hfirst, hlast, -⟩ := covers_iff.1 hn
  unfold lower
  rw [toNat_ofNat_of_lt_or_gt (by omega)]
  omega

end CaseRun

/-- The run of the capital letters of ASCII. -/
def capitalRun : CaseRun := ⟨0x41, 0x5A, 1, 32⟩

section Runs

variable {n : Nat}

theorem covers_capitalRun_iff : capitalRun.covers n = true ↔ 65 ≤ n ∧ n ≤ 90 := by
  simp [CaseRun.covers_iff, capitalRun, Nat.mod_one]

/-- Only the Kelvin sign leads back to ASCII. -/
theorem lowercaseRuns_cases : ∃ later, lowercaseRuns = capitalRun :: later ∧
    ∀ r ∈ later, r.IsForeign ∨ r.first = 0x212A ∧ r.last = 0x212A :=
  ⟨lowercaseRuns.tail, rfl, by decide +kernel⟩

theorem find?_of_lt (h : n < 128) : lowercaseRuns.find? (·.covers n) =
    if 65 ≤ n ∧ n ≤ 90 then some capitalRun else none := by
  obtain ⟨later, hruns, hlater⟩ := lowercaseRuns_cases
  have hnone : later.find? (·.covers n) = none := by
    apply List.find?_eq_none.2
    intro r hr hcovers
    obtain ⟨hfirst, -⟩ := CaseRun.covers_iff.1 hcovers
    rcases hlater r hr with ⟨hforeign, -⟩ | ⟨hkelvin, -⟩ <;> omega
  rw [hruns, List.find?_cons, hnone]
  by_cases hcapital : 65 ≤ n ∧ n ≤ 90
  · rw [covers_capitalRun_iff.2 hcapital, if_pos hcapital]
  · rw [eq_false_of_ne_true (mt covers_capitalRun_iff.1 hcapital), if_neg hcapital]

theorem le_toNat_lower_of_find? {r : CaseRun} (h : 128 ≤ n) (hkelvin : n ≠ 0x212A)
    (hfound : lowercaseRuns.find? (·.covers n) = some r) :
    128 ≤ (Char.ofNat (r.lower n)).toNat := by
  obtain ⟨later, hruns, hlater⟩ := lowercaseRuns_cases
  have hcovers := List.find?_some hfound
  have hmem := List.mem_of_find?_eq_some hfound
  rw [hruns] at hmem
  rcases List.mem_cons.1 hmem with rfl | hmem
  · have hcapital := covers_capitalRun_iff.1 hcovers
    omega
  · rcases hlater r hmem with hforeign | ⟨hfirst, hlast⟩
    · exact hforeign.le_toNat_lower hcovers
    · obtain ⟨hstart, hend, -⟩ := CaseRun.covers_iff.1 hcovers
      omega

end Runs

variable {c : Char}

theorem lowercaseChar_of_lt (h : c.toNat < 128) : lowercaseChar c = [c.toLower] := by
  have hdot : c ≠ '\u0130' := by
    rintro rfl
    exact absurd h (by decide)
  have hlower := toNat_toLower c
  unfold lowercaseChar
  rw [if_neg hdot, find?_of_lt h]
  by_cases hcapital : 65 ≤ c.toNat ∧ c.toNat ≤ 90
  · have hshift : capitalRun.lower c.toNat = c.toLower.toNat := by
      rw [hlower, if_pos hcapital]
      rfl
    simp only [hcapital, and_self, if_true, hshift, Char.ofNat_toNat]
  · rw [if_neg hcapital] at hlower
    rw [if_neg hcapital, Char.toNat_inj.1 hlower]

/-- What a character beyond ASCII can leave behind: another one, or the letter of the Kelvin sign. -/
def IsTrace (c : Char) : Prop :=
  c = 'k' ∨ 128 ≤ c.toNat

theorem exists_trace_of_ge (h : 128 ≤ c.toNat) : ∃ d ∈ lowercaseChar c, IsTrace d := by
  by_cases hkelvin : c = '\u212A'
  · have hletter : lowercaseChar c = ['k'] := by
      rw [hkelvin]
      decide +kernel
    rw [hletter]
    exact ⟨'k', List.mem_singleton_self _, .inl rfl⟩
  · have hsign : c.toNat ≠ 0x212A := fun hn => hkelvin (Char.toNat_inj.1 hn)
    unfold lowercaseChar
    split
    · exact ⟨'\u0307', by simp, .inr (by decide)⟩
    · split
      · rename_i run hfound
        exact ⟨_, List.mem_singleton_self _, .inr (le_toNat_lower_of_find? h hsign hfound)⟩
      · exact ⟨c, List.mem_singleton_self c, .inr h⟩

theorem isTrace_lowercaseSigma (before after : List Char) :
    IsTrace (lowercaseSigma before after) := by
  unfold lowercaseSigma
  split
  · exact .inr (by decide)
  · exact .inr (by decide)

variable {text name : List Char}

theorem lowercaseAfter_of_ascii (h : ∀ c ∈ text, c.toNat < 128) (before : List Char) :
    lowercaseAfter before text = text.map Char.toLower := by
  induction text generalizing before with
  | nil => rfl
  | cons c text ih =>
    obtain ⟨hc, hrest⟩ := List.forall_mem_cons.1 h
    have hsigma : c ≠ '\u03a3' := by
      rintro rfl
      exact absurd hc (by decide)
    rw [lowercaseAfter, if_neg hsigma, lowercaseChar_of_lt hc, ih hrest]
    rfl

theorem exists_trace_lowercaseAfter (h : ∃ c ∈ text, 128 ≤ c.toNat) (before : List Char) :
    ∃ d ∈ lowercaseAfter before text, IsTrace d := by
  induction text generalizing before with
  | nil => simp at h
  | cons c text ih =>
    unfold lowercaseAfter
    by_cases hc : 128 ≤ c.toNat
    · split
      · exact ⟨_, List.mem_append_left _ (List.mem_singleton_self _), isTrace_lowercaseSigma _ _⟩
      · obtain ⟨d, hd, htrace⟩ := exists_trace_of_ge hc
        exact ⟨d, List.mem_append_left _ hd, htrace⟩
    · have hrest : ∃ c ∈ text, 128 ≤ c.toNat := by simpa [hc] using h
      obtain ⟨d, hd, htrace⟩ := ih hrest (c :: before)
      exact ⟨d, List.mem_append_right _ hd, htrace⟩

/-- What is the same as ASCII text but for the case of letters is in ASCII. -/
theorem EqIgnoringCase.lt (h : EqIgnoringCase text name) (hname : ∀ d ∈ name, d.toNat < 128) :
    ∀ c ∈ text, c.toNat < 128 := by
  intro c hc
  have hlower : c.toLower ∈ name.map Char.toLower := by
    rw [← h]
    exact List.mem_map_of_mem hc
  obtain ⟨d, hd, heq⟩ := List.mem_map.1 hlower
  rw [← toNat_toLower_lt_iff, ← heq, toNat_toLower_lt_iff]
  exact hname d hd

/-- A name in small letters of ASCII. The letter `k` is left out for the sake of the Kelvin sign. -/
def IsName (name : List Char) : Prop :=
  ∀ d ∈ name, d.toNat < 128 ∧ d ≠ 'k' ∧ d.toLower = d

instance (name : List Char) : Decidable (IsName name) :=
  decidable_of_iff (name.all fun d => d.toNat < 128 ∧ d ≠ 'k' ∧ d.toLower = d) <| by
    simp only [List.all_eq_true, decide_eq_true_eq, IsName]

/-- Lowercased text without some characters is a name exactly if the text without them is the name
but for the case of ASCII letters. In text beyond ASCII a trace remains, so neither side holds. -/
theorem filter_lowercase_eq_iff {p : Char → Bool} (hcase : ∀ c, p c.toLower = p c)
    (htrace : ∀ d, IsTrace d → p d = true) (hname : IsName name) :
    (lowercase text).filter p = name ↔ EqIgnoringCase (text.filter p) name := by
  by_cases hascii : ∀ c ∈ text, c.toNat < 128
  · have hsmall : name.map Char.toLower = name :=
      (List.map_congr_left fun d hd => (hname d hd).2.2).trans (List.map_id name)
    have hfilter : (text.map Char.toLower).filter p = (text.filter p).map Char.toLower := by
      rw [List.filter_map]
      exact congrArg _ (List.filter_congr fun c _ => hcase c)
    rw [lowercase, lowercaseAfter_of_ascii hascii, hfilter, EqIgnoringCase, hsmall]
  · have hforeign : ∃ c ∈ text, 128 ≤ c.toNat := by simpa using hascii
    apply iff_of_false
    · intro heq
      -- the trace would be a character of the name, which has no `k` and is in ASCII
      obtain ⟨d, hd, hd'⟩ := exists_trace_lowercaseAfter hforeign []
      have hmem : d ∈ name := by
        rw [← heq]
        exact List.mem_filter.2 ⟨hd, htrace d hd'⟩
      obtain ⟨hlt, hk, -⟩ := hname d hmem
      rcases hd' with rfl | hge
      · exact hk rfl
      · exact absurd hge (Nat.not_le.2 hlt)
    · intro heq
      obtain ⟨c, hc, hge⟩ := hforeign
      have hmem : c ∈ text.filter p := List.mem_filter.2 ⟨hc, htrace c (.inr hge)⟩
      have hlt := heq.lt (fun d hd => (hname d hd).1) c hmem
      exact absurd hge (Nat.not_le.2 hlt)

end ProofOfWork.Text

import Mathlib.Data.List.Forall2
import ProofOfWork.Proofs.Bytes.Hex
import ProofOfWork.Proofs.Text.Lowercase

/-!
Hexadecimal digits in either case. Text that is read as some bytes is, but for the case of its
letters, the text that is written for them.
-/
namespace ProofOfWork

section

variable {x : Except ε α}

theorem exists_of_bind_eq_ok {f : α → Except ε β} {b : β} (h : x >>= f = .ok b) :
    ∃ a, x = .ok a ∧ f a = .ok b := by
  cases x with
  | error e => cases h
  | ok a => exact ⟨a, rfl, h⟩

theorem exists_of_map_eq_ok {f : α → β} {b : β} (h : x.map f = .ok b) :
    ∃ a, x = .ok a ∧ f a = b := by
  cases x with
  | error e => cases h
  | ok a => exact ⟨a, rfl, Except.ok.inj h⟩

theorem eq_ok_of_mapError {f : ε → ε'} {a : α} (h : x.mapError f = .ok a) : x = .ok a := by
  cases x with
  | error e => cases h
  | ok b => exact congrArg _ (Except.ok.inj h)

end

namespace Hex

/-- The character is a digit of the value, a small letter or a capital one. -/
def IsDigit (c : Char) (n : Nat) : Prop :=
  n < 16 ∧ (c = digit n ∨ c = (digit n).toUpper)

instance (c : Char) (n : Nat) : Decidable (IsDigit c n) :=
  inferInstanceAs (Decidable (n < 16 ∧ (c = digit n ∨ c = (digit n).toUpper)))

/-- There is a digit for each value, and nothing else stands for one. -/
theorem isDigit_of_digitValue? {c : Char} {n : Nat} (hc : c.toNat < 128)
    (h : digitValue? (UInt8.ofNat c.toNat) = some n) : IsDigit c n := by
  have hall : ∀ k : Fin 128,
      (digitValue? (UInt8.ofNat k)).all fun n => decide (IsDigit (Char.ofNat k) n) := by decide
  have hdigit := hall ⟨c.toNat, hc⟩
  rw [h, Option.all_some, decide_eq_true_iff, Char.ofNat_toNat] at hdigit
  exact hdigit

theorem lt_of_digitValue? {b : UInt8} {n : Nat} (h : digitValue? b = some n) :
    b.toNat < 128 ∧ n < 16 := by
  unfold digitValue? at h
  simp only at h
  split at h
  · cases h; omega
  · split at h
    · cases h; omega
    · split at h
      · cases h; omega
      · cases h

/-- A text all of whose bytes are digits consists of digits. -/
theorem isDigit_of_utf8 {cs : List Char} {ns : List Nat}
    (h : (Text.utf8 cs).map digitValue? = ns.map some) : List.Forall₂ IsDigit cs ns := by
  induction cs generalizing ns with
  | nil =>
    obtain rfl : ns = [] := List.map_eq_nil_iff.1 h.symm
    exact .nil
  | cons c cs ih =>
    have hsplit : Text.utf8 (c :: cs) = String.utf8EncodeChar c ++ Text.utf8 cs := rfl
    have hlow : c.toNat < 128 := by
      rcases Nat.lt_or_ge c.toNat 128 with hlow | hhigh
      · exact hlow
      · obtain ⟨b, hb⟩ := Text.exists_mem_utf8EncodeChar c
        have hmem : digitValue? b ∈ ns.map some := by
          rw [← h, hsplit]
          exact List.mem_map_of_mem (List.mem_append_left _ hb)
        obtain ⟨n, -, hn⟩ := List.mem_map.1 hmem
        have hbyte := (lt_of_digitValue? hn.symm).1
        have hmarked := Text.le_toNat_of_mem_utf8EncodeChar hhigh hb
        omega
    rw [hsplit, Text.utf8EncodeChar_of_lt hlow, List.singleton_append, List.map_cons] at h
    obtain ⟨n, ns, rfl, hn, hns⟩ := List.map_eq_cons_iff.1 h.symm
    exact .cons (isDigit_of_digitValue? hlow hn.symm) (ih hns.symm)

theorem digitAt_eq_ok {b : UInt8} {position n : Nat} (h : digitAt b position = .ok n) :
    digitValue? b = some n := by
  unfold digitAt at h
  split at h
  · cases h; assumption
  · cases h

/-- Both digits of each byte are read. -/
theorem map_digitValue?_of_decodePairs {position : Nat} {digits bs : Bytes}
    (heven : digits.length % 2 = 0) (h : decodePairs position digits = .ok bs) :
    digits.map digitValue? = (halves bs).map some := by
  fun_induction decodePairs position digits generalizing bs with
  | case1 position a b rest ih =>
    obtain ⟨high, hhigh, h⟩ := exists_of_bind_eq_ok h
    obtain ⟨low, hlow, h⟩ := exists_of_bind_eq_ok h
    obtain ⟨tail, htail, h⟩ := exists_of_bind_eq_ok h
    cases h
    have hlater := ih (by simp at heven; omega) htail
    have hhighValue := digitAt_eq_ok hhigh
    have hlowValue := digitAt_eq_ok hlow
    have hhighLt := (lt_of_digitValue? hhighValue).2
    have hlowLt := (lt_of_digitValue? hlowValue).2
    have hbyte : (16 * high + low).toUInt8.toNat = 16 * high + low := by
      rw [Nat.toUInt8, UInt8.toNat_ofNat']
      omega
    have hhalves : halves ((16 * high + low).toUInt8 :: tail) = high :: low :: halves tail := by
      have hdiv : (16 * high + low) / 16 = high := by omega
      have hmod : (16 * high + low) % 16 = low := by omega
      rw [halves, List.flatMap_cons, hbyte, hdiv, hmod]
      rfl
    rw [hhalves, List.map_cons, List.map_cons, hhighValue, hlowValue, hlater]
    rfl
  | case2 digits position hshort =>
    cases h
    cases digits with
    | nil => rfl
    | cons a rest =>
      cases rest with
      | nil => cases heven
      | cons b rest => exact absurd rfl (hshort a b rest)

theorem isDigit_of_decode {cs : List Char} {bs : Bytes} (h : decode (Text.utf8 cs) = .ok bs) :
    List.Forall₂ IsDigit cs (halves bs) := by
  unfold decode at h
  split at h
  · cases h
  · exact isDigit_of_utf8 (map_digitValue?_of_decodePairs (by omega) h)

theorem toLower_of_isDigit {c : Char} {n : Nat} (h : IsDigit c n) :
    c.toNat < 128 ∧ c.toLower = digit n := by
  have hall : ∀ n : Fin 16, ((digit n).toNat < 128 ∧ (digit n).toLower = digit n) ∧
      (digit n).toUpper.toNat < 128 ∧ (digit n).toUpper.toLower = digit n := by decide
  obtain ⟨hn, rfl | rfl⟩ := h
  · exact (hall ⟨n, hn⟩).1
  · exact (hall ⟨n, hn⟩).2

theorem map_toLower_of_isDigit {cs : List Char} {ns : List Nat}
    (h : List.Forall₂ IsDigit cs ns) :
    (∀ c ∈ cs, c.toNat < 128) ∧ cs.map Char.toLower = ns.map digit := by
  induction h with
  | nil => exact ⟨List.forall_mem_nil _, rfl⟩
  | cons hc _ ih =>
    obtain ⟨hascii, hlower⟩ := toLower_of_isDigit hc
    obtain ⟨hrest, hmap⟩ := ih
    rw [List.map_cons, List.map_cons, hlower, hmap]
    exact ⟨List.forall_mem_cons.2 ⟨hascii, hrest⟩, rfl⟩

/-- What is read as some bytes becomes, in lowercase, what is written for them. -/
theorem lowercase_of_decode {cs : List Char} {bs : Bytes} (h : decode (Text.utf8 cs) = .ok bs) :
    Text.lowercase cs = encodeChars bs := by
  obtain ⟨hascii, hlower⟩ := map_toLower_of_isDigit (isDigit_of_decode h)
  rw [Text.lowercase, Text.lowercaseAfter_of_ascii hascii, hlower, map_digit_halves]

end Hex

end ProofOfWork

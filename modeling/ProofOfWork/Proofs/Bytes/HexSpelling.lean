import ProofOfWork.Proofs.Bytes.HexGrammar
import ProofOfWork.Proofs.Text.Blank

/-!
Ways to spell the same digits: with blanks around them, with a mark in front, in either case. What
counts as the digits of a text is said without the reader.
-/
namespace ProofOfWork.Hex

/-- What may stand in front of the digits. -/
def mark : List Char :=
  ['0', 'x']

def dropMark (text : List Char) : List Char :=
  if mark <+: text then text.drop 2 else text

/-- What is left of a text without the blanks at its ends and then without one mark in front. -/
inductive IsBare : List Char → List Char → Prop
  | intro {before core after : List Char} : Text.Blanks before → Text.IsTrimmed core →
      Text.Blanks after → IsBare (before ++ core ++ after) (dropMark core)

/-- The same character, or a digit of the same value. -/
def SameDigit (c d : Char) : Prop :=
  c = d ∨ ∃ n, IsDigit c n ∧ IsDigit d n

/-- A text, and what becomes of it with more blanks around it, with letters in another case, or with
a mark in front of what the blanks surround. -/
inductive Respelled : List Char → List Char → Prop
  | spaced {before text after : List Char} : Text.Blanks before → Text.Blanks after →
      Respelled text (before ++ text ++ after)
  | recased {text other : List Char} : List.Forall₂ SameDigit text other → Respelled text other
  | marked {before core after : List Char} : Text.Blanks before → Text.IsTrimmed core →
      Text.Blanks after → ¬ mark <+: core →
      Respelled (before ++ core ++ after) (before ++ (mark ++ core) ++ after)

variable {c d : Char} {n : Nat} {before core after text other digits : List Char} {bs : Bytes}

/-- The bytes in which the digits of a text are looked for. -/
def digitBytes (text : String) : Bytes :=
  Text.utf8 (bare text.toList)

theorem bare_eq (text : List Char) : bare text = dropMark (Text.trim text) := by
  unfold bare dropMark
  split
  · rename_i digits hmarked
    rw [hmarked, if_pos ⟨digits, rfl⟩]
    rfl
  · rename_i hunmarked
    rw [if_neg]
    rintro ⟨digits, hmarked⟩
    exact hunmarked digits hmarked.symm

theorem isBare_iff : IsBare text digits ↔ digits = bare text := by
  rw [bare_eq]
  constructor
  · rintro ⟨hbefore, hcore, hafter⟩
    rw [Text.trim_append hbefore hcore hafter]
  · rintro rfl
    obtain ⟨before, after, htext, hbefore, hafter⟩ := Text.exists_eq_append_trim text
    have hbare := IsBare.intro hbefore (Text.isTrimmed_trim text) hafter
    rwa [← htext] at hbare

theorem bare_append (hbefore : Text.Blanks before) (hcore : Text.IsTrimmed core)
    (hafter : Text.Blanks after) : bare (before ++ core ++ after) = dropMark core :=
  (isBare_iff.1 (.intro hbefore hcore hafter)).symm

theorem bare_spaced (hbefore : Text.Blanks before) (hafter : Text.Blanks after) :
    bare (before ++ text ++ after) = bare text := by
  obtain ⟨front, back, htext, hfront, hback⟩ := Text.exists_eq_append_trim text
  have hmore : before ++ text ++ after =
      (before ++ front) ++ Text.trim text ++ (back ++ after) := by
    conv_lhs => rw [htext]
    simp only [List.append_assoc]
  have hlong : Text.Blanks (before ++ front) := List.forall_mem_append.2 ⟨hbefore, hfront⟩
  have hlater : Text.Blanks (back ++ after) := List.forall_mem_append.2 ⟨hback, hafter⟩
  rw [hmore, bare_append hlong (Text.isTrimmed_trim text) hlater, bare_eq]

theorem isTrimmed_mark_append (hcore : Text.IsTrimmed core) : Text.IsTrimmed (mark ++ core) where
  head_not_blank := by
    rintro c ⟨⟩
    decide
  last_not_blank := by
    intro c hc
    rcases eq_or_ne core [] with rfl | hne
    · cases hc
      decide
    · rw [List.getLast?_append_of_ne_nil _ hne] at hc
      exact hcore.last_not_blank c hc

theorem bare_marked (hbefore : Text.Blanks before) (hcore : Text.IsTrimmed core)
    (hafter : Text.Blanks after) (hunmarked : ¬ mark <+: core) :
    bare (before ++ (mark ++ core) ++ after) = bare (before ++ core ++ after) := by
  rw [bare_append hbefore (isTrimmed_mark_append hcore) hafter, bare_append hbefore hcore hafter,
    dropMark, dropMark, if_pos (List.prefix_append _ _), if_neg hunmarked]
  rfl

/-- A digit is one byte, no blank, and not the letter of the mark. -/
theorem IsDigit.plain (h : IsDigit c n) :
    c.toNat < 128 ∧ Text.isBlank c = false ∧ c ≠ 'x' := by
  have hall : ∀ k : Fin 16,
      ((digit k).toNat < 128 ∧ Text.isBlank (digit k) = false ∧ digit k ≠ 'x') ∧
      (digit k).toUpper.toNat < 128 ∧ Text.isBlank (digit k).toUpper = false ∧
        (digit k).toUpper ≠ 'x' := by decide
  obtain ⟨hn, rfl | rfl⟩ := h
  · exact (hall ⟨n, hn⟩).1
  · exact (hall ⟨n, hn⟩).2

theorem IsDigit.unique {m : Nat} (hm : IsDigit c m) (hn : IsDigit c n) : m = n := by
  have hsame := (digitValue?_of_isDigit hm).symm.trans (digitValue?_of_isDigit hn)
  exact Option.some.inj hsame

theorem isDigitByte_of_isDigit (h : IsDigit c n) : IsDigitByte (UInt8.ofNat c.toNat) n :=
  digitValue?_eq_some_iff.1 (digitValue?_of_isDigit h)

theorem isDigitBytes_utf8 {cs : List Char} {ns : List Nat} (h : List.Forall₂ IsDigit cs ns) :
    List.Forall₂ IsDigitByte (Text.utf8 cs) ns := by
  induction h with
  | nil => exact .nil
  | @cons c n cs ns hc _ ih =>
    have hsplit : Text.utf8 (c :: cs) = String.utf8EncodeChar c ++ Text.utf8 cs := rfl
    rw [hsplit, Text.utf8EncodeChar_of_lt hc.plain.1]
    exact .cons (isDigitByte_of_isDigit hc) ih

theorem decode_utf8_eq_ok_iff {cs : List Char} :
    decode (Text.utf8 cs) = .ok bs ↔ List.Forall₂ IsDigit cs (halves bs) := by
  constructor
  · exact isDigit_of_decode
  · intro h
    exact decode_eq_ok_iff.2 (isDigitBytes_utf8 h)

namespace SameDigit

theorem symm (h : SameDigit c d) : SameDigit d c := by
  obtain rfl | ⟨n, hc, hd⟩ := h
  · exact .inl rfl
  · exact .inr ⟨n, hd, hc⟩

theorem isDigit (h : SameDigit c d) (hc : IsDigit c n) : IsDigit d n := by
  obtain rfl | ⟨m, hm, hd⟩ := h
  · exact hc
  · rwa [hc.unique hm]

theorem isBlank_eq (h : SameDigit c d) : Text.isBlank c = Text.isBlank d := by
  obtain rfl | ⟨n, hc, hd⟩ := h
  · rfl
  · rw [hc.plain.2.1, hd.plain.2.1]

theorem eq_of_zero (h : SameDigit '0' d) : d = '0' := by
  obtain ⟨-, hd | hd⟩ := h.isDigit (n := 0) (by decide)
  · exact hd
  · exact hd

theorem eq_of_x (h : SameDigit 'x' d) : d = 'x' := by
  obtain rfl | ⟨n, hx, -⟩ := h
  · rfl
  · exact absurd rfl hx.plain.2.2

end SameDigit

theorem mark_isPrefix_of_recased (h : List.Forall₂ SameDigit text other) (hmark : mark <+: text) :
    mark <+: other := by
  obtain ⟨rest, rfl⟩ := hmark
  cases h with
  | cons hzero h =>
    cases h with
    | cons hx h =>
      rw [hzero.eq_of_zero, hx.eq_of_x]
      exact List.prefix_append mark _

theorem forall₂_dropMark (h : List.Forall₂ SameDigit text other) :
    List.Forall₂ SameDigit (dropMark text) (dropMark other) := by
  have hback : List.Forall₂ SameDigit other text := h.flip.imp fun _ _ => SameDigit.symm
  have hmark : mark <+: text ↔ mark <+: other :=
    ⟨mark_isPrefix_of_recased h, mark_isPrefix_of_recased hback⟩
  simp only [dropMark, hmark]
  split_ifs
  · exact List.forall₂_drop 2 h
  · exact h

theorem forall₂_bare (h : List.Forall₂ SameDigit text other) :
    List.Forall₂ SameDigit (bare text) (bare other) := by
  rw [bare_eq, bare_eq]
  exact forall₂_dropMark (Text.forall₂_trim SameDigit.isBlank_eq h)

/-- Digits in another case have the same values. -/
theorem isDigits_of_recased {ns : List Nat} (h : List.Forall₂ SameDigit text other)
    (hdigits : List.Forall₂ IsDigit text ns) : List.Forall₂ IsDigit other ns := by
  induction h generalizing ns with
  | nil => exact hdigits
  | cons hcd _ ih =>
    cases hdigits with
    | cons hc hrest => exact .cons (hcd.isDigit hc) (ih hrest)

/-- However accepted text is respelled, it is read as the same bytes. -/
theorem ofText_of_respelled {s t : String} (h : Respelled s.toList t.toList)
    (hs : ofText s = .ok bs) : ofText t = .ok bs := by
  rw [ofText] at hs ⊢
  generalize s.toList = text at h hs
  generalize t.toList = other at h
  cases h with
  | spaced hbefore hafter => rwa [bare_spaced hbefore hafter]
  | recased hcase =>
    rw [decode_utf8_eq_ok_iff] at hs ⊢
    exact isDigits_of_recased (forall₂_bare hcase) hs
  | marked hbefore hcore hafter hunmarked => rwa [bare_marked hbefore hcore hafter hunmarked]

end ProofOfWork.Hex

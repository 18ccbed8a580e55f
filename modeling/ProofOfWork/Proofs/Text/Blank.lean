import Mathlib.Data.List.DropRight
import Mathlib.Data.List.Forall2
import ProofOfWork.Text.Blank

/-! A text is trimmed to what has no blank at its ends and nothing but blanks around it. -/
namespace ProofOfWork.Text

def Blanks (text : List Char) : Prop :=
  ∀ c ∈ text, isBlank c

instance (text : List Char) : Decidable (Blanks text) :=
  decidable_of_iff (text.all isBlank) List.all_eq_true

/-- Neither the first character is a blank nor the last one. -/
structure IsTrimmed (text : List Char) : Prop where
  head_not_blank : ∀ c ∈ text.head?, isBlank c = false
  last_not_blank : ∀ c ∈ text.getLast?, isBlank c = false

variable {before core after text : List Char}

theorem IsTrimmed.trimStart_append (h : IsTrimmed core) (hne : core ≠ []) (after : List Char) :
    trimStart (core ++ after) = core ++ after := by
  cases core with
  | nil => exact absurd rfl hne
  | cons c cs =>
    have hc : isBlank c = false := h.head_not_blank c rfl
    exact List.dropWhile_cons_of_neg (ne_true_of_eq_false hc)

theorem IsTrimmed.trimEnd_eq (h : IsTrimmed core) : trimEnd core = core := by
  apply List.rdropWhile_eq_self_iff.2
  intro hne
  exact ne_true_of_eq_false (h.last_not_blank _ (List.getLast?_eq_some_getLast hne))

theorem trimEnd_append_blanks (text : List Char) (h : Blanks after) :
    trimEnd (text ++ after) = trimEnd text := by
  have hreverse : ∀ c ∈ after.reverse, isBlank c := fun c hc => h c (List.mem_reverse.1 hc)
  rw [trimEnd, List.reverse_append, List.dropWhile_append_of_pos hreverse, trimEnd]

theorem trim_append (hbefore : Blanks before) (hcore : IsTrimmed core) (hafter : Blanks after) :
    trim (before ++ core ++ after) = core := by
  have hstart : trimStart (before ++ core ++ after) = trimStart (core ++ after) := by
    rw [List.append_assoc]
    exact List.dropWhile_append_of_pos hbefore
  rw [trim, hstart]
  rcases eq_or_ne core [] with rfl | hne
  · have hnone : trimStart ([] ++ after) = [] := List.dropWhile_eq_nil_iff.2 hafter
    rw [hnone]
    rfl
  · rw [hcore.trimStart_append hne, trimEnd_append_blanks core hafter, hcore.trimEnd_eq]

theorem isTrimmed_trim (text : List Char) : IsTrimmed (trim text) where
  head_not_blank := by
    intro c hc
    have hkept : c ∈ (trimStart text).head? := by
      obtain ⟨rest, hrest⟩ := List.rdropWhile_prefix isBlank (trimStart text)
      rw [← hrest]
      exact List.mem_head?_append_of_mem_head? hc
    have hhead := List.head?_dropWhile_not isBlank text
    rw [trimStart] at hkept
    rwa [Option.mem_def.1 hkept] at hhead
  last_not_blank := by
    intro c hc
    obtain ⟨hne, rfl⟩ := List.mem_getLast?_eq_getLast hc
    exact eq_false_of_ne_true (List.rdropWhile_last_not isBlank (trimStart text) hne)

theorem trim_eq_self_iff : trim text = text ↔ IsTrimmed text := by
  constructor
  · intro h
    exact h ▸ isTrimmed_trim text
  · intro h
    have hnone : Blanks [] := List.forall_mem_nil _
    have htrim := trim_append hnone h hnone
    rwa [List.nil_append, List.append_nil] at htrim

instance (text : List Char) : Decidable (IsTrimmed text) :=
  decidable_of_iff (trim text = text) trim_eq_self_iff

theorem isTrimmed_of_forall (h : ∀ c ∈ text, isBlank c = false) : IsTrimmed text where
  head_not_blank c hc := h c (List.mem_of_mem_head? hc)
  last_not_blank c hc := h c (List.mem_of_mem_getLast? hc)

/-- What is trimmed away are blanks. -/
theorem exists_eq_append_trim (text : List Char) :
    ∃ before after, text = before ++ trim text ++ after ∧ Blanks before ∧ Blanks after := by
  refine ⟨text.takeWhile isBlank, (trimStart text).rtakeWhile isBlank, ?_, ?_, ?_⟩
  · have hend : trim text ++ (trimStart text).rtakeWhile isBlank = trimStart text :=
      List.rdropWhile_append_rtakeWhile
    rw [List.append_assoc, hend]
    exact List.takeWhile_append_dropWhile.symm
  · exact fun c hc => List.mem_takeWhile_imp hc
  · exact fun c hc => List.mem_rtakeWhile_imp hc

section

variable {R : Char → Char → Prop} {other : List Char}

theorem forall₂_trimStart (hR : ∀ {c d}, R c d → isBlank c = isBlank d)
    (h : List.Forall₂ R text other) : List.Forall₂ R (trimStart text) (trimStart other) := by
  induction h with
  | nil => exact .nil
  | @cons c d cs ds hcd htail ih =>
    rw [trimStart, trimStart, List.dropWhile_cons, List.dropWhile_cons, hR hcd]
    split_ifs
    · exact ih
    · exact .cons hcd htail

/-- Texts whose characters correspond are trimmed alike if blanks correspond to blanks. -/
theorem forall₂_trim (hR : ∀ {c d}, R c d → isBlank c = isBlank d)
    (h : List.Forall₂ R text other) : List.Forall₂ R (trim text) (trim other) := by
  have hstart := List.forall₂_reverse_iff.2 (forall₂_trimStart hR h)
  exact List.forall₂_reverse_iff.2 (forall₂_trimStart hR hstart)

end

end ProofOfWork.Text

import Mathlib.Algebra.Ring.Nat
import Mathlib.Data.List.Basic

/-!
Lists that are shuffled together. A shuffle holds every element of its parts once and keeps the
order of each part.
-/
namespace ProofOfWork

/-- The elements with a label, in their order. -/
def labelled (n : Nat) (xs : List (Nat × α)) : List α :=
  xs.filterMap fun (m, x) => if m = n then some x else none

@[simp] theorem labelled_nil (n : Nat) : labelled n ([] : List (Nat × α)) = [] := rfl

@[simp] theorem labelled_append (n : Nat) (xs ys : List (Nat × α)) :
    labelled n (xs ++ ys) = labelled n xs ++ labelled n ys :=
  List.filterMap_append

theorem mem_of_mem_labelled {n : Nat} {x : α} {xs : List (Nat × α)} (h : x ∈ labelled n xs) :
    (n, x) ∈ xs := by
  obtain ⟨⟨m, y⟩, hmem, hy⟩ := List.mem_filterMap.1 h
  by_cases hmn : m = n
  · subst hmn
    obtain rfl : y = x := by simpa using hy
    exact hmem
  · simp [hmn] at hy

/-- What a run of equal labels adds to each label. -/
theorem labelled_map_mk (n m : Nat) (xs : List α) :
    labelled n (xs.map (m, ·)) = if m = n then xs else [] := by
  rw [labelled, List.filterMap_map]
  split
  · rename_i h
    have hsome : ((fun (m, x) => if m = n then some x else none) ∘ fun x : α => (m, x)) = some := by
      funext x
      simp [h]
    rw [hsome, List.filterMap_some]
  · rename_i h
    simp [h]

theorem labelled_isPrefix {xs ys : List (Nat × α)} (h : xs <+: ys) (n : Nat) :
    labelled n xs <+: labelled n ys := by
  obtain ⟨zs, rfl⟩ := h
  rw [labelled_append]
  exact List.prefix_append _ _

theorem labelled_eq_map_filter (n : Nat) (xs : List (Nat × α)) :
    labelled n xs = (xs.filter fun x => x.1 = n).map Prod.snd := by
  induction xs with
  | nil => rfl
  | cons x xs ih =>
    by_cases h : x.1 = n
    · rw [List.filter_cons_of_pos (by simpa using h), List.map_cons, ← ih]
      simp [labelled, h]
    · rw [List.filter_cons_of_neg (by simpa using h), ← ih]
      simp [labelled, h]

private theorem perm_labelled (xs : List (Nat × α)) (count : Nat) :
    ((xs.filter fun x => x.1 < count).map Prod.snd).Perm
      ((List.range count).map fun n => labelled n xs).flatten := by
  induction count with
  | zero => simp
  | succ count ih =>
    have hsplit := (List.filter_append_perm (fun x : Nat × α => decide (x.1 < count))
      (xs.filter fun x => x.1 < count + 1)).symm
    have hlow : (xs.filter fun x => x.1 < count + 1).filter (fun x => decide (x.1 < count)) =
        xs.filter fun x => x.1 < count := by
      rw [List.filter_filter]
      apply List.filter_congr
      intro x _
      rw [← Bool.decide_and, decide_eq_decide]
      omega
    have hlast : (xs.filter fun x => x.1 < count + 1).filter (fun x => !decide (x.1 < count)) =
        xs.filter fun x => x.1 = count := by
      rw [List.filter_filter]
      apply List.filter_congr
      intro x _
      rw [← decide_not, ← Bool.decide_and, decide_eq_decide]
      omega
    rw [hlow, hlast] at hsplit
    rw [List.range_succ, List.map_append, List.flatten_append, List.map_singleton,
      List.flatten_singleton, labelled_eq_map_filter]
    refine (hsplit.map Prod.snd).trans ?_
    rw [List.map_append]
    exact ih.append_right _

/-- The elements of `whole` can be given the numbers of their parts so that the elements with the
number of a part are that part. -/
def Shuffle (parts : List (List α)) (whole : List α) : Prop :=
  ∃ labels : List (Nat × α), labels.map Prod.snd = whole ∧
    ∀ n, labelled n labels = parts[n]?.getD []

namespace Shuffle

variable {parts : List (List α)} {whole : List α}

/-- Labels below a bound are those of a shuffle. -/
theorem of_labels {labels : List (Nat × α)} {count : Nat} (h : ∀ x ∈ labels, x.1 < count) :
    Shuffle ((List.range count).map fun n => labelled n labels) (labels.map Prod.snd) := by
  refine ⟨labels, rfl, fun n => ?_⟩
  by_cases hn : n < count
  · simp [hn]
  · have hnone : labelled n labels = [] := by
      apply List.eq_nil_iff_forall_not_mem.2
      intro x hx
      exact hn (h _ (mem_of_mem_labelled hx))
    simp [hn, hnone]

theorem perm (h : Shuffle parts whole) : whole.Perm parts.flatten := by
  obtain ⟨labels, rfl, hparts⟩ := h
  have hbound : labels.filter (fun x => x.1 < parts.length) = labels := by
    apply List.filter_eq_self.2
    intro x hx
    have hmem : x.2 ∈ labelled x.1 labels :=
      List.mem_filterMap.2 ⟨x, hx, by simp⟩
    rw [hparts] at hmem
    by_cases hlt : x.1 < parts.length
    · simpa using hlt
    · simp [List.getElem?_eq_none (Nat.le_of_not_lt hlt)] at hmem
  have hflat : (List.range parts.length).map (fun n => labelled n labels) = parts := by
    refine List.ext_getElem (by simp) fun n h₁ h₂ => ?_
    simp [hparts, h₂]
  have hperm := perm_labelled labels parts.length
  rwa [hbound, hflat] at hperm

theorem length_eq (h : Shuffle parts whole) : whole.length = (parts.map List.length).sum := by
  rw [h.perm.length_eq, List.length_flatten]

theorem countP_eq (h : Shuffle parts whole) (p : α → Bool) :
    whole.countP p = (parts.map (List.countP p)).sum := by
  rw [h.perm.countP_eq, List.countP_flatten]

theorem mem_iff (h : Shuffle parts whole) {x : α} :
    x ∈ whole ↔ ∃ part ∈ parts, x ∈ part := by
  rw [h.perm.mem_iff, List.mem_flatten]

/-- There is nothing to shuffle with one part. -/
theorem eq_of_singleton {part : List α} (h : Shuffle [part] whole) : whole = part := by
  have hlength : part.length = whole.length := by simp [h.length_eq]
  obtain ⟨labels, rfl, hparts⟩ := h
  have hpart : labelled 0 labels = part := hparts 0
  have hsub : part.Sublist (labels.map Prod.snd) := by
    rw [← hpart, labelled_eq_map_filter]
    exact List.filter_sublist.map Prod.snd
  exact (hsub.eq_of_length hlength).symm

/-- Elements that are changed or dropped are so in their parts. -/
theorem filterMap (h : Shuffle parts whole) (f : α → Option β) :
    Shuffle (parts.map (List.filterMap f)) (whole.filterMap f) := by
  obtain ⟨labels, rfl, hparts⟩ := h
  refine ⟨labels.filterMap fun (m, x) => (f x).map (m, ·), ?_, ?_⟩
  · rw [List.map_filterMap, List.filterMap_map]
    apply List.filterMap_congr
    intro x _
    cases hx : f x.2 <;> simp [hx]
  · intro n
    have hlabel : labelled n (labels.filterMap fun (m, x) => (f x).map (m, ·)) =
        (labelled n labels).filterMap f := by
      rw [labelled, labelled, List.filterMap_filterMap, List.filterMap_filterMap]
      apply List.filterMap_congr
      intro x _
      by_cases hx : x.1 = n
      · cases hf : f x.2 <;> simp [hx, hf]
      · cases hf : f x.2 <;> simp [hx, hf]
    rw [hlabel, hparts, List.getElem?_map]
    cases parts[n]? <;> rfl

end Shuffle

end ProofOfWork

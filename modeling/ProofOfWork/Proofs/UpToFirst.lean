/-! Lists that are cut behind their first element with a property. -/
namespace ProofOfWork

/-- The elements up to and including the first one with a property. -/
def upToFirst (p : α → Bool) : List α → List α
  | [] => []
  | x :: xs => if p x then [x] else x :: upToFirst p xs

theorem upToFirst_isPrefix (p : α → Bool) (xs : List α) : upToFirst p xs <+: xs := by
  induction xs with
  | nil => exact List.prefix_refl _
  | cons x xs ih =>
    rw [upToFirst]
    split
    · exact ⟨xs, rfl⟩
    · exact (List.cons_prefix_cons).2 ⟨rfl, ih⟩

theorem upToFirst_eq_self {p : α → Bool} {xs : List α} (h : ∀ x ∈ xs, p x = false) :
    upToFirst p xs = xs := by
  induction xs with
  | nil => rfl
  | cons x xs ih =>
    rw [upToFirst, h x List.mem_cons_self, ih fun y hy => h y (List.mem_cons_of_mem _ hy)]
    rfl

theorem exists_mem_upToFirst {p : α → Bool} {xs : List α} (h : ∃ x ∈ xs, p x = true) :
    ∃ x ∈ upToFirst p xs, p x = true := by
  induction xs with
  | nil =>
    obtain ⟨x, hx, -⟩ := h
    cases hx
  | cons y ys ih =>
    rw [upToFirst]
    split
    · rename_i hy
      exact ⟨y, List.mem_singleton_self y, hy⟩
    · rename_i hy
      obtain ⟨x, hx, hpx⟩ := h
      rcases List.mem_cons.1 hx with rfl | hx
      · exact absurd hpx hy
      · obtain ⟨z, hz, hpz⟩ := ih ⟨x, hx, hpx⟩
        exact ⟨z, List.mem_cons_of_mem _ hz, hpz⟩

theorem upToFirst_cases (p : α → Bool) (xs : List α) :
    (∃ front x later, xs = front ++ x :: later ∧ (∀ y ∈ front, p y = false) ∧ p x = true ∧
      upToFirst p xs = front ++ [x]) ∨
    ((∀ x ∈ xs, p x = false) ∧ upToFirst p xs = xs) := by
  induction xs with
  | nil => exact .inr ⟨List.forall_mem_nil _, rfl⟩
  | cons x xs ih =>
    cases hx : p x with
    | true => exact .inl ⟨[], x, xs, rfl, List.forall_mem_nil _, hx, by rw [upToFirst, if_pos hx]; rfl⟩
    | false =>
      have hcons : upToFirst p (x :: xs) = x :: upToFirst p xs := by simp [upToFirst, hx]
      rcases ih with ⟨front, y, later, hxs, hfront, hy, hcut⟩ | ⟨hnone, hcut⟩
      · refine .inl ⟨x :: front, y, later, congrArg _ hxs, ?_, hy, ?_⟩
        · exact List.forall_mem_cons.2 ⟨hx, hfront⟩
        · rw [hcons, hcut]
          rfl
      · refine .inr ⟨List.forall_mem_cons.2 ⟨hx, hnone⟩, ?_⟩
        rw [hcons, hcut]

/-- The elements up to the first one with a property come before those up to the first one with a
property that implies it. -/
theorem upToFirst_isPrefix_of_imp {p q : α → Bool} {xs : List α}
    (h : ∀ x ∈ xs, q x = true → p x = true) : upToFirst p xs <+: upToFirst q xs := by
  induction xs with
  | nil => exact List.prefix_refl _
  | cons x xs ih =>
    have hlater := ih fun y hy => h y (List.mem_cons_of_mem _ hy)
    have hx := h x List.mem_cons_self
    rw [upToFirst, upToFirst]
    cases hq : q x with
    | true =>
      rw [hx hq]
      exact List.prefix_refl _
    | false =>
      cases p x with
      | true => exact ⟨upToFirst q xs, rfl⟩
      | false => exact List.cons_prefix_cons.2 ⟨rfl, hlater⟩

theorem upToFirst_map (p : β → Bool) (f : α → β) (xs : List α) :
    upToFirst p (xs.map f) = (upToFirst (p ∘ f) xs).map f := by
  induction xs with
  | nil => rfl
  | cons x xs ih =>
    rw [List.map_cons, upToFirst, upToFirst, ih]
    cases hx : p (f x) <;> simp [hx]

end ProofOfWork

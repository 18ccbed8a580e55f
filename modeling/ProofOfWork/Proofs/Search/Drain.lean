import Mathlib.Data.List.Induction
import ProofOfWork.Proofs.Search.Items
import ProofOfWork.Proofs.Search.Sink

/-!
What a delivery hands to its sink, read off the items of its feed: the attempts up to the first one
that is refused, or up to the first error.
-/
namespace ProofOfWork

/-- The totals, unless something failed. -/
def Failure.orTally (failure : Option (Failure ε)) (tally : Tally) : Except (Failure ε) Tally :=
  failure.elim (.ok tally) .error

theorem Failure.orTally_eq_error_iff {failure : Option (Failure ε)} {tally : Tally}
    {cause : Failure ε} : Failure.orTally failure tally = .error cause ↔ failure = some cause := by
  cases failure with
  | none => simp [orTally]
  | some failure => simp [orTally]

namespace Sink

/-- The attempts among some items that the sink is given, and what cuts them short. -/
def drained (sink : Sink τ ε) : List Item → τ → List Attempt × Option (Failure ε)
  | [], _ => ([], none)
  | .error cause :: _, _ => ([], some (.search cause))
  | .ok a :: later, t =>
    match sink a t with
    | (.error cause, _) => ([a], some (.refused cause))
    | (.ok (), t) => (a :: (sink.drained later t).1, (sink.drained later t).2)

variable {sink : Sink τ ε} {t : τ} {a : Attempt}

theorem drained_of_refused {cause : ε} (h : (sink a t).1 = .error cause) (later : List Item) :
    sink.drained (.ok a :: later) t = ([a], some (.refused cause)) := by
  have hpair : sink a t = (.error cause, (sink a t).2) := Prod.ext h rfl
  rw [drained, hpair]

theorem drained_of_accepted (h : (sink a t).1 = .ok ()) (later : List Item) :
    sink.drained (.ok a :: later) t =
      (a :: (sink.drained later (sink a t).2).1, (sink.drained later (sink a t).2).2) := by
  have hpair : sink a t = (.ok (), (sink a t).2) := Prod.ext h rfl
  rw [drained, hpair]

/-- Attempts that are accepted are passed over. -/
theorem drained_append {seen : List Attempt} (h : sink.Accepts seen t) (later : List Item) :
    sink.drained (seen.map .ok ++ later) t =
      (seen ++ (sink.drained later (sink.after seen t)).1,
        (sink.drained later (sink.after seen t)).2) := by
  induction seen generalizing t with
  | nil => rfl
  | cons a seen ih =>
    have hfirst : (sink a t).1 = .ok () := h _ List.mem_cons_self
    have hlater : sink.Accepts seen (sink a t).2 :=
      fun answer hanswer => h answer (List.mem_cons_of_mem _ hanswer)
    rw [List.map_cons, List.cons_append, drained_of_accepted hfirst, ih hlater]
    rfl

theorem drained_map_ok {seen : List Attempt} (h : sink.Accepts seen t) :
    sink.drained (seen.map .ok) t = (seen, none) := by
  have hdrained := drained_append h []
  rwa [List.append_nil, drained, List.append_nil] at hdrained

theorem drained_append_refused {seen : List Attempt} {cause : ε} (h : sink.Accepts seen t)
    (ha : (sink a (sink.after seen t)).1 = .error cause) (later : List Item) :
    sink.drained (seen.map .ok ++ .ok a :: later) t = (seen ++ [a], some (.refused cause)) := by
  rw [drained_append h, drained_of_refused ha]

theorem drained_append_error {seen : List Attempt} (h : sink.Accepts seen t) (cause : SearchError)
    (later : List Item) :
    sink.drained (seen.map .ok ++ .error cause :: later) t = (seen, some (.search cause)) := by
  rw [drained_append h, drained, List.append_nil]

/-- A breakdown is an error like others, and nothing behind it is delivered. -/
theorem drained_upToFirst (sink : Sink τ ε) (items : List Item) (t : τ) :
    sink.drained (upToFirst Item.breaksDown items) t = sink.drained items t := by
  induction items generalizing t with
  | nil => rfl
  | cons item later ih =>
    cases item with
    | error cause =>
      rw [upToFirst]
      split <;> rfl
    | ok a =>
      have hcut : upToFirst Item.breaksDown (.ok a :: later) =
          .ok a :: upToFirst Item.breaksDown later := rfl
      cases ha : (sink a t).1 with
      | error cause => rw [hcut, drained_of_refused ha, drained_of_refused ha]
      | ok u => rw [hcut, drained_of_accepted ha, drained_of_accepted ha, ih]

theorem of_mem_drained {items : List Item} (h : a ∈ (sink.drained items t).1) : .ok a ∈ items := by
  induction items generalizing t with
  | nil => cases h
  | cons item later ih =>
    cases item with
    | error cause => cases h
    | ok b =>
      cases hb : (sink b t).1 with
      | error cause =>
        rw [drained_of_refused hb] at h
        obtain rfl := List.mem_singleton.1 h
        exact List.mem_cons_self
      | ok u =>
        rw [drained_of_accepted hb] at h
        rcases List.mem_cons.1 h with rfl | h
        · exact List.mem_cons_self
        · exact List.mem_cons_of_mem _ (ih h)

theorem error_mem_of_drained {items : List Item} {cause : SearchError}
    (h : (sink.drained items t).2 = some (.search cause)) : .error cause ∈ items := by
  induction items generalizing t with
  | nil => cases h
  | cons item later ih =>
    cases item with
    | error first =>
      cases h
      exact List.mem_cons_self
    | ok a =>
      cases ha : (sink a t).1 with
      | error cause =>
        rw [drained_of_refused ha] at h
        cases h
      | ok u =>
        rw [drained_of_accepted ha] at h
        exact List.mem_cons_of_mem _ (ih h)

/-- Unless something cuts it short, all items are attempts and are given to the sink. -/
theorem items_eq_of_drained {items : List Item} (h : (sink.drained items t).2 = none) :
    items = (sink.drained items t).1.map .ok := by
  induction items generalizing t with
  | nil => rfl
  | cons item later ih =>
    cases item with
    | error cause => cases h
    | ok a =>
      cases ha : (sink a t).1 with
      | error cause =>
        rw [drained_of_refused ha] at h
        cases h
      | ok u =>
        rw [drained_of_accepted ha] at h ⊢
        exact congrArg (Except.ok a :: ·) (ih h)

theorem after_noting (seen before : List Attempt) :
    sink.noting.after seen (before, t) = (before ++ seen, sink.after seen t) := by
  induction seen generalizing before t with
  | nil => rw [List.append_nil]; rfl
  | cons a seen ih =>
    have hlater := @ih (sink a t).2 (before ++ [a])
    rw [List.append_assoc] at hlater
    exact hlater

/-- Notes change nothing about what is delivered. -/
theorem drained_noting (items : List Item) (before : List Attempt) :
    sink.noting.drained items (before, t) = sink.drained items t := by
  induction items generalizing before t with
  | nil => rfl
  | cons item later ih =>
    cases item with
    | error cause => rfl
    | ok a =>
      cases ha : (sink a t).1 with
      | error cause =>
        have hnoting : (sink.noting a (before, t)).1 = .error cause := ha
        rw [drained_of_refused ha, drained_of_refused hnoting]
      | ok u =>
        have hnoting : (sink.noting a (before, t)).1 = .ok () := ha
        rw [drained_of_accepted ha, drained_of_accepted hnoting, noting_apply, ih]

end Sink

theorem Tally.of_eq_foldl (seen : List Attempt) : Tally.of seen = seen.foldl Tally.add .zero := by
  induction seen using List.reverseRecOn with
  | nil => rfl
  | append_singleton seen a ih => rw [of_concat, ih, List.foldl_append, List.foldl_cons, List.foldl_nil]

namespace Feed

theorem deliverFrom_eq (f : Feed ι) (sink : Sink τ ε) (tally : Tally) (i : ι) (t : τ) :
    (f.deliverFrom sink tally i t).result =
        Failure.orTally (sink.drained (f.items i) t).2
          ((sink.drained (f.items i) t).1.foldl Tally.add tally) ∧
      (f.deliverFrom sink tally i t).sink = sink.after (sink.drained (f.items i) t).1 t := by
  fun_induction deliverFrom f sink tally i t with
  | case1 tally i t hnext =>
    rw [items_of_next_eq_none hnext]
    exact ⟨rfl, rfl⟩
  | case2 tally i t cause j hnext =>
    rw [items_of_next_eq_some hnext]
    exact ⟨rfl, rfl⟩
  | case3 tally i t a j hnext cause u hsink =>
    have hrefused : (sink a t).1 = .error cause := by rw [hsink]
    rw [items_of_next_eq_some hnext, Sink.drained_of_refused hrefused]
    refine ⟨rfl, ?_⟩
    simp [Sink.after, hsink]
  | case4 tally i t a j hnext u hsink _ ih =>
    have haccepted : (sink a t).1 = .ok () := by rw [hsink]
    have hafter : (sink a t).2 = u := by rw [hsink]
    rw [items_of_next_eq_some hnext, Sink.drained_of_accepted haccepted, hafter]
    refine ⟨ih.1, ?_⟩
    rw [ih.2, Sink.after, Sink.after, List.foldl_cons, hafter]

/-- A delivery depends on the items of its feed alone. -/
theorem deliver_eq (f : Feed ι) (sink : Sink τ ε) (i : ι) (t : τ) :
    (f.deliver sink i t).result =
        Failure.orTally (sink.drained (f.items i) t).2 (.of (sink.drained (f.items i) t).1) ∧
      (f.deliver sink i t).sink = sink.after (sink.drained (f.items i) t).1 t := by
  rw [Tally.of_eq_foldl]
  exact f.deliverFrom_eq sink .zero i t

/-- A delivery is a run over its feed. -/
theorem deliver_yields (f : Feed ι) (sink : Sink τ ε) (i : ι) (t : τ) :
    (f.deliver sink i t).result =
        Failure.orTally (sink.drained (f.yields i) t).2 (.of (sink.drained (f.yields i) t).1) ∧
      (f.deliver sink i t).sink = sink.after (sink.drained (f.yields i) t).1 t := by
  rw [yields, Sink.drained_upToFirst]
  exact f.deliver_eq sink i t

end Feed

end ProofOfWork

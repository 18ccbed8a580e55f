import ProofOfWork.Proofs.Search.Drain

/-!
Deliveries stop at the first failure. An attempt that the sink refuses and an error of the feed both
end a delivery at once: nothing more is pulled, and without them everything is delivered and counted.
-/
namespace ProofOfWork

namespace Sink

variable {sink : Sink τ ε} {seen before : List Attempt} {a : Attempt} {t : τ}

theorem accepts_cons :
    sink.Accepts (a :: seen) t ↔ (sink a t).1 = .ok () ∧ sink.Accepts seen (sink a t).2 :=
  List.forall_mem_cons

/-- Among some items there is an attempt that is refused before any error, or an error before any
attempt that is refused, or neither. -/
theorem first_failure (sink : Sink τ ε) (items : List Item) (t : τ) :
    (∃ seen a cause later, items = seen.map .ok ++ .ok a :: later ∧ sink.Accepts seen t ∧
      (sink a (sink.after seen t)).1 = .error cause) ∨
    (∃ seen cause later, items = seen.map .ok ++ .error cause :: later ∧ sink.Accepts seen t) ∨
    ∃ seen, items = seen.map .ok ∧ sink.Accepts seen t := by
  induction items generalizing t with
  | nil => exact .inr (.inr ⟨[], rfl, sink.accepts_nil t⟩)
  | cons item items ih =>
    cases item with
    | error cause => exact .inr (.inl ⟨[], cause, items, rfl, sink.accepts_nil t⟩)
    | ok a =>
      cases ha : (sink a t).1 with
      | error cause => exact .inl ⟨[], a, cause, items, rfl, sink.accepts_nil t, ha⟩
      | ok u =>
        rcases ih (sink a t).2 with ⟨seen, b, cause, later, hitems, hseen, hb⟩ |
          ⟨seen, cause, later, hitems, hseen⟩ | ⟨seen, hitems, hseen⟩
        · exact .inl ⟨a :: seen, b, cause, later, congrArg _ hitems, accepts_cons.2 ⟨ha, hseen⟩, hb⟩
        · exact .inr (.inl ⟨a :: seen, cause, later, congrArg _ hitems, accepts_cons.2 ⟨ha, hseen⟩⟩)
        · exact .inr (.inr ⟨a :: seen, congrArg _ hitems, accepts_cons.2 ⟨ha, hseen⟩⟩)

end Sink

namespace Failure

/-- The items that are pulled for some attempts to be delivered; an error is pulled on top. -/
def pulls : Option (Failure ε) → (delivered : Nat) → Nat
  | some (.search _), delivered => delivered + 1
  | some (.refused _), delivered | none, delivered => delivered

theorem pulls_succ (failure : Option (Failure ε)) (delivered : Nat) :
    pulls failure (delivered + 1) = pulls failure delivered + 1 := by
  rcases failure with - | - | -
  all_goals rfl

end Failure

theorem Tally.of_eq_of_items {seen : List Attempt} {items : List Item} (h : items = seen.map .ok) :
    (of seen).attempts = items.length ∧ (of seen).passed = items.countP Item.passes := by
  subst h
  constructor
  · exact (List.length_map _).symm
  · rw [List.countP_map]
    rfl

namespace Feed

/-- The feed once so many items have been pulled. -/
def skip (f : Feed ι) : (count : Nat) → ι → ι
  | 0, i => i
  | count + 1, i => (f.next i).elim i fun found => f.skip count found.2

variable {f : Feed ι} {sink : Sink τ ε} {i : ι} {t : τ}

theorem skip_succ {item : Item} {j : ι} (h : f.next i = some (item, j)) (count : Nat) :
    f.skip (count + 1) i = f.skip count j := by
  rw [skip, h]
  rfl

/-- The items that have been pulled are gone, and no others. -/
theorem items_skip (f : Feed ι) (count : Nat) (i : ι) :
    f.items (f.skip count i) = (f.items i).drop count := by
  induction count generalizing i with
  | zero => rfl
  | succ count ih =>
    cases hnext : f.next i with
    | none =>
      have hskip : f.skip (count + 1) i = i := by rw [skip, hnext]; rfl
      rw [hskip, items_of_next_eq_none hnext, List.drop_nil]
    | some found =>
      rw [skip_succ hnext, ih, items_of_next_eq_some hnext, List.drop_succ_cons]

theorem items_skip_attempts {seen : List Attempt} {later : List Item}
    (h : f.items i = seen.map .ok ++ later) (more : Nat) :
    f.items (f.skip (seen.length + more) i) = later.drop more := by
  have hcount : seen.length = (seen.map (.ok : Attempt → Item)).length := (List.length_map _).symm
  rw [items_skip, h, hcount, List.drop_length_add_append]

theorem rest_deliverFrom (f : Feed ι) (sink : Sink τ ε) (tally : Tally) (i : ι) (t : τ) :
    (f.deliverFrom sink tally i t).rest =
      f.skip (Failure.pulls (sink.drained (f.items i) t).2
        (sink.drained (f.items i) t).1.length) i := by
  fun_induction deliverFrom f sink tally i t with
  | case1 tally i t hnext =>
    rw [items_of_next_eq_none hnext]
    rfl
  | case2 tally i t cause j hnext =>
    rw [items_of_next_eq_some hnext]
    exact (skip_succ hnext 0).symm
  | case3 tally i t a j hnext cause u hsink =>
    have hrefused : (sink a t).1 = .error cause := by rw [hsink]
    rw [items_of_next_eq_some hnext, Sink.drained_of_refused hrefused]
    exact (skip_succ hnext 0).symm
  | case4 tally i t a j hnext u hsink _ ih =>
    have haccepted : (sink a t).1 = .ok () := by rw [hsink]
    have hafter : (sink a t).2 = u := by rw [hsink]
    rw [items_of_next_eq_some hnext, Sink.drained_of_accepted haccepted, hafter, ih,
      List.length_cons, Failure.pulls_succ, skip_succ hnext]

/-- All of a delivery: its result, the sink as it was left, and the feed from where it was left. -/
theorem deliver_eq_of_drained {seen : List Attempt} {failure : Option (Failure ε)}
    (h : sink.drained (f.items i) t = (seen, failure)) :
    f.deliver sink i t = ⟨Failure.orTally failure (.of seen), sink.after seen t,
      f.skip (Failure.pulls failure seen.length) i⟩ := by
  obtain ⟨hresult, hsink⟩ := f.deliver_eq sink i t
  have hrest := f.rest_deliverFrom sink .zero i t
  rw [h] at hresult hsink hrest
  cases hdelivery : f.deliver sink i t with
  | mk result left rest =>
    rw [hdelivery] at hresult hsink
    rw [← deliver, hdelivery] at hrest
    obtain rfl := hresult
    obtain rfl := hsink
    obtain rfl := hrest
    rfl

/-- The same with notes of what the sink was given. -/
theorem deliver_noting_eq_of_drained {seen : List Attempt} {failure : Option (Failure ε)}
    (h : sink.drained (f.items i) t = (seen, failure)) :
    f.deliver sink.noting i ([], t) = ⟨Failure.orTally failure (.of seen),
      (seen, sink.after seen t), f.skip (Failure.pulls failure seen.length) i⟩ := by
  rw [← Sink.drained_noting (f.items i) []] at h
  rw [deliver_eq_of_drained h, Sink.after_noting, List.nil_append]

/-- A delivery that nothing has ended early counts all items. -/
theorem tally_of_deliver_eq_ok {tally : Tally} (h : (f.deliver sink i t).result = .ok tally) :
    tally.attempts = (f.items i).length ∧ tally.passed = (f.items i).countP Item.passes := by
  rw [(f.deliver_eq sink i t).1] at h
  cases hfailure : (sink.drained (f.items i) t).2 with
  | some failure =>
    rw [hfailure] at h
    cases h
  | none =>
    rw [hfailure] at h
    obtain rfl := Except.ok.inj h
    exact Tally.of_eq_of_items (Sink.items_eq_of_drained hfailure)

/-- Notes are beside the delivery and change nothing about it. -/
theorem deliver_eq_deliver_noting (f : Feed ι) (sink : Sink τ ε) (i : ι) (t : τ) :
    f.deliver sink i t = ⟨(f.deliver sink.noting i ([], t)).result,
      (f.deliver sink.noting i ([], t)).sink.2, (f.deliver sink.noting i ([], t)).rest⟩ := by
  cases hdrained : sink.drained (f.items i) t with
  | mk seen failure => rw [deliver_eq_of_drained hdrained, deliver_noting_eq_of_drained hdrained]

/-- A delivery goes on until an attempt is refused, until the feed yields an error, or until nothing
is left, whichever comes first. The sink is given the attempts up to there in their order and once
each, one that it refuses included; an error of the feed is pulled and not given to the sink, and
nothing behind it or behind a refused attempt is pulled. The result is the failure, or the totals of
all items if there is none. -/
theorem delivery_stops_at_first_failure (f : Feed ι) (sink : Sink τ ε) (i : ι) (t : τ) :
    let d := f.deliver sink.noting i ([], t)
    f.deliver sink i t = ⟨d.result, d.sink.2, d.rest⟩ ∧
    ((∃ seen a cause later, f.items i = seen.map .ok ++ .ok a :: later ∧
        sink.Accepts seen t ∧ (sink a (sink.after seen t)).1 = .error cause ∧
        d = ⟨.error (.refused cause), (seen ++ [a], sink.after (seen ++ [a]) t),
          f.skip (seen.length + 1) i⟩ ∧ f.items d.rest = later) ∨
      (∃ seen cause later, f.items i = seen.map .ok ++ .error cause :: later ∧
        sink.Accepts seen t ∧
        d = ⟨.error (.search cause), (seen, sink.after seen t), f.skip (seen.length + 1) i⟩ ∧
        f.items d.rest = later) ∨
      ∃ seen tally, f.items i = seen.map .ok ∧ sink.Accepts seen t ∧
        d = ⟨.ok tally, (seen, sink.after seen t), f.skip seen.length i⟩ ∧
        f.items d.rest = [] ∧ tally.attempts = (f.items i).length ∧
        tally.passed = (f.items i).countP Item.passes ∧ tally.passed ≤ tally.attempts) := by
  intro d
  refine ⟨f.deliver_eq_deliver_noting sink i t, ?_⟩
  rcases sink.first_failure (f.items i) t with ⟨seen, a, cause, later, hitems, hseen, ha⟩ |
    ⟨seen, cause, later, hitems, hseen⟩ | ⟨seen, hitems, hseen⟩
  · have hd := deliver_noting_eq_of_drained (hitems ▸ Sink.drained_append_refused hseen ha later)
    rw [List.length_append] at hd
    have hrest : f.items d.rest = later := by
      simp only [d, hd]
      exact items_skip_attempts hitems 1
    exact .inl ⟨seen, a, cause, later, hitems, hseen, ha, hd, hrest⟩
  · have hd := deliver_noting_eq_of_drained (hitems ▸ Sink.drained_append_error hseen cause later)
    have hrest : f.items d.rest = later := by
      simp only [d, hd]
      exact items_skip_attempts hitems 1
    exact .inr (.inl ⟨seen, cause, later, hitems, hseen, hd, hrest⟩)
  · have hd := deliver_noting_eq_of_drained (hitems ▸ Sink.drained_map_ok hseen)
    have hrest : f.items d.rest = [] := by
      simp only [d, hd]
      exact items_skip_attempts (hitems.trans (List.append_nil _).symm) 0
    obtain ⟨hattempts, hpassed⟩ := Tally.of_eq_of_items hitems
    exact .inr (.inr ⟨seen, .of seen, hitems, hseen, hd, hrest, hattempts, hpassed,
      List.countP_le_length⟩)

end Feed

end ProofOfWork

import ProofOfWork.Proofs.Pool.Alone
import ProofOfWork.Proofs.Pool.Exhaustive

/-! Calls that succeed, by a pool or alone, and what they have given to their sink. -/
namespace ProofOfWork.Pool.Call

variable {c : Call τ ε} {s : State (Search ChaCha.Generator) (List Attempt × τ) ε}

/-- A call has come to its end and has given these attempts to its sink. -/
structure Delivered (c : Call τ ε) (o : Outcome τ ε) (seen : List Attempt) : Prop where
  result_eq : o.result = .ok (.of seen)
  sink_eq : o.sink = c.sink.after seen c.start
  exists_portion : ∀ a ∈ seen, ∃ i, a ∈ c.portion i
  completes : c.workers.mode.Completes c.plan.attempts seen

theorem admitted_of_search_ok {schedule : Schedule} {tally : Tally}
    (hok : (c.search schedule).result = .ok tally) : c.Admitted := by
  cases hrefusal : Search.refusal? c.puzzle c.plan with
  | none => exact admitted_of_refusal?_eq_none hrefusal
  | some cause =>
    rw [search_of_refusal? hrefusal] at hok
    cases hok

theorem admitted_of_alone_ok {tally : Tally} (hok : c.alone.result = .ok tally) :
    c.Admitted := by
  cases hrefusal : Search.refusal? c.puzzle c.plan with
  | none => exact admitted_of_refusal?_eq_none hrefusal
  | some cause =>
    rw [alone_of_refusal? hrefusal] at hok
    cases hok

namespace Admitted

variable (h : c.Admitted)

include h

/-- Workers that have not crashed and that nothing cuts short make their whole shares. -/
theorem completes_of_ends (hs : c.Ends s) (hcrash : ∀ w ∈ s.workers, w.hasCrashed = false)
    (hfailure : s.failure = none) : c.workers.mode.Completes c.plan.attempts s.received := by
  have hgrants := h.grants_of_failure_eq_none hs hfailure
  rcases h.cases_of_ends hs hgrants with
    ⟨hcut, -⟩ | ⟨seen, a, cause, hf, -⟩ | ⟨seen, a, -, hr, -, hg, he⟩
  · have hgoes : c.workers.mode.GoesOn s.received :=
      Classical.byContradiction fun hended => hcut (.inr hended)
    have hshuffle := h.shuffle hs hcut hcrash
    refine .all hgoes (length_of_shuffle hshuffle fun i hi => ?_)
    have hok : ∀ item ∈ (c.task i).items, ∃ a, item = .ok a := by
      intro item hitem
      rcases h.breaksDown_or_ok ((h.items_isPrefix i).subset hitem) with hb | hok
      · obtain ⟨w, hw, hc⟩ := h.hasCrashed_of_breaksDown hs hcut hi hitem hb
        rw [hcrash w hw] at hc
        cases hc
      · exact hok
    have hitems := (map_ok_attemptsOf hok).trans (items_task i)
    cases Search.completes_of_itemsFrom (s := c.task i) hitems.symm with
    | all _ hlength => exact hlength
    | ended front a hfront _ hends =>
      -- what ends the worker would have ended the manager
      have ha : a ∈ s.received := by
        refine hshuffle.mem_iff.2 ⟨_, List.mem_map_of_mem (List.mem_range.2 hi), ?_⟩
        rw [hfront]
        exact List.mem_append_right front (List.mem_singleton_self a)
      exact absurd (hends.symm.trans (hgoes a ha)) Bool.false_ne_true.symm
  · rw [hfailure] at hf
    cases hf
  · exact .ended seen a hr hg he

theorem delivered_search {schedule : Schedule} {tally : Tally}
    (hok : (c.search schedule).result = .ok tally) :
    c.Delivered (c.search schedule) (c.last schedule).received := by
  have hs := c.ends_last schedule
  rw [h.search_eq] at hok ⊢
  obtain ⟨hcrash, hfailure, -⟩ := State.of_outcome_ok hok
  constructor
  case result_eq => rw [State.outcome_of_no_failure hcrash hfailure, h.tally_eq hs.reaches]
  case sink_eq => exact (h.reaches hs.reaches).account.sink_eq
  case exists_portion =>
    intro a ha
    obtain ⟨i, -, hportion⟩ := h.mem_portion hs.reaches ha
    exact ⟨i, hportion⟩
  case completes => exact h.completes_of_ends hs hcrash hfailure

theorem delivered_alone (hcount : c.count = 1) {tally : Tally} (hok : c.alone.result = .ok tally) :
    c.Delivered c.alone c.delivered.1 := by
  obtain ⟨hresult, hsink⟩ := h.alone_eq hcount
  have hfailure : c.delivered.2 = none := by
    rw [hresult] at hok
    cases hf : c.delivered.2 with
    | none => rfl
    | some cause =>
      rw [hf] at hok
      cases hok
  have hitems : (c.task 0).items = c.delivered.1.map .ok :=
    Sink.items_eq_of_drained hfailure
  have hportion : c.delivered.1 <+: c.portion 0 := by
    have hprefix := (h.items_isPrefix 0).filterMap Except.toOption
    rw [hitems, ← attemptsOf, attemptsOf_map_ok] at hprefix
    exact hprefix
  constructor
  case result_eq => rw [hresult, hfailure]; rfl
  case sink_eq => exact hsink
  case exists_portion => exact fun a ha => ⟨0, hportion.subset ha⟩
  case completes =>
    have hfrom := items_task (c := c) 0
    rw [hitems, hcount, share_one] at hfrom
    exact Search.completes_of_itemsFrom (s := c.task 0) hfrom.symm

/-- A pool whose workers are all launched, whose hasher never breaks down and whose sink refuses nothing
succeeds. -/
theorem exists_search_ok (hgrants : c.launcher.Grants c.count) (htotal : c.puzzle.hasher.Total)
    (hfits : c.plan.attempts = 0 ∨ c.plan.nonceLength ≤ Bytes.lengthLimit)
    (hsink : ∀ a t, (c.sink a t).1 = .ok ()) (schedule : Schedule) :
    ∃ tally, (c.search schedule).result = .ok tally := by
  have hs := c.ends_last schedule
  have hfailure := h.failure_eq_none hs hgrants hsink
  rw [h.search_eq]
  exact (State.exists_outcome_ok_iff hfailure).2 (h.not_hasCrashed_of_total hs.reaches htotal hfits)

theorem exists_alone_ok (hcount : c.count = 1) (htotal : c.puzzle.hasher.Total)
    (hfits : c.plan.attempts = 0 ∨ c.plan.nonceLength ≤ Bytes.lengthLimit)
    (hsink : ∀ a t, (c.sink a t).1 = .ok ()) : ∃ tally, c.alone.result = .ok tally := by
  have hitems : (attemptsOf (c.task 0).items).map .ok = (c.task 0).items := by
    apply map_ok_attemptsOf
    intro item hitem
    exact h.exists_ok_of_total htotal hfits ((h.items_isPrefix 0).subset hitem)
  have haccepts := Sink.accepts_of_forall hsink (attemptsOf (c.task 0).items) c.start
  rw [(h.alone_eq hcount).1, delivered, ← hitems, Sink.drained_map_ok haccepts]
  exact ⟨_, rfl⟩

end Admitted

end ProofOfWork.Pool.Call

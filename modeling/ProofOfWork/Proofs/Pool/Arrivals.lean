import ProofOfWork.Proofs.Pool.Ledger

/-!
What arrives at the sink of a pool. At any time it is a shuffle of first attempts of the workers;
a pool that was not cut short and has lost no worker has delivered all attempts.
-/
namespace ProofOfWork.Pool

namespace Worker

/-- A worker that is gone while nothing was lost has sent all, or broke down on what it owes. -/
theorem Owes.of_isGone {feed : Feed ι} {lossy : Prop} {w : Worker ι} {rest : List Item}
    (h : w.Owes feed lossy rest) (hgone : w.isGone = true) (hlossy : ¬ lossy) :
    if w.hasCrashed then ∃ item ∈ rest, Item.breaksDown item = true else rest = [] := by
  cases w with
  | finished => exact h.resolve_right hlossy
  | crashed =>
    obtain ⟨item, rfl, hb⟩ := h
    exact ⟨item, List.mem_singleton_self item, hb⟩
  | waiting | pulling | holding | sending => cases hgone

end Worker

variable {r : Rules ι τ ε} {feeds : List ι} {t : τ} {s : State ι (List Attempt × τ) ε}

/-- At any time the sink was given first attempts of each worker, in their order. -/
theorem Reaches.exists_heads (h : Reaches r.noting (.initial (feeds.map .ok) ([], t)) s) :
    ∃ head : Nat → List Attempt,
      Shuffle ((List.range feeds.length).map head) s.received ∧
      ∀ n i, feeds[n]? = some i → head n <+: attemptsOf (r.feed.yields i) := by
  obtain ⟨sent, failed, dropped, hledger⟩ := h.ledger
  have hfront : (sent.take s.received.length).map Prod.snd = s.received.map .ok := by
    rw [List.map_take, hledger.sent_eq]
    simp [List.append_assoc]
  have hbound : ∀ x ∈ sent.take s.received.length, x.1 < feeds.length :=
    fun x hx => (hledger.sound x (List.mem_of_mem_take hx)).1
  refine ⟨fun n => attemptsOf (labelled n (sent.take s.received.length)), ?_, ?_⟩
  · have hshuffle := (Shuffle.of_labels hbound).filterMap Except.toOption
    rw [hfront, List.map_map] at hshuffle
    rwa [← attemptsOf, attemptsOf_map_ok] at hshuffle
  · intro n i hi
    have hlt : n < s.workers.length :=
      hledger.length_eq ▸ (List.getElem?_eq_some_iff.1 hi).1
    obtain ⟨rest, hrest, -⟩ := hledger.owed n i _ hi (List.getElem?_eq_getElem hlt)
    have hhead : labelled n (sent.take s.received.length) <+: r.feed.yields i := by
      rw [hrest]
      exact (labelled_isPrefix (List.take_prefix _ _) n).trans (List.prefix_append _ _)
    exact hhead.filterMap _

/-- A worker crashes only on a breakdown. -/
theorem Reaches.exists_breaksDown (h : Reaches r.noting (.initial (feeds.map .ok) ([], t)) s)
    {n : Nat} {w : Worker ι} (hw : s.workers[n]? = some w) (hcrashed : w.hasCrashed = true) :
    ∃ i, feeds[n]? = some i ∧ ∃ item ∈ r.feed.yields i, Item.breaksDown item = true := by
  obtain ⟨sent, failed, dropped, hledger⟩ := h.ledger
  have hlt : n < feeds.length := hledger.length_eq ▸ (List.getElem?_eq_some_iff.1 hw).1
  obtain ⟨rest, hrest, howes⟩ := hledger.owed n _ w (List.getElem?_eq_getElem hlt) hw
  refine ⟨_, List.getElem?_eq_getElem hlt, ?_⟩
  cases w with
  | crashed =>
    obtain ⟨item, rfl, hb⟩ := howes
    exact ⟨item, by rw [hrest]; simp, hb⟩
  | waiting | pulling | holding | sending | finished => cases hcrashed

/-- No breakdown is sent, and nothing that no worker has pulled. -/
theorem State.Ledger.mem_yields {sent : List (Nat × Item)} {failed dropped : List Item}
    (h : s.Ledger r feeds sent failed dropped) {item : Item} (hitem : item ∈ failed ++ s.queue) :
    Item.breaksDown item = false ∧ ∃ i ∈ feeds, item ∈ r.feed.yields i := by
  have hsent : item ∈ sent.map Prod.snd := by
    rw [h.sent_eq, List.append_assoc _ failed]
    exact List.mem_append_left _ (List.mem_append_right _ hitem)
  obtain ⟨⟨n, item⟩, hmem, rfl⟩ := List.mem_map.1 hsent
  obtain ⟨hlt, hsound⟩ := h.sound _ hmem
  refine ⟨hsound, feeds[n], List.getElem_mem hlt, ?_⟩
  have hworker : n < s.workers.length := h.length_eq ▸ hlt
  obtain ⟨rest, hrest, -⟩ :=
    h.owed n _ _ (List.getElem?_eq_getElem hlt) (List.getElem?_eq_getElem hworker)
  rw [hrest]
  exact List.mem_append_left _ (List.mem_filterMap.2 ⟨(n, item), hmem, by simp⟩)

theorem Reaches.mem_queue (h : Reaches r.noting (.initial (feeds.map .ok) ([], t)) s)
    {item : Item} (hitem : item ∈ s.queue) :
    Item.breaksDown item = false ∧ ∃ i ∈ feeds, item ∈ r.feed.yields i := by
  obtain ⟨sent, failed, dropped, hledger⟩ := h.ledger
  exact hledger.mem_yields (List.mem_append_right failed hitem)

/-- If all workers are launched, the search fails only on an error that one of them has pulled. -/
theorem Reaches.mem_of_failure (h : Reaches r.noting (.initial (feeds.map .ok) ([], t)) s)
    (hgrants : r.launcher.Grants s.workers.length) {cause : SearchError}
    (hfailure : s.failure = some (.search cause)) :
    Item.breaksDown (.error cause) = false ∧ ∃ i ∈ feeds, .error cause ∈ r.feed.yields i := by
  obtain ⟨sent, failed, dropped, hledger⟩ := h.ledger
  refine hledger.mem_yields (List.mem_append_left _ ?_)
  rw [hledger.failed_of_grants hgrants, hfailure, failedItem]
  exact List.mem_singleton_self _

namespace Ends

variable (h : Ends r.noting (.initial (feeds.map .ok) ([], t)) s) (hcut : ¬ s.CutShort r.mode)

include h hcut

/-- What the manager was given is all that was sent. -/
theorem exists_labels : ∃ sent : List (Nat × Item), s.received.map .ok = sent.map Prod.snd ∧
    s.Ledger r feeds sent [] [] := by
  obtain ⟨sent, failed, dropped, hledger⟩ := h.reaches.ledger
  have hleft : s.manager.hasLeft = true := by rw [h.returned]; rfl
  have hqueue := (h.reaches.account.drained hleft hcut).1
  have hfailure : s.failure = none :=
    Classical.byContradiction fun hf => hcut (.inl hf)
  have hdropped : dropped = [] := by
    rcases hledger.dropped_eq with hnil | ⟨-, hlost⟩
    · exact hnil
    · exact absurd hlost hcut
  subst hdropped
  obtain rfl := hledger.failed_eq_nil hfailure
  refine ⟨sent, ?_, hledger⟩
  rw [hledger.sent_eq, hqueue]
  simp

/-- A delivery that ran to its end without a crash has delivered every item of every worker. -/
theorem shuffle (hcrash : ∀ w ∈ s.workers, w.hasCrashed = false) :
    Shuffle (feeds.map r.feed.yields) (s.received.map .ok) := by
  obtain ⟨sent, hreceived, hledger⟩ := h.exists_labels hcut
  have hall : (List.range feeds.length).map (fun n => labelled n sent) =
      feeds.map r.feed.yields := by
    refine List.ext_getElem (by simp) fun n h₁ h₂ => ?_
    have hlt : n < feeds.length := by simpa using h₂
    have hworker : n < s.workers.length := hledger.length_eq ▸ hlt
    have hmem : s.workers[n] ∈ s.workers := List.getElem_mem hworker
    obtain ⟨rest, hrest, howes⟩ :=
      hledger.owed n _ _ (List.getElem?_eq_getElem hlt) (List.getElem?_eq_getElem hworker)
    have hnil := howes.of_isGone (h.reaches.orderly.joined h.returned _ hmem) hcut
    rw [hcrash _ hmem, if_neg Bool.false_ne_true] at hnil
    simp [hrest, hnil]
  have hshuffle := Shuffle.of_labels fun x hx => (hledger.sound x hx).1
  rwa [hall, ← hreceived] at hshuffle

/-- A delivery that ran to its end has met every breakdown. -/
theorem hasCrashed_of_breaksDown {n : Nat} {i : ι} {item : Item} (hi : feeds[n]? = some i)
    (hitem : item ∈ r.feed.yields i) (hb : Item.breaksDown item = true) :
    ∃ w, s.workers[n]? = some w ∧ w.hasCrashed = true := by
  obtain ⟨sent, -, hledger⟩ := h.exists_labels hcut
  have hworker : n < s.workers.length := hledger.length_eq ▸ (List.getElem?_eq_some_iff.1 hi).1
  have hw := List.getElem?_eq_getElem hworker
  refine ⟨_, hw, ?_⟩
  obtain ⟨rest, hrest, howes⟩ := hledger.owed n i _ hi hw
  have hgone := h.reaches.orderly.joined h.returned _ (List.getElem_mem hworker)
  have hend := howes.of_isGone hgone hcut
  cases hc : s.workers[n].hasCrashed with
  | true => rfl
  | false =>
    rw [hc, if_neg Bool.false_ne_true] at hend
    rw [hrest, hend, List.append_nil] at hitem
    have hsound := (hledger.sound _ (mem_of_mem_labelled hitem)).2
    rw [hb] at hsound
    cases hsound

end Ends

end ProofOfWork.Pool

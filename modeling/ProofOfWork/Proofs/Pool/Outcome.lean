import ProofOfWork.Proofs.Pool.Call

/-! How calls of the pool end, in either mode. -/
namespace ProofOfWork.Pool

namespace State

variable {s : State ι τ ε}

theorem outcome_of_hasCrashed (h : ∃ w ∈ s.workers, w.hasCrashed = true) :
    s.outcome = .error (.search .workerFailed) := by
  have hany : s.workers.any Worker.hasCrashed = true := List.any_eq_true.2 h
  rw [outcome, if_pos hany]

theorem outcome_of_failure (h : ∀ w ∈ s.workers, w.hasCrashed = false) {cause : Failure ε}
    (hfailure : s.failure = some cause) : s.outcome = .error cause := by
  have hany : s.workers.any Worker.hasCrashed = false := by simpa using h
  rw [outcome, hany, hfailure]
  rfl

theorem outcome_of_no_failure (h : ∀ w ∈ s.workers, w.hasCrashed = false)
    (hfailure : s.failure = none) : s.outcome = .ok s.tally := by
  have hany : s.workers.any Worker.hasCrashed = false := by simpa using h
  rw [outcome, hany, hfailure]
  rfl

theorem hasCrashed_or_not (s : State ι τ ε) :
    (∃ w ∈ s.workers, w.hasCrashed = true) ∨ ∀ w ∈ s.workers, w.hasCrashed = false := by
  by_cases h : ∃ w ∈ s.workers, w.hasCrashed = true
  · exact .inl h
  · right
    intro w hw
    cases hc : w.hasCrashed with
    | false => rfl
    | true => exact absurd ⟨w, hw, hc⟩ h

theorem of_outcome_ok {tally : Tally} (h : s.outcome = .ok tally) :
    (∀ w ∈ s.workers, w.hasCrashed = false) ∧ s.failure = none ∧ s.tally = tally := by
  rcases s.hasCrashed_or_not with hcrashed | hcrash
  · rw [outcome_of_hasCrashed hcrashed] at h
    cases h
  · cases hfailure : s.failure with
    | none =>
      rw [outcome_of_no_failure hcrash hfailure] at h
      exact ⟨hcrash, rfl, Except.ok.inj h⟩
    | some cause =>
      rw [outcome_of_failure hcrash hfailure] at h
      cases h

theorem exists_outcome_ok_iff (hfailure : s.failure = none) :
    (∃ tally, s.outcome = .ok tally) ↔ ∀ w ∈ s.workers, w.hasCrashed = false := by
  constructor
  · rintro ⟨tally, htally⟩
    exact (of_outcome_ok htally).1
  · intro hcrash
    exact ⟨s.tally, outcome_of_no_failure hcrash hfailure⟩

end State

namespace Call.Admitted

variable {c : Call τ ε} {s : State (Search ChaCha.Generator) (List Attempt × τ) ε}

theorem reaches (h : c.Admitted) (hs : c.Reaches s) :
    Pool.Reaches c.rules.noting (.initial (c.tasks.map .ok) ([], c.start)) s :=
  h.first_eq ▸ hs

theorem ends (h : c.Admitted) (hs : c.Ends s) :
    Pool.Ends c.rules.noting (.initial (c.tasks.map .ok) ([], c.start)) s :=
  h.first_eq ▸ hs

theorem length_workers (h : c.Admitted) (hs : c.Reaches s) : s.workers.length = c.count := by
  obtain ⟨sent, failed, dropped, hledger⟩ := (h.reaches hs).ledger
  exact hledger.length_eq.trans length_tasks

/-- What a worker pulls and does not break down on is an attempt. -/
theorem ok_of_mem_yields (h : c.Admitted) {item : Item}
    (hpulled : Item.breaksDown item = false ∧ ∃ search ∈ c.tasks, item ∈ search.items) :
    ∃ a, item = .ok a := by
  obtain ⟨hsound, search, hsearch, hmem⟩ := hpulled
  obtain ⟨i, -, rfl⟩ := List.mem_map.1 hsearch
  rcases h.breaksDown_or_ok ((h.items_isPrefix i).subset hmem) with hb | hok
  · rw [hb] at hsound
    cases hsound
  · exact hok

/-- No error is ever sent. -/
theorem exists_ok (h : c.Admitted) (hs : c.Reaches s) {item : Item} (hitem : item ∈ s.queue) :
    ∃ a, item = .ok a :=
  h.ok_of_mem_yields ((h.reaches hs).mem_queue hitem)

theorem failure_ne_search (h : c.Admitted) (hs : c.Reaches s)
    (hgrants : c.launcher.Grants c.count) (cause : SearchError) :
    s.failure ≠ some (.search cause) := by
  intro hfailure
  rw [← h.length_workers hs] at hgrants
  obtain ⟨a, ha⟩ := h.ok_of_mem_yields ((h.reaches hs).mem_of_failure hgrants hfailure)
  cases ha

/-- A call that has come to its end has launched all workers, or one was denied. -/
theorem grants_or_denied (h : c.Admitted) (hs : c.Ends s) :
    c.launcher.Grants c.count ∨ ∃ n cause, c.launcher.Denies c.count n cause ∧
      s.failure = some (.search (.launchFailed cause)) ∧ s.received = [] := by
  rw [← h.length_workers hs.reaches]
  cases (h.reaches hs.reaches).launching with
  | running n hm =>
    rw [hs.returned] at hm
    cases hm
  | done _ hgrants => exact .inl hgrants
  | denied n cause hdenies _ hfailure hreceived =>
    exact .inr ⟨n, cause, hdenies, hfailure, hreceived⟩

theorem of_denies (h : c.Admitted) (hs : c.Ends s) {n : Nat} {cause : String}
    (hdenies : c.launcher.Denies c.count n cause) :
    s.failure = some (.search (.launchFailed cause)) ∧ s.received = [] := by
  rcases h.grants_or_denied hs with hgrants | ⟨m, reason, hreason, hfailure, hreceived⟩
  · exact absurd hgrants hdenies.not_grants
  · obtain ⟨-, rfl⟩ := hdenies.unique hreason
    exact ⟨hfailure, hreceived⟩

/-- What has reached the sink came from workers that are all launched. -/
theorem grants_of_received (h : c.Admitted) (hs : c.Ends s) (hne : s.received ≠ []) :
    c.launcher.Grants c.count := by
  rcases h.grants_or_denied hs with hgrants | ⟨n, cause, -, -, hnil⟩
  · exact hgrants
  · exact absurd hnil hne

theorem grants_of_failure_eq_none (h : c.Admitted) (hs : c.Ends s) (hfailure : s.failure = none) :
    c.launcher.Grants c.count := by
  rcases h.grants_or_denied hs with hgrants | ⟨n, cause, -, hf, -⟩
  · exact hgrants
  · rw [hfailure] at hf
    cases hf

/-- At any time the sink was given first attempts of each portion, in their order. -/
theorem exists_heads (h : c.Admitted) (hs : c.Reaches s) :
    ∃ head : Nat → List Attempt, Shuffle ((List.range c.count).map head) s.received ∧
      ∀ i < c.count, head i <+: c.portion i := by
  obtain ⟨head, hshuffle, hfirst⟩ := (h.reaches hs).exists_heads
  rw [length_tasks] at hshuffle
  refine ⟨head, hshuffle, fun i hi => ?_⟩
  exact (hfirst i _ (tasks_getElem? hi)).trans ((h.items_isPrefix i).filterMap _)

theorem exists_breaksDown (h : c.Admitted) (hs : c.Reaches s)
    (hcrashed : ∃ w ∈ s.workers, w.hasCrashed = true) :
    ∃ i < c.count, ∃ item ∈ c.share i, Item.breaksDown item = true := by
  obtain ⟨w, hw, hc⟩ := hcrashed
  obtain ⟨i, hi⟩ := List.getElem?_of_mem hw
  obtain ⟨search, hsearch, item, hitem, hb⟩ := (h.reaches hs).exists_breaksDown hi hc
  have hlt : i < c.count := by
    rw [← length_tasks]
    exact (List.getElem?_eq_some_iff.1 hsearch).1
  obtain rfl : c.task i = search := Option.some.inj ((tasks_getElem? hlt).symm.trans hsearch)
  exact ⟨i, hlt, item, (h.items_isPrefix i).subset hitem, hb⟩

theorem hasCrashed_of_breaksDown (h : c.Admitted) (hs : c.Ends s)
    (hcut : ¬ s.CutShort c.workers.mode) {i : Nat} (hi : i < c.count) {item : Item}
    (hitem : item ∈ (c.task i).items) (hb : Item.breaksDown item = true) :
    ∃ w ∈ s.workers, w.hasCrashed = true := by
  obtain ⟨w, hw, hc⟩ := (h.ends hs).hasCrashed_of_breaksDown hcut (tasks_getElem? hi) hitem hb
  exact ⟨w, List.mem_of_getElem? hw, hc⟩

theorem shuffle (h : c.Admitted) (hs : c.Ends s) (hcut : ¬ s.CutShort c.workers.mode)
    (hcrash : ∀ w ∈ s.workers, w.hasCrashed = false) :
    Shuffle ((List.range c.count).map fun i => attemptsOf ((c.task i).items))
      s.received := by
  have hitems := ((h.ends hs).shuffle hcut hcrash).filterMap Except.toOption
  rw [List.map_map, tasks, List.map_map] at hitems
  rwa [← attemptsOf, attemptsOf_map_ok] at hitems

/-- A call whose workers are all launched has delivered all there is, was refused, or has met what
ends its mode. -/
theorem cases_of_ends (h : c.Admitted) (hs : c.Ends s) (hgrants : c.launcher.Grants c.count) :
    (¬ s.CutShort c.workers.mode ∧ s.failure = none ∧ c.sink.Accepts s.received c.start) ∨
    (∃ seen a cause, s.failure = some (.refused cause) ∧ s.received = seen ++ [a] ∧
      c.sink.Accepts seen c.start ∧ (c.sink a (c.sink.after seen c.start)).1 = .error cause) ∨
    (∃ seen a, s.failure = none ∧ s.received = seen ++ [a] ∧ c.sink.Accepts s.received c.start ∧
      c.workers.mode.GoesOn seen ∧ c.workers.mode.endsWith (.ok a) = true) := by
  cases (h.reaches hs.reaches).account.stage with
  | running hleft =>
    rw [hs.returned] at hleft
    cases hleft
  | drained _ hf ha hg =>
    refine .inl ⟨?_, hf, ha⟩
    rintro (hfailed | hended)
    · exact hfailed hf
    · exact hended hg
  | failed cause _ hf => exact absurd hf (h.failure_ne_search hs.reaches hgrants cause)
  | refused seen a cause _ hf hr ha _ hc => exact .inr (.inl ⟨seen, a, cause, hf, hr, ha, hc⟩)
  | ended seen a _ hf hr ha hg he => exact .inr (.inr ⟨seen, a, hf, hr, ha, hg, he⟩)

/-- A sink that refuses nothing leaves no failure. -/
theorem failure_eq_none (h : c.Admitted) (hs : c.Ends s) (hgrants : c.launcher.Grants c.count)
    (hsink : ∀ a t, (c.sink a t).1 = .ok ()) : s.failure = none := by
  rcases h.cases_of_ends hs hgrants with ⟨-, hf, -⟩ | ⟨seen, a, cause, -, -, -, hc⟩ | ⟨seen, a, hf, -⟩
  · exact hf
  · rw [hsink] at hc
    cases hc
  · exact hf

theorem mem_portion (h : c.Admitted) (hs : c.Reaches s) {a : Attempt} (ha : a ∈ s.received) :
    ∃ i < c.count, a ∈ c.portion i := by
  obtain ⟨head, hshuffle, hfirst⟩ := h.exists_heads hs
  obtain ⟨part, hpart, hmem⟩ := hshuffle.mem_iff.1 ha
  obtain ⟨i, hi, rfl⟩ := List.mem_map.1 hpart
  have hlt := List.mem_range.1 hi
  exact ⟨i, hlt, (hfirst i hlt).subset hmem⟩

theorem not_hasCrashed_of_total (h : c.Admitted) (hs : c.Reaches s)
    (htotal : c.puzzle.hasher.Total)
    (hfits : c.plan.attempts = 0 ∨ c.plan.nonceLength ≤ Bytes.lengthLimit) :
    ∀ w ∈ s.workers, w.hasCrashed = false := by
  rcases s.hasCrashed_or_not with hcrashed | hcrash
  · obtain ⟨i, -, item, hitem, hb⟩ := h.exists_breaksDown hs hcrashed
    obtain ⟨a, rfl⟩ := h.exists_ok_of_total htotal hfits hitem
    cases hb
  · exact hcrash

/-- In either mode a worker crashes if it is to draw a nonce that no memory holds. -/
theorem hasCrashed_of_tooLong (h : c.Admitted) (hs : c.Ends s)
    (hgrants : c.launcher.Grants c.count) (hattempts : 0 < c.plan.attempts)
    (hlong : Bytes.lengthLimit < c.plan.nonceLength) : ∃ w ∈ s.workers, w.hasCrashed = true := by
  have hshare : ∀ i, ∀ item ∈ c.share i, item = .error (.nonceTooLong c.plan.nonceLength) := by
    intro i item hitem
    rw [h.share_eq] at hitem
    obtain ⟨-, state, rfl⟩ := Search.exists_pullAt_of_mem hitem
    exact Search.pullAt_of_tooLong (s := c.whole i) hlong state
  have hreceived : ∀ a, a ∉ s.received := by
    intro a ha
    obtain ⟨i, -, hportion⟩ := h.mem_portion hs.reaches ha
    cases hshare i _ (mem_attemptsOf.1 hportion)
  have hcut : ¬ s.CutShort c.workers.mode := by
    rcases h.cases_of_ends hs hgrants with
      ⟨hcut, -⟩ | ⟨seen, a, cause, -, hr, -⟩ | ⟨seen, a, -, hr, -⟩
    · exact hcut
    · exact absurd (hr ▸ List.mem_append_right seen (List.mem_singleton_self a)) (hreceived a)
    · exact absurd (hr ▸ List.mem_append_right seen (List.mem_singleton_self a)) (hreceived a)
  have hitems : (c.task 0).items = c.share 0 := by
    cases hmode : c.workers.mode with
    | exhaustive => exact h.items_exhaustive hmode 0
    | firstPass =>
      rw [h.items_firstPass hmode]
      apply upToFirst_eq_self
      intro item hitem
      rw [hshare 0 item hitem]
      rfl
  obtain ⟨item, hitem⟩ := h.exists_mem_share hattempts
  refine h.hasCrashed_of_breaksDown hs hcut Call.count_pos (hitems ▸ hitem) ?_
  rw [hshare 0 item hitem]
  rfl

theorem search_of_tooLong (h : c.Admitted) (hgrants : c.launcher.Grants c.count)
    (hattempts : 0 < c.plan.attempts)
    (hlong : Bytes.lengthLimit < c.plan.nonceLength) (schedule : Schedule) :
    (c.search schedule).result = .error (.search .workerFailed) := by
  have hcrashed := h.hasCrashed_of_tooLong (c.ends_last schedule) hgrants hattempts hlong
  rw [h.search_eq]
  exact State.outcome_of_hasCrashed hcrashed

theorem tally_eq (h : c.Admitted) (hs : c.Reaches s) : s.tally = .of s.received :=
  (h.reaches hs).account.tally_eq

end Call.Admitted

end ProofOfWork.Pool

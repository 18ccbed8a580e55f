import ProofOfWork.Proofs.Pool.Noting

/-!
What the manager of a pool has handed to its sink at any time of a run, and why it has stopped
doing so. The sink notes what it is given.
-/
namespace ProofOfWork.Pool

/-- The loop over the queue is left. -/
def Manager.hasLeft : Manager → Bool
  | .launching _ | .receiving => false
  | .leaving | .stopped | .joining | .returned => true

theorem Manager.hasLeft_of_hasStopped {m : Manager} (h : m.hasStopped = true) :
    m.hasLeft = true := by
  cases m <;> first | rfl | cases h

theorem Manager.hasStopped_of_not_isOpen {m : Manager} (h : m.isOpen = false) :
    m.hasStopped = true := by
  cases m <;> first | rfl | cases h

variable {r : Rules ι τ ε} {t : τ} {s u : State ι (List Attempt × τ) ε}

namespace State

/-- How far the delivery has come, and why it was left. -/
inductive Stage (r : Rules ι τ ε) (t : τ) (s : State ι (List Attempt × τ) ε) : Prop
  | running : s.manager.hasLeft = false → s.failure = none → r.sink.Accepts s.received t →
      r.mode.GoesOn s.received → Stage r t s
  | drained : s.manager.hasLeft = true → s.failure = none → r.sink.Accepts s.received t →
      r.mode.GoesOn s.received → s.queue = [] → (∀ w ∈ s.workers, w.isGone = true) →
      Stage r t s
  | failed (cause) : s.manager.hasLeft = true → s.failure = some (.search cause) →
      r.sink.Accepts s.received t → r.mode.GoesOn s.received → Stage r t s
  | refused (seen a cause) : s.manager.hasLeft = true → s.failure = some (.refused cause) →
      s.received = seen ++ [a] → r.sink.Accepts seen t → r.mode.GoesOn seen →
      (r.sink a (r.sink.after seen t)).1 = .error cause → Stage r t s
  | ended (seen a) : s.manager.hasLeft = true → s.failure = none → s.received = seen ++ [a] →
      r.sink.Accepts s.received t → r.mode.GoesOn seen → r.mode.endsWith (.ok a) = true →
      Stage r t s

/-- A stage is about the delivery: other moves keep it. -/
theorem Stage.of_eq (h : Stage r t s) (hleft : u.manager.hasLeft = s.manager.hasLeft)
    (hfailure : u.failure = s.failure) (hsink : u.sink = s.sink)
    (hdrained : s.manager.hasLeft = true → s.queue = [] → (∀ w ∈ s.workers, w.isGone = true) →
      u.queue = [] ∧ ∀ w ∈ u.workers, w.isGone = true) : Stage r t u := by
  have hreceived : u.received = s.received := congrArg Prod.fst hsink
  cases h with
  | running hl hf ha hg =>
    rw [← hreceived] at ha hg
    exact .running (hleft.trans hl) (hfailure.trans hf) ha hg
  | drained hl hf ha hg hq hw =>
    rw [← hreceived] at ha hg
    obtain ⟨hq, hw⟩ := hdrained hl hq hw
    exact .drained (hleft.trans hl) (hfailure.trans hf) ha hg hq hw
  | failed cause hl hf ha hg =>
    rw [← hreceived] at ha hg
    exact .failed cause (hleft.trans hl) (hfailure.trans hf) ha hg
  | refused seen a cause hl hf hr ha hg hc =>
    rw [← hreceived] at hr
    exact .refused seen a cause (hleft.trans hl) (hfailure.trans hf) hr ha hg hc
  | ended seen a hl hf hr ha hg he =>
    rw [← hreceived] at hr ha
    exact .ended seen a (hleft.trans hl) (hfailure.trans hf) hr ha hg he

/-- What holds of the delivery in every state of a run. -/
structure Account (r : Rules ι τ ε) (t : τ) (s : State ι (List Attempt × τ) ε) : Prop where
  sink_eq : s.sink.2 = r.sink.after s.received t
  tally_eq : s.tally = .of s.received
  stage : Stage r t s

theorem account_initial (starts : List (Except SearchError ι)) :
    Account r t (.initial starts ([], t)) where
  sink_eq := rfl
  tally_eq := rfl
  stage := .running rfl rfl (Sink.accepts_nil _ _) (by intro a ha; cases ha)

namespace Account

/-- Before the loop is left, nothing was refused and nothing ended the delivery. -/
theorem of_not_hasLeft (h : Account r t s) (hleft : s.manager.hasLeft = false) :
    s.failure = none ∧ r.sink.Accepts s.received t ∧ r.mode.GoesOn s.received := by
  cases h.stage with
  | running _ hf ha hg => exact ⟨hf, ha, hg⟩
  | drained hl | failed _ hl | refused _ _ _ hl | ended _ _ hl =>
    rw [hl] at hleft
    cases hleft

theorem of_receiving (h : Account r t s) (hm : s.manager = .receiving) :
    s.failure = none ∧ r.sink.Accepts s.received t ∧ r.mode.GoesOn s.received :=
  h.of_not_hasLeft (by rw [hm]; rfl)

theorem move (h : Account r t s) (hmove : Move r.noting s u) : Account r t u := by
  have hsink := h.sink_eq
  have htally := h.tally_eq
  have hnext : ∀ a, (r.sink a s.sink.2).2 = r.sink.after (s.received ++ [a]) t := by
    intro a
    rw [hsink, Sink.after_concat]
  have hcount : ∀ a, s.tally.add a = .of (s.received ++ [a]) := by
    intro a
    rw [htally, Tally.of_concat]
  have hanswer : ∀ a, (r.noting.sink a s.sink).1 = (r.sink a (r.sink.after s.received t)).1 := by
    intro a
    rw [← hsink]
    rfl
  cases hmove with
  | launch hm | listen hm =>
    refine ⟨hsink, htally, h.stage.of_eq (by rw [hm]; rfl) rfl rfl ?_⟩
    intro hl
    rw [hm] at hl
    cases hl
  | abandon hm hlt hdenied =>
    obtain ⟨-, ha, hg⟩ := h.of_not_hasLeft (by rw [hm]; rfl)
    exact ⟨hsink, htally, .failed _ rfl rfl ha hg⟩
  | @fail cause rest hm hq =>
    obtain ⟨-, ha, hg⟩ := h.of_receiving hm
    exact ⟨hsink, htally, .failed cause rfl rfl ha hg⟩
  | @refuse a rest cause hm hq hs =>
    obtain ⟨-, ha, hg⟩ := h.of_receiving hm
    rw [hanswer] at hs
    exact ⟨hnext a, hcount a, .refused s.received a cause rfl rfl rfl ha hg hs⟩
  | @finish a rest hm hq hs he =>
    obtain ⟨hf, ha, hg⟩ := h.of_receiving hm
    rw [hanswer] at hs
    have haccepts := Sink.accepts_concat.2 ⟨ha, hs⟩
    exact ⟨hnext a, hcount a, .ended s.received a rfl hf rfl haccepts hg he⟩
  | @accept a rest hm hq hs he =>
    obtain ⟨hf, ha, hg⟩ := h.of_receiving hm
    rw [hanswer] at hs
    have haccepts := Sink.accepts_concat.2 ⟨ha, hs⟩
    have hgoes := Mode.goesOn_concat.2 ⟨hg, he⟩
    exact ⟨hnext a, hcount a, .running rfl hf haccepts hgoes⟩
  | drain hm hq hw =>
    obtain ⟨hf, ha, hg⟩ := h.of_receiving hm
    exact ⟨hsink, htally, .drained rfl hf ha hg hq hw⟩
  | stop hm | join hm =>
    refine ⟨hsink, htally, h.stage.of_eq (by rw [hm]; rfl) rfl rfl ?_⟩
    exact fun _ hq hw => ⟨hq, hw⟩
  | close hm =>
    refine ⟨hsink, htally, h.stage.of_eq (by rw [hm]; rfl) rfl rfl ?_⟩
    exact fun _ _ hw => ⟨rfl, hw⟩
  | work hw hmove =>
    refine ⟨hsink, htally, h.stage.of_eq rfl rfl rfl ?_⟩
    intro _ _ hgone
    have hfalse := hmove.isGone_eq_false
    rw [hgone _ (List.mem_of_getElem? hw)] at hfalse
    cases hfalse

end Account

end State

theorem Reaches.account {starts : List (Except SearchError ι)}
    (h : Reaches r.noting (.initial starts ([], t)) s) : s.Account r t :=
  h.invariant (State.account_initial starts) fun _ _ => State.Account.move

namespace State

/-- The delivery was left before all items had arrived. -/
def CutShort (mode : Mode) (s : State ι (List Attempt × τ) ε) : Prop :=
  s.failure ≠ none ∨ ¬ mode.GoesOn s.received

theorem not_cutShort_exhaustive {s : State ι (List Attempt × τ) ε} (h : s.failure = none) :
    ¬ s.CutShort .exhaustive := by
  rintro (hfailed | hended)
  · exact hfailed h
  · exact hended (Mode.goesOn_exhaustive _)

/-- A delivery that is left but not cut short has nothing more to come. -/
theorem Account.drained (h : Account r t s) (hleft : s.manager.hasLeft = true)
    (hcut : ¬ s.CutShort r.mode) :
    s.queue = [] ∧ ∀ w ∈ s.workers, w.isGone = true := by
  cases h.stage with
  | running hl =>
    rw [hleft] at hl
    cases hl
  | drained _ _ _ _ hq hw => exact ⟨hq, hw⟩
  | failed cause _ hf =>
    refine absurd (.inl ?_) hcut
    rw [hf]
    exact Option.some_ne_none _
  | refused seen a cause _ hf =>
    refine absurd (.inl ?_) hcut
    rw [hf]
    exact Option.some_ne_none _
  | ended seen a _ _ hr _ _ he =>
    refine absurd (.inr ?_) hcut
    intro hg
    rw [hr, Mode.goesOn_concat, he] at hg
    cases hg.2

end State

end ProofOfWork.Pool

import ProofOfWork.Proofs.Pool.Failure
import ProofOfWork.Proofs.Search.Drain

/-!
A pool with a single worker does what the sequential search of its stream does, however far the
worker runs ahead of the manager.
-/
namespace ProofOfWork.Pool

namespace Call

/-- The sequential search of the first stream in the mode of the call, delivered to its sink. -/
def alone (c : Call τ ε) : Outcome τ ε :=
  match Search.start c.puzzle c.plan ChaCha.source (c.stream 0) with
  | .error cause => ⟨.error (.search cause), c.start, []⟩
  | .ok search =>
    let delivery := Search.feed.deliver c.sink (search.inMode c.workers.mode) c.start
    ⟨delivery.result, delivery.sink, []⟩

/-- The same call with a sink that notes what it is given. -/
def noting (c : Call τ ε) : Call (List Attempt × τ) ε :=
  c.withSink c.sink.noting ([], c.start)

/-- The attempts of the first worker that the sink is given if nobody else works, and what cuts them
short. -/
def delivered (c : Call τ ε) : List Attempt × Option (Failure ε) :=
  c.sink.drained ((c.task 0).items) c.start

variable {c : Call τ ε} {s : State (Search ChaCha.Generator) (List Attempt × τ) ε}

theorem alone_of_refusal? {cause : SearchError}
    (h : Search.refusal? c.puzzle c.plan = some cause) :
    c.alone = ⟨.error (.search cause), c.start, []⟩ := by
  rw [alone, Search.start, h]

namespace Admitted

theorem alone_eq (h : c.Admitted) (hcount : c.count = 1) :
    c.alone.result = Failure.orTally c.delivered.2 (.of c.delivered.1) ∧
      c.alone.sink = c.sink.after c.delivered.1 c.start := by
  have htask : (c.whole 0).inMode c.workers.mode = c.task 0 := by
    rw [task, hcount, share_one]
    rfl
  have hdeliver := Search.feed.deliver_yields c.sink (c.task 0) c.start
  unfold alone delivered
  rw [h.start_eq]
  show (Search.feed.deliver c.sink ((c.whole 0).inMode c.workers.mode) c.start).result = _ ∧
    (Search.feed.deliver c.sink ((c.whole 0).inMode c.workers.mode) c.start).sink = _
  rwa [htask]

theorem noting (h : c.Admitted) : c.noting.Admitted :=
  ⟨h.nonceLength_pos, h.length_eq⟩

/-- The notes are what is delivered. -/
theorem alone_noting (h : c.Admitted) (hcount : c.count = 1) :
    c.noting.alone.sink = (c.delivered.1, c.alone.sink) := by
  have hdelivered : c.noting.delivered = c.delivered := Sink.drained_noting _ _
  have hafter : c.noting.sink.after c.delivered.1 c.noting.start =
      (c.delivered.1, c.sink.after c.delivered.1 c.start) := Sink.after_noting _ _
  rw [(h.noting.alone_eq hcount).2, hdelivered, hafter, (h.alone_eq hcount).2]

/-- A worker yields nothing behind an attempt that ends its mode. -/
theorem items_endsWith (index : Nat) {front later : List Item} {a : Attempt}
    (hitems : (c.task index).items = front ++ .ok a :: later)
    (hends : c.workers.mode.endsWith (.ok a) = true) : later = [] := by
  rw [items_task] at hitems
  exact Search.eq_nil_of_stopsAt hitems ((Mode.stopsAt_ok _ a).trans hends)

/-- At any time a single worker has first items delivered, in their order. -/
theorem received_isPrefix (h : c.Admitted) (hcount : c.count = 1) (hs : c.Reaches s) :
    s.received <+: attemptsOf ((c.task 0).items) := by
  obtain ⟨head, hshuffle, hfirst⟩ := (h.reaches hs).exists_heads
  rw [length_tasks, hcount] at hshuffle
  rw [hshuffle.eq_of_singleton]
  exact hfirst 0 (c.task 0) (tasks_getElem? count_pos)

/-- However far the worker ran ahead, what was delivered and what cut it short are those of a
delivery of its items one by one. -/
theorem delivered_eq (h : c.Admitted) (hgrants : c.launcher.Grants c.count)
    (hcount : c.count = 1) (htotal : c.puzzle.hasher.Total)
    (hfits : c.plan.attempts = 0 ∨ c.plan.nonceLength ≤ Bytes.lengthLimit) (hs : c.Ends s) :
    s.received = c.delivered.1 ∧ s.failure = c.delivered.2 := by
  suffices (s.received, s.failure) = c.delivered from Prod.mk.inj this
  have hitems : (attemptsOf ((c.task 0).items)).map .ok =
      (c.task 0).items := by
    apply map_ok_attemptsOf
    intro item hitem
    exact h.exists_ok_of_total htotal hfits ((h.items_isPrefix 0).subset hitem)
  obtain ⟨later, hlater⟩ := h.received_isPrefix hcount hs.reaches
  rw [← hlater, List.map_append] at hitems
  unfold delivered
  rcases h.cases_of_ends hs hgrants with ⟨hcut, hf, ha⟩ | ⟨seen, a, cause, hf, hr, ha, hc⟩ |
    ⟨seen, a, hf, hr, ha, -, he⟩
  · -- nothing was cut short, so that all was delivered
    have hshuffle := h.shuffle hs hcut (h.not_hasCrashed_of_total hs.reaches htotal hfits)
    rw [hcount] at hshuffle
    have hall : s.received ++ later = s.received ++ [] := by
      rw [List.append_nil, hlater]
      exact hshuffle.eq_of_singleton.symm
    have hnone : later = [] := List.append_cancel_left hall
    rw [← hitems, Sink.drained_append ha, hnone, hf, List.map_nil, Sink.drained, List.append_nil]
  · -- nothing behind the refused attempt counts, though the worker may have sent more
    rw [hr, List.map_append, List.append_assoc] at hitems
    have hdrained := Sink.drained_of_refused hc (later.map .ok)
    rw [← hitems, Sink.drained_append ha, hr, hf]
    exact congrArg (fun d => (seen ++ d.1, d.2)) hdrained.symm
  · -- the worker has stopped behind the same pass as the manager
    have hsplit : (c.task 0).items = seen.map .ok ++ .ok a :: later.map .ok := by
      rw [← hitems, hr, List.map_append, List.append_assoc]
      rfl
    have hnone : later.map Except.ok = ([] : List Item) := items_endsWith 0 hsplit he
    rw [← hitems, Sink.drained_append ha, hnone, hf, Sink.drained, List.append_nil]

/-- Without a crash the outcome is told by what was delivered and what cut it short. -/
theorem outcome_eq_orTally (h : c.Admitted) (hs : c.Ends s)
    (hcrash : ∀ w ∈ s.workers, w.hasCrashed = false) :
    s.outcome = Failure.orTally s.failure (.of s.received) := by
  cases hf : s.failure with
  | none =>
    rw [State.outcome_of_no_failure hcrash hf, h.tally_eq hs.reaches]
    rfl
  | some cause =>
    rw [State.outcome_of_failure hcrash hf]
    rfl

/-- The state in which a single worker has ended is that of the sequential search. -/
theorem outcome_eq_alone (h : c.Admitted) (hgrants : c.launcher.Grants c.count)
    (hcount : c.count = 1) (htotal : c.puzzle.hasher.Total)
    (hfits : c.plan.attempts = 0 ∨ c.plan.nonceLength ≤ Bytes.lengthLimit) (hs : c.Ends s) :
    s.outcome = c.alone.result ∧ s.sink = (s.received, c.alone.sink) ∧
      c.noting.alone.sink = s.sink := by
  have hcrash := h.not_hasCrashed_of_total hs.reaches htotal hfits
  obtain ⟨hreceived, hfailure⟩ := h.delivered_eq hgrants hcount htotal hfits hs
  obtain ⟨hresult, hsink⟩ := h.alone_eq hcount
  have haccount : s.sink.2 = c.sink.after s.received c.start :=
    (h.reaches hs.reaches).account.sink_eq
  have hleft : s.sink = (s.received, c.alone.sink) := by
    rw [hsink, ← hreceived, ← haccount]
    rfl
  refine ⟨?_, hleft, ?_⟩
  · rw [h.outcome_eq_orTally hs hcrash, hresult, ← hreceived, ← hfailure]
  · rw [h.alone_noting hcount, hleft, ← hreceived]

/-- Of the failures of the sequential search only that of the sink is left. -/
theorem alone_result_cases (h : c.Admitted) (hgrants : c.launcher.Grants c.count)
    (hcount : c.count = 1) (htotal : c.puzzle.hasher.Total)
    (hfits : c.plan.attempts = 0 ∨ c.plan.nonceLength ≤ Bytes.lengthLimit) (hs : c.Ends s) :
    (∃ cause, c.alone.result = .error (.refused cause)) ∨ c.alone.result = .ok (.of s.received) := by
  have hcrash := h.not_hasCrashed_of_total hs.reaches htotal hfits
  rw [← (h.outcome_eq_alone hgrants hcount htotal hfits hs).1, h.outcome_eq_orTally hs hcrash]
  cases hf : s.failure with
  | none => exact .inr rfl
  | some failure =>
    cases failure with
    | search cause => exact absurd hf (h.failure_ne_search hs.reaches hgrants cause)
    | refused cause => exact .inl ⟨cause, rfl⟩

/-- The calling thread has no thread to launch, and the source never fails. -/
theorem isBreakdown_of_alone_error (h : c.Admitted) (hcount : c.count = 1) {cause : SearchError}
    (hresult : c.alone.result = .error (.search cause)) : cause.isBreakdown = true := by
  rw [(h.alone_eq hcount).1, Failure.orTally_eq_error_iff] at hresult
  have hitem : .error cause ∈ c.share 0 :=
    (h.items_isPrefix 0).subset (Sink.error_mem_of_drained hresult)
  rcases h.breaksDown_or_ok hitem with hb | ⟨a, ha⟩
  · exact hb
  · cases ha

theorem alone_of_tooLong (h : c.Admitted) (hcount : c.count = 1)
    (hattempts : 0 < c.plan.attempts) (hlong : Bytes.lengthLimit < c.plan.nonceLength) :
    c.alone.result = .error (.search (.nonceTooLong c.plan.nonceLength)) := by
  obtain ⟨n, hn⟩ := Nat.exists_eq_succ_of_ne_zero (Nat.ne_of_gt hattempts)
  have hitems : ∃ later, (c.task 0).items =
      .error (.nonceTooLong c.plan.nonceLength) :: later := by
    have hfrom := Search.items_eq (c.task 0) rfl
    have hremaining : (c.task 0).remaining = n + 1 := by
      rw [task, hcount, share_one, hn]
    rw [hremaining, Search.itemsFrom, Search.pullAt_of_tooLong (s := c.task 0) hlong] at hfrom
    exact ⟨_, hfrom⟩
  obtain ⟨later, hlater⟩ := hitems
  rw [(h.alone_eq hcount).1, delivered, hlater]
  rfl

end Admitted

/-- With one worker all schedules lead where the sequential search leads. -/
theorem search_eq_alone (c : Call τ ε) (hgrants : c.Admitted → c.launcher.Grants c.count)
    (hcount : c.count = 1) (htotal : c.puzzle.hasher.Total)
    (hfits : c.Admitted → c.plan.attempts = 0 ∨ c.plan.nonceLength ≤ Bytes.lengthLimit)
    (schedule : Schedule) :
    (c.search schedule).result = c.alone.result ∧ (c.search schedule).sink = c.alone.sink := by
  cases hrefusal : Search.refusal? c.puzzle c.plan with
  | some cause =>
    rw [search_of_refusal? hrefusal, alone_of_refusal? hrefusal]
    exact ⟨rfl, rfl⟩
  | none =>
    have h : c.Admitted := admitted_of_refusal?_eq_none hrefusal
    have hends := c.ends_last schedule
    obtain ⟨hresult, hsink, -⟩ := h.outcome_eq_alone (hgrants h) hcount htotal (hfits h) hends
    rw [h.search_eq]
    exact ⟨hresult, congrArg Prod.snd hsink⟩

end Call

/-- A search by a pool with at most one thread or one attempt is the sequential search of the first
stream, if that thread is made, the hasher never breaks down and a nonce fits into memory: the same result and the same
calls of the sink, however the worker and the manager take turns. Refused arguments leave the sink
alone; other searches fail with the error of the sink or count what it was given. -/
theorem one_worker_search (c : Call τ ε) (hone : min c.workers.threads c.plan.attempts ≤ 1)
    (hlaunch : c.Admitted → c.launcher 0 = .ok ()) (htotal : c.puzzle.hasher.Total)
    (hfits : c.Admitted → c.plan.attempts = 0 ∨ c.plan.nonceLength ≤ Bytes.lengthLimit) :
    (∀ schedule, (c.search schedule).result = c.alone.result ∧
      (c.search schedule).sink = c.alone.sink ∧
      (c.noting.search schedule).sink = c.noting.alone.sink) ∧
    (∀ cause, Search.refusal? c.puzzle c.plan = some cause →
      c.alone.result = .error (.search cause) ∧ c.noting.alone.sink = ([], c.start)) ∧
    (Search.refusal? c.puzzle c.plan = none → ∀ s, c.Ends s →
      s.outcome = c.alone.result ∧ s.sink = (s.received, c.alone.sink) ∧
      c.noting.alone.sink = s.sink ∧
      ((∃ cause, c.alone.result = .error (.refused cause)) ∨
        c.alone.result = .ok (.of s.received))) := by
  have hcount : c.count = 1 := workerCount_eq_one hone
  have hgrants : c.Admitted → c.launcher.Grants c.count := by
    intro h i hi
    obtain rfl : i = 0 := by omega
    exact hlaunch h
  have hnoting : c.noting.Admitted → c.plan.attempts = 0 ∨ c.plan.nonceLength ≤ Bytes.lengthLimit :=
    fun h => hfits ⟨h.nonceLength_pos, h.length_eq⟩
  refine ⟨?_, ?_, ?_⟩
  · intro schedule
    obtain ⟨hresult, hsink⟩ := c.search_eq_alone hgrants hcount htotal hfits schedule
    refine ⟨hresult, hsink, (c.noting.search_eq_alone ?_ hcount htotal hnoting schedule).2⟩
    exact fun h => hgrants ⟨h.nonceLength_pos, h.length_eq⟩
  · intro cause hcause
    have hsame : Search.refusal? c.noting.puzzle c.noting.plan = some cause := hcause
    rw [Call.alone_of_refusal? hcause, Call.alone_of_refusal? hsame]
    exact ⟨rfl, rfl⟩
  · intro hnone s hs
    have h : c.Admitted := Call.admitted_of_refusal?_eq_none hnone
    obtain ⟨hresult, hsink, hnotes⟩ := h.outcome_eq_alone (hgrants h) hcount htotal (hfits h) hs
    exact ⟨hresult, hsink, hnotes, h.alone_result_cases (hgrants h) hcount htotal (hfits h) hs⟩

theorem one_worker_search_third_refused :
    let c := (Call.easy ⟨5, 8⟩ ⟨1, some 1, .exhaustive, false⟩).withSink (Sink.refusing 3) 0
    c.alone.result = .error (.refused ()) ∧ c.noting.alone.sink.1.length = 3 ∧
      ∀ schedule, (c.search schedule).result = c.alone.result ∧
        (c.noting.search schedule).sink = c.noting.alone.sink := by
  intro c
  have h : c.Admitted := ⟨by decide, rfl⟩
  have hs := c.ends_last .managerFirst
  have hcrash := h.not_hasCrashed_of_total hs.reaches (fun _ => rfl) (by decide)
  obtain ⟨hsearch, -, hends⟩ := one_worker_search c (by decide) (fun _ => rfl)
    (fun _ => rfl) (fun _ => by decide)
  obtain ⟨hresult, -, hnotes, -⟩ := hends h.refusal?_eq_none _ hs
  have hthree := h.length_of_refusesAt hs (Launcher.willing_grants _) rfl hcrash (r := 3) (by decide) (by decide)
    (Sink.refusing_refusesAt 3)
  refine ⟨?_, ?_, fun schedule => ⟨(hsearch schedule).1, (hsearch schedule).2.2⟩⟩
  · rw [← hresult]
    apply h.outcome_of_refused hs hcrash
    obtain ⟨a₁, a₂, a₃, hreceived⟩ := List.length_eq_three.1 hthree
    have hanswers : c.sink.answers [a₁, a₂, a₃] c.start = [.ok (), .ok (), .error ()] := rfl
    rw [hreceived, hanswers]
    simp
  · rw [hnotes]
    exact hthree

/-- A nonce that no memory holds breaks the sequential search down, and crashes the worker. -/
theorem one_worker_search_nonce_too_long :
    let c := Call.easy ⟨1, 2 ^ 64 - 1⟩ ⟨1, some 1, .exhaustive, false⟩
    min c.workers.threads c.plan.attempts ≤ 1 ∧ c.launcher 0 = .ok () ∧ c.puzzle.hasher.Total ∧
      ∀ schedule, (c.search schedule).result = .error (.search .workerFailed) ∧
        (c.search schedule).result ≠ c.alone.result := by
  intro c
  have h : c.Admitted := Call.easy_admitted _ (by decide)
  have halone := h.alone_of_tooLong rfl (by decide) (by decide)
  refine ⟨by decide, rfl, fun _ => rfl, fun schedule => ?_⟩
  have hsearch := h.search_of_tooLong (Launcher.willing_grants _) (by decide) (by decide) schedule
  refine ⟨hsearch, ?_⟩
  rw [hsearch, halone]
  simp

end ProofOfWork.Pool

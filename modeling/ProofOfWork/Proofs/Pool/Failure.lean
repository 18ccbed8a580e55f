import ProofOfWork.Proofs.Pool.Exhaustive

/-!
Failures of a search by a pool: arguments that are refused, workers that crash, and sinks that
refuse an attempt. Which of them is returned does not depend on the order of moves.
-/
namespace ProofOfWork.Pool

namespace Call

variable {c : Call τ ε} {s : State (Search ChaCha.Generator) (List Attempt × τ) ε}

/-- Refused arguments leave the sink alone. -/
theorem search_of_refusal? {cause : SearchError}
    (h : Search.refusal? c.puzzle c.plan = some cause) (schedule : Schedule) :
    c.search schedule = ⟨.error (.search cause), c.start, []⟩ := by
  rw [search, Pool.search, h]

theorem refusal?_of_emptyNonce (h : c.plan.nonceLength = 0) :
    Search.refusal? c.puzzle c.plan = some (.emptyNonce 0) := by
  rw [Search.refusal?, if_pos h, h]

theorem refusal?_of_wrongLength (hnonce : 0 < c.plan.nonceLength)
    (hlength : c.puzzle.hasher.outputLength ≠ c.puzzle.threshold.length) :
    Search.refusal? c.puzzle c.plan =
      some (.wrongLength ⟨c.puzzle.threshold.length, c.puzzle.hasher.outputLength⟩) := by
  have hne : c.plan.nonceLength ≠ 0 := by omega
  rw [Search.refusal?, if_neg hne, Threshold.expect, if_neg hlength]

namespace Admitted

/-- The error of the sink is returned if no worker has crashed. -/
theorem outcome_of_refused (h : c.Admitted) (hs : c.Ends s)
    (hcrash : ∀ w ∈ s.workers, w.hasCrashed = false) {cause : ε}
    (hcause : .error cause ∈ c.sink.answers s.received c.start) :
    s.outcome = .error (.refused cause) := by
  have hgrants := h.grants_of_received hs fun hnil => by
    rw [hnil] at hcause
    cases hcause
  rcases h.cases_of_ends hs hgrants with ⟨-, -, ha⟩ | ⟨seen, a, refusal, hf, hr, ha, hc⟩ |
    ⟨seen, a, -, -, ha, -⟩
  · exact absurd hcause (ha.not_mem_answers cause)
  · rw [hr, Sink.answers_concat, hc, List.mem_append, List.mem_singleton] at hcause
    have hlast : Except.error cause = Except.error refusal :=
      hcause.resolve_left (ha.not_mem_answers cause)
    cases hlast
    exact State.outcome_of_failure hcrash hf
  · exact absurd hcause (ha.not_mem_answers cause)

/-- Without a crash and a refusal the tally is returned. -/
theorem outcome_of_accepts (h : c.Admitted) (hs : c.Ends s) (hgrants : c.launcher.Grants c.count)
    (hcrash : ∀ w ∈ s.workers, w.hasCrashed = false)
    (hnone : ∀ cause, .error cause ∉ c.sink.answers s.received c.start) :
    s.outcome = .ok (.of s.received) := by
  have hfailure : s.failure = none := by
    rcases h.cases_of_ends hs hgrants with ⟨-, hf, -⟩ | ⟨seen, a, cause, -, hr, -, hc⟩ |
      ⟨seen, a, hf, -⟩
    · exact hf
    · refine absurd ?_ (hnone cause)
      rw [hr, Sink.answers_concat, hc]
      exact List.mem_append_right _ (List.mem_singleton_self _)
    · exact hf
  rw [State.outcome_of_no_failure hcrash hfailure, h.tally_eq hs.reaches]

theorem exists_error_iff (h : c.Admitted) (hs : c.Ends s) (hgrants : c.launcher.Grants c.count) :
    (∃ failure, s.outcome = .error failure) ↔
      (∃ w ∈ s.workers, w.hasCrashed = true) ∨
        ∃ cause, .error cause ∈ c.sink.answers s.received c.start := by
  rcases s.hasCrashed_or_not with hcrashed | hcrash
  · exact iff_of_true ⟨_, State.outcome_of_hasCrashed hcrashed⟩ (.inl hcrashed)
  · have hnone : ¬ ∃ w ∈ s.workers, w.hasCrashed = true := by simpa using hcrash
    rw [or_iff_right hnone]
    constructor
    · rintro ⟨failure, hfailure⟩
      apply Classical.byContradiction
      intro haccepts
      have hok := h.outcome_of_accepts hs hgrants hcrash fun cause hcause =>
        haccepts ⟨cause, hcause⟩
      rw [hok] at hfailure
      cases hfailure
    · rintro ⟨cause, hcause⟩
      exact ⟨_, h.outcome_of_refused hs hcrash hcause⟩

/-- Nothing reaches the sink after what it refuses. -/
theorem eq_nil_of_refused (h : c.Admitted) (hs : c.Ends s) {seen later : List Attempt}
    {a : Attempt} {cause : ε} (hr : s.received = seen ++ a :: later)
    (hc : (c.sink a (c.sink.after seen c.start)).1 = .error cause) : later = [] := by
  have hrefused : ∀ more, ¬ c.sink.Accepts (seen ++ a :: more) c.start := by
    intro more haccepts
    have hsplit : seen ++ a :: more = seen ++ [a] ++ more := by simp
    rw [hsplit] at haccepts
    have hok := (Sink.accepts_concat.1 haccepts.of_append).2
    rw [hc] at hok
    cases hok
  have hgrants := h.grants_of_received hs (by simp [hr])
  rcases h.cases_of_ends hs hgrants with ⟨-, -, ha⟩ | ⟨front, last, -, -, hlast, ha, -⟩ |
    ⟨front, last, -, -, ha, -⟩
  · exact absurd (hr ▸ ha) (hrefused later)
  · rcases List.eq_nil_or_concat later with hnil | ⟨middle, final, rfl⟩
    · exact hnil
    · have hsame : front ++ [last] = (seen ++ a :: middle) ++ [final] := by
        rw [← hlast, hr]
        simp
      obtain ⟨rfl, -⟩ := List.append_inj' hsame rfl
      exact absurd ha (hrefused middle)
  · exact absurd (hr ▸ ha) (hrefused later)

/-- An exhaustive search without a crash calls the sink until it refuses, if it ever does. -/
theorem length_of_refusesAt (h : c.Admitted) (hs : c.Ends s)
    (hgrants : c.launcher.Grants c.count) (hmode : c.workers.mode = .exhaustive) (hcrash : ∀ w ∈ s.workers, w.hasCrashed = false)
    {r : Nat} (hpos : 1 ≤ r) (hle : r ≤ c.plan.attempts) (hr : c.sink.RefusesAt r c.start) :
    s.received.length = r := by
  rcases h.cases_of_ends hs hgrants with ⟨hcut, -, ha⟩ | ⟨seen, a, cause, -, hlast, ha, hc⟩ |
    ⟨seen, a, -, -, -, -, he⟩
  · obtain ⟨hshuffle, hportion⟩ := h.shuffle_portions hs hmode hcut hcrash
    have hall := length_of_shuffle hshuffle hportion
    have hlt : r - 1 < s.received.length := by omega
    have hsplit : s.received =
        s.received.take (r - 1) ++ [s.received[r - 1]] ++ s.received.drop (r - 1 + 1) := by
      rw [List.append_assoc, List.singleton_append, List.getElem_cons_drop, List.take_append_drop]
    rw [hsplit] at ha
    have hboth := Sink.accepts_concat.1 ha.of_append
    have hcount : (s.received.take (r - 1)).length + 1 = r := by
      rw [List.length_take]
      omega
    obtain ⟨cause, hc⟩ := (hr _ s.received[r - 1] hboth.1).2 hcount
    rw [hboth.2] at hc
    cases hc
  · have hcount := (hr seen a ha).1 ⟨cause, hc⟩
    rw [hlast, List.length_append]
    exact hcount
  · rw [hmode, Mode.endsWith] at he
    simp at he

/-- If the arguments are not refused, only a crash or a launch makes the search itself fail. -/
theorem cause_of_search_error (h : c.Admitted) {schedule : Schedule} {cause : SearchError}
    (hresult : (c.search schedule).result = .error (.search cause)) :
    cause = .workerFailed ∨ ∃ reason, cause = .launchFailed reason := by
  have hs := c.ends_last schedule
  rw [h.search_eq] at hresult
  rcases (c.last schedule).hasCrashed_or_not with hcrashed | hcrash
  · rw [State.outcome_of_hasCrashed hcrashed] at hresult
    cases hresult
    exact .inl rfl
  · cases hfailure : (c.last schedule).failure with
    | none =>
      rw [State.outcome_of_no_failure hcrash hfailure] at hresult
      cases hresult
    | some failure =>
      rw [State.outcome_of_failure hcrash hfailure] at hresult
      obtain rfl := Except.error.inj hresult
      rcases h.grants_or_denied hs with hgrants | ⟨n, reason, -, hf, -⟩
      · exact absurd hfailure (h.failure_ne_search hs.reaches hgrants cause)
      · cases hfailure.symm.trans hf
        exact .inr ⟨reason, rfl⟩

end Admitted

end Call

/-- How a search by a pool fails, under every order of moves. Refused arguments are reported in a
fixed order and never reach the sink. If the machine makes every thread, other searches fail exactly
if a worker crashes or the sink refuses an attempt. A thread that it does not make is reported, and the
sink is given nothing then. A crash outweighs the other failures, and after a refusal the sink is
called no more. -/
theorem search_failures (c : Call τ ε) :
    (c.plan.nonceLength = 0 → ∀ schedule,
      c.search schedule = ⟨.error (.search (.emptyNonce 0)), c.start, []⟩) ∧
    (0 < c.plan.nonceLength → c.puzzle.hasher.outputLength ≠ c.puzzle.threshold.length →
      ∀ schedule, c.search schedule =
        ⟨.error (.search (.wrongLength
          ⟨c.puzzle.threshold.length, c.puzzle.hasher.outputLength⟩)), c.start, []⟩) ∧
    (0 < c.plan.nonceLength → c.puzzle.hasher.outputLength = c.puzzle.threshold.length →
      (∀ s, c.Reaches s → ∀ item ∈ s.queue, ∃ a, item = .ok a) ∧
      ∀ s, c.Ends s →
        (c.launcher.Grants c.count →
          ((∃ failure, s.outcome = .error failure) ↔
            (∃ w ∈ s.workers, w.hasCrashed = true) ∨
              ∃ cause, .error cause ∈ c.sink.answers s.received c.start)) ∧
        (∀ n cause, c.launcher.Denies c.count n cause → s.received = [] ∧
          ((∀ w ∈ s.workers, w.hasCrashed = false) →
            s.outcome = .error (.search (.launchFailed cause)))) ∧
        ((∃ w ∈ s.workers, w.hasCrashed = true) →
          s.outcome = .error (.search .workerFailed)) ∧
        ((∀ w ∈ s.workers, w.hasCrashed = false) →
          ∀ cause, .error cause ∈ c.sink.answers s.received c.start →
            s.outcome = .error (.refused cause)) ∧
        (∀ seen a later cause, s.received = seen ++ a :: later →
          (c.sink a (c.sink.after seen c.start)).1 = .error cause → later = []) ∧
        (c.launcher.Grants c.count → c.workers.mode = .exhaustive →
          (∀ w ∈ s.workers, w.hasCrashed = false) →
          ∀ r, 1 ≤ r → r ≤ c.plan.attempts → c.sink.RefusesAt r c.start →
            s.received.length = r)) := by
  refine ⟨?_, ?_, ?_⟩
  · intro hempty schedule
    exact Call.search_of_refusal? (Call.refusal?_of_emptyNonce hempty) schedule
  · intro hnonce hlength schedule
    exact Call.search_of_refusal? (Call.refusal?_of_wrongLength hnonce hlength) schedule
  · intro hnonce hlength
    have h : c.Admitted := ⟨hnonce, hlength⟩
    refine ⟨fun s hs item hitem => h.exists_ok hs hitem, ?_⟩
    intro s hs
    refine ⟨fun hgrants => h.exists_error_iff hs hgrants, ?_, State.outcome_of_hasCrashed,
      ?_, ?_, ?_⟩
    · intro n cause hdenies
      obtain ⟨hfailure, hreceived⟩ := h.of_denies hs hdenies
      exact ⟨hreceived, fun hcrash => State.outcome_of_failure hcrash hfailure⟩
    · intro hcrash cause hcause
      exact h.outcome_of_refused hs hcrash hcause
    · intro seen a later cause hr hc
      exact h.eq_nil_of_refused hs hr hc
    · intro hgrants hmode hcrash r hpos hle hr
      exact h.length_of_refusesAt hs hgrants hmode hcrash hpos hle hr

theorem search_failures_third_refused :
    let c := (Call.easy ⟨5, 8⟩ ⟨2, some 1, .exhaustive, false⟩).withSink (Sink.refusing 3) 0
    let d := { c with launcher := fun n => if n = 0 then .ok () else .error "no thread" }
    (∃ s, c.Ends s ∧ s.received.length = 3 ∧ s.outcome = .error (.refused ())) ∧
    ∃ s, d.Ends s ∧ s.received = [] ∧
      s.outcome = .error (.search (.launchFailed "no thread")) := by
  intro c d
  constructor
  · have h : c.Admitted := ⟨by decide, rfl⟩
    have hs := c.ends_last .managerFirst
    have hcrash := h.not_hasCrashed_of_total hs.reaches (fun _ => rfl) (by decide)
    obtain ⟨-, -, hadmitted⟩ := search_failures c
    obtain ⟨-, hends⟩ := hadmitted h.nonceLength_pos h.length_eq
    obtain ⟨-, -, -, hrefused, -, hlength⟩ := hends _ hs
    have hthree := hlength (Launcher.willing_grants _) rfl hcrash 3 (by decide) (by decide)
      (Sink.refusing_refusesAt 3)
    refine ⟨_, hs, hthree, hrefused hcrash () ?_⟩
    obtain ⟨a₁, a₂, a₃, hreceived⟩ := List.length_eq_three.1 hthree
    have hanswers : c.sink.answers [a₁, a₂, a₃] c.start = [.ok (), .ok (), .error ()] := rfl
    rw [hreceived, hanswers]
    simp
  · have h : d.Admitted := ⟨by decide, rfl⟩
    have hs := d.ends_last .managerFirst
    have hcrash := h.not_hasCrashed_of_total hs.reaches (fun _ => rfl) (by decide)
    -- the first worker is launched, and the second one is not
    have hdenies : d.launcher.Denies d.count 1 "no thread" := by
      refine ⟨by decide, ?_, rfl⟩
      intro i hi
      obtain rfl : i = 0 := by omega
      rfl
    obtain ⟨-, -, hadmitted⟩ := search_failures d
    obtain ⟨-, hends⟩ := hadmitted h.nonceLength_pos h.length_eq
    obtain ⟨-, hdenied, -⟩ := hends _ hs
    obtain ⟨hreceived, houtcome⟩ := hdenied 1 _ hdenies
    exact ⟨_, hs, hreceived, houtcome hcrash⟩

end ProofOfWork.Pool

import ProofOfWork.Pool.Search
import ProofOfWork.Proofs.Pool.Arrivals
import ProofOfWork.Proofs.Pool.Share
import ProofOfWork.Proofs.Search.Completion
import ProofOfWork.Random.Stream

/-!
Calls of the pool, and how what their workers yield compares with the sequential searches of the
same streams.
-/
namespace ProofOfWork.Pool

/-- All that a search by a pool is given. -/
structure Call (τ ε : Type) where
  puzzle : Puzzle
  plan : Plan
  workers : Workers
  entropy : Entropy
  launcher : Launcher
  sink : Sink τ ε
  start : τ

namespace Call

variable (c : Call τ ε)

def stream (index : Nat) : ChaCha.Generator :=
  streamOf c.entropy c.workers.seed index

def search (schedule : Schedule) : Outcome τ ε :=
  Pool.search c.puzzle c.plan c.workers ChaCha.source (fun i => .ok (c.stream i)) c.launcher
    schedule c.sink c.start

def count : Nat :=
  workerCount c.workers.threads c.plan.attempts

def rules : Rules (Search ChaCha.Generator) τ ε :=
  c.workers.rules c.launcher c.sink

def first : State (Search ChaCha.Generator) (List Attempt × τ) ε :=
  opening c.puzzle c.plan c.workers ChaCha.source (fun i => .ok (c.stream i)) ([], c.start)

def Reaches (s : State (Search ChaCha.Generator) (List Attempt × τ) ε) : Prop :=
  Pool.Reaches c.rules.noting c.first s

/-- Some order of moves ends in the state. -/
def Ends (s : State (Search ChaCha.Generator) (List Attempt × τ) ε) : Prop :=
  Pool.Ends c.rules.noting c.first s

def last (schedule : Schedule) : State (Search ChaCha.Generator) (List Attempt × τ) ε :=
  c.first.run c.rules.noting schedule 0

/-- What the sequential search of a stream yields if it makes all attempts. -/
def sequential (index : Nat) : List Item :=
  match Search.start c.puzzle c.plan ChaCha.source (c.stream index) with
  | .error cause => [.error cause]
  | .ok search => search.items

/-- The first items of the sequential search, as many as the worker has attempts to make. -/
def share (index : Nat) : List Item :=
  (c.sequential index).take (Pool.share c.plan.attempts c.count index)

def portion (index : Nat) : List Attempt :=
  attemptsOf (c.share index)

variable {c} {s : State (Search ChaCha.Generator) (List Attempt × τ) ε}

theorem count_pos : 0 < c.count :=
  workerCount_pos _ _

/-- The arguments are those of a search that can start. -/
structure Admitted (c : Call τ ε) : Prop where
  nonceLength_pos : 0 < c.plan.nonceLength
  length_eq : c.puzzle.hasher.outputLength = c.puzzle.threshold.length

theorem Admitted.refusal?_eq_none (h : c.Admitted) :
    Search.refusal? c.puzzle c.plan = none :=
  Search.refusal?_eq_none_iff.2 ⟨h.nonceLength_pos, h.length_eq⟩

theorem admitted_of_refusal?_eq_none (h : Search.refusal? c.puzzle c.plan = none) :
    c.Admitted := by
  obtain ⟨hnonce, hlength⟩ := Search.refusal?_eq_none_iff.1 h
  exact ⟨hnonce, hlength⟩

theorem ends_last (c : Call τ ε) (schedule : Schedule) : c.Ends (c.last schedule) :=
  State.ends_run _ _ _ schedule

/-- The schedules lead exactly to the states in which some order of moves ends. -/
theorem ends_iff : c.Ends s ↔ ∃ schedule, c.last schedule = s :=
  ends_iff_exists_schedule

/-- What an admitted call returns is read off the state in which its workers have ended. -/
theorem Admitted.search_eq (h : c.Admitted) (schedule : Schedule) :
    c.search schedule = ⟨(c.last schedule).outcome, (c.last schedule).sink.2,
      [c.workers.startLog c.plan.attempts]⟩ := by
  rw [search, Pool.search, h.refusal?_eq_none]
  show Outcome.mk ((State.forget c.first).run c.rules schedule 0).outcome
    ((State.forget c.first).run c.rules schedule 0).sink _ = _
  rw [← State.forget_run]
  rfl

def whole (c : Call τ ε) (index : Nat) : Search ChaCha.Generator where
  puzzle := c.puzzle
  source := ChaCha.source
  nonceLength := c.plan.nonceLength
  mode := .exhaustive
  state := c.stream index
  remaining := c.plan.attempts
  ended := false

def task (c : Call τ ε) (index : Nat) : Search ChaCha.Generator :=
  { c.whole index with
    mode := c.workers.mode
    remaining := Pool.share c.plan.attempts c.count index }

def tasks (c : Call τ ε) : List (Search ChaCha.Generator) :=
  (List.range c.count).map c.task

theorem tasks_getElem? {index : Nat} (h : index < c.count) :
    c.tasks[index]? = some (c.task index) := by
  rw [tasks, List.getElem?_map, List.getElem?_range h]
  rfl

theorem items_task (index : Nat) : (c.task index).items =
    (c.task index).itemsFrom (Pool.share c.plan.attempts c.count index) (c.stream index) :=
  Search.items_eq (c.task index) rfl

@[simp] theorem length_tasks : c.tasks.length = c.count := by
  rw [tasks, List.length_map, List.length_range]

namespace Admitted

variable (h : c.Admitted)

include h

theorem first_eq : c.first = .initial (c.tasks.map .ok) ([], c.start) := by
  have hstarts : ∀ i, (do
      let state ← (.ok (c.stream i) : Except SearchError ChaCha.Generator)
      let search ← Search.start c.puzzle
        { c.plan with attempts := Pool.share c.plan.attempts c.count i } ChaCha.source state
      return search.inMode c.workers.mode) = Except.ok (c.task i) := by
    intro i
    have hnone : Search.refusal? c.puzzle
        { c.plan with attempts := Pool.share c.plan.attempts c.count i } = none :=
      h.refusal?_eq_none
    simp only [Search.start, hnone]
    rfl
  rw [first, opening, starts, tasks, List.map_map]
  exact congrArg (State.initial · _) (List.map_congr_left fun i _ => hstarts i)

theorem start_eq (index : Nat) :
    Search.start c.puzzle c.plan ChaCha.source (c.stream index) = .ok (c.whole index) := by
  rw [Search.start, h.refusal?_eq_none]
  rfl

theorem share_eq (index : Nat) : c.share index =
    (c.whole index).itemsFrom (Pool.share c.plan.attempts c.count index) (c.stream index) := by
  rw [share, sequential, h.start_eq, Search.itemsFrom_take _ (share_le _ _ _)]
  exact congrArg (List.take _) (Search.items_eq _ rfl)

theorem items_exhaustive (hmode : c.workers.mode = .exhaustive) (index : Nat) :
    (c.task index).items = c.share index := by
  rw [h.share_eq, task, hmode]
  exact Search.items_live (c.whole index) _ _

/-- In search of the first pass a worker yields its share up to the first pass. -/
theorem items_firstPass (hmode : c.workers.mode = .firstPass) (index : Nat) :
    (c.task index).items = upToFirst Item.passes (c.share index) := by
  have hcut := Search.itemsFrom_inMode_firstPass (c.whole index)
    (Pool.share c.plan.attempts c.count index) (c.stream index)
  rw [h.share_eq, task, hmode]
  exact (Search.items_live ((c.whole index).inMode .firstPass) _ _).trans hcut

theorem items_isPrefix (index : Nat) :
    (c.task index).items <+: c.share index := by
  cases hmode : c.workers.mode with
  | exhaustive => exact ⟨[], by rw [List.append_nil, h.items_exhaustive hmode]⟩
  | firstPass =>
    rw [h.items_firstPass hmode]
    exact upToFirst_isPrefix _ _

theorem breaksDown_or_ok {index : Nat} {item : Item} (hitem : item ∈ c.share index) :
    Item.breaksDown item = true ∨ ∃ a, item = .ok a := by
  rw [h.share_eq] at hitem
  obtain ⟨-, state, rfl⟩ := Search.exists_pullAt_of_mem hitem
  exact Search.pullAt_breaksDown_or_ok ChaCha.source_neverFails state

theorem attempts_pos {index : Nat} {item : Item} (hitem : item ∈ c.share index) :
    0 < c.plan.attempts := by
  rw [h.share_eq] at hitem
  have hpos := (Search.exists_pullAt_of_mem hitem).1
  exact Nat.lt_of_lt_of_le hpos (share_le _ _ _)

theorem exists_mem_share (hattempts : 0 < c.plan.attempts) : ∃ item, item ∈ c.share 0 := by
  obtain ⟨n, hn⟩ := Nat.exists_eq_succ_of_ne_zero
    (Nat.ne_of_gt (share_zero_pos hattempts (count_pos (c := c))))
  rw [h.share_eq, hn, Search.itemsFrom]
  exact ⟨_, List.mem_cons_self⟩

/-- The attempts of a worker are attempts at the puzzle. -/
theorem exists_attempt_of_mem_portion {index : Nat} {a : Attempt} (ha : a ∈ c.portion index) :
    ∃ nonce : Block c.plan.nonceLength, c.puzzle.attempt nonce.val = some a := by
  have hitem := mem_attemptsOf.1 ha
  rw [h.share_eq] at hitem
  obtain ⟨-, state, hpull⟩ := Search.exists_pullAt_of_mem hitem
  exact Search.exists_attempt_of_pullAt (s := c.whole index) hpull.symm

/-- A breakdown is one of the hasher, or all attempts break down since no memory holds a nonce. -/
theorem breaksDown_iff :
    (∃ i < c.count, ∃ item ∈ c.share i, Item.breaksDown item = true) ↔
      0 < c.plan.attempts ∧ Bytes.lengthLimit < c.plan.nonceLength ∨
        ∃ i < c.count, .error .hasherFailed ∈ c.share i := by
  constructor
  · rintro ⟨i, hi, item, hitem, hb⟩
    by_cases hlong : Bytes.lengthLimit < c.plan.nonceLength
    · exact .inl ⟨h.attempts_pos hitem, hlong⟩
    · refine .inr ⟨i, hi, ?_⟩
      have hpull := hitem
      rw [h.share_eq] at hpull
      obtain ⟨-, state, rfl⟩ := Search.exists_pullAt_of_mem hpull
      rwa [← Search.pullAt_of_breaksDown (s := c.whole i) ChaCha.source_neverFails
        (Nat.not_lt.1 hlong) hb]
  · rintro (⟨hattempts, hlong⟩ | ⟨i, hi, hfailed⟩)
    · obtain ⟨item, hitem⟩ := h.exists_mem_share hattempts
      refine ⟨0, count_pos, item, hitem, ?_⟩
      rw [h.share_eq] at hitem
      obtain ⟨-, state, rfl⟩ := Search.exists_pullAt_of_mem hitem
      rw [Search.pullAt_of_tooLong (s := c.whole 0) hlong]
      rfl
    · exact ⟨i, hi, _, hfailed, rfl⟩

/-- Nothing breaks down if the hasher never does and memory holds the nonces. -/
theorem exists_ok_of_total (htotal : c.puzzle.hasher.Total)
    (hfits : c.plan.attempts = 0 ∨ c.plan.nonceLength ≤ Bytes.lengthLimit) {index : Nat}
    {item : Item} (hitem : item ∈ c.share index) : ∃ a, item = .ok a := by
  have hattempts := h.attempts_pos hitem
  rw [h.share_eq] at hitem
  obtain ⟨-, state, rfl⟩ := Search.exists_pullAt_of_mem hitem
  refine Search.exists_ok_pullAt ChaCha.source_neverFails htotal ?_ state
  exact hfits.resolve_left (Nat.ne_of_gt hattempts)

/-- Without a breakdown the share holds as many attempts as the worker has to make. -/
theorem length_portion {index : Nat}
    (hsound : ∀ item ∈ c.share index, Item.breaksDown item = false) :
    (c.portion index).length = Pool.share c.plan.attempts c.count index := by
  have hok : ∀ item ∈ c.share index, ∃ a, item = .ok a := by
    intro item hitem
    rcases h.breaksDown_or_ok hitem with hb | hok
    · rw [hsound item hitem] at hb
      cases hb
    · exact hok
  have hitems := (map_ok_attemptsOf hok).trans (h.share_eq index)
  exact (Search.completes_of_itemsFrom (s := c.whole index) hitems.symm).length_eq

end Admitted

/-- Parts that are as long as the shares hold all attempts. -/
theorem length_of_shuffle {part : Nat → List Attempt} {attempts : List Attempt}
    (hshuffle : Shuffle ((List.range c.count).map part) attempts)
    (hpart : ∀ i < c.count, (part i).length = Pool.share c.plan.attempts c.count i) :
    attempts.length = c.plan.attempts := by
  calc attempts.length
      = (((List.range c.count).map part).map List.length).sum := hshuffle.length_eq
    _ = ((List.range c.count).map (Pool.share c.plan.attempts c.count)).sum := by
        rw [List.map_map]
        refine congrArg List.sum (List.map_congr_left fun i hi => ?_)
        exact hpart i (List.mem_range.1 hi)
    _ = c.plan.attempts := sum_share _ count_pos

/-- A call whose hasher never breaks down, whose digests all pass and whose sink takes all, on a
machine that makes every thread. -/
def easy (plan : Plan) (w : Workers) : Call Unit Empty where
  puzzle :=
    { hasher := { outputLength := 4, digest := fun _ => some [0, 255, 255, 255] }
      challenge := []
      threshold := { required := 0, length := 4 } }
  plan := plan
  workers := w
  entropy := fun _ => ⟨List.replicate 32 0, List.length_replicate⟩
  launcher := .willing
  sink := fun _ _ => (.ok (), ())
  start := ()

def withSink (c : Call τ ε) (sink : Sink υ δ) (start : υ) : Call υ δ where
  puzzle := c.puzzle
  plan := c.plan
  workers := c.workers
  entropy := c.entropy
  launcher := c.launcher
  sink := sink
  start := start

theorem easy_admitted {plan : Plan} (w : Workers) (h : 0 < plan.nonceLength) :
    (easy plan w).Admitted :=
  ⟨h, rfl⟩

theorem easy_passed {plan : Plan} {w : Workers} (h : 0 < plan.nonceLength) {index : Nat}
    {a : Attempt} (ha : a ∈ (easy plan w).portion index) : a.passed = true := by
  obtain ⟨nonce, hnonce⟩ := (easy_admitted w h).exists_attempt_of_mem_portion ha
  obtain rfl := Option.some.inj hnonce
  rfl

end Call

end ProofOfWork.Pool

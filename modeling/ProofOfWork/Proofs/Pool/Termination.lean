import ProofOfWork.Pool.Search
import ProofOfWork.Proofs.Pool.Progress
import ProofOfWork.Proofs.Search.Hashing

/-!
A pool ends under every order of moves: it cannot be stuck, each move makes it smaller, and a worker
hashes at most one more nonce once the stop flag is set.
-/
namespace ProofOfWork.Pool

variable {r : Rules (Search σ) τ ε} {s u : State (Search σ) τ ε}

/-- The next move of the worker needs a digest. -/
def Worker.hashes : Worker (Search σ) → Bool
  | .pulling search => search.hashed?.isSome
  | .waiting _ | .holding _ _ | .sending _ _ | .finished | .crashed => false

namespace State

def hashes (s : State (Search σ) τ ε) (n : Nat) : Bool :=
  s.workers[n]?.any Worker.hashes

/-- The digests that worker `n` asks for while the actors move in turn; who cannot move is passed
over. -/
def digestCalls (r : Rules (Search σ) τ ε) (n : Nat) : List Actor → State (Search σ) τ ε → Nat
  | [], _ => 0
  | actor :: later, s =>
    match s.step r actor with
    | none => digestCalls r n later s
    | some t =>
      (if actor = .worker n ∧ s.hashes n = true then 1 else 0) + digestCalls r n later t

end State

namespace Worker

/-- The digests that a worker may still ask for once it can see the stop flag. -/
def callsLeft : Worker ι → Nat
  | .pulling _ | .sending _ (some _) => 1
  | .waiting _ | .holding _ _ | .sending _ none | .finished | .crashed => 0

theorem callsLeft_le_one (w : Worker ι) : w.callsLeft ≤ 1 := by
  unfold callsLeft
  split <;> omega

/-- A worker that sees the stop flag drops what it holds, so that it pulls no second time. -/
theorem Move.callsLeft_add_le {feed : Feed (Search σ)} {manager : Manager} {room : Bool}
    {w v : Worker (Search σ)} {sent : List Item} (h : Move feed manager room w v sent)
    (hs : manager.hasStopped = true) :
    (if w.hashes = true then 1 else 0) + v.callsLeft ≤ w.callsLeft := by
  cases h with
  | exhaust hnext => simp only [callsLeft]; split <;> omega
  | crash hnext hb => simp only [callsLeft]; split <;> omega
  | pull hnext hb => simp only [callsLeft]; split <;> omega
  | discard _ => simp [callsLeft, hashes]
  | offer hf =>
    rw [hs] at hf
    cases hf
  | giveUp _ => simp [callsLeft, hashes]
  | @send item rest _ _ => cases rest <;> simp [callsLeft, hashes]

end Worker

namespace State

def callsLeft (s : State (Search σ) τ ε) (n : Nat) : Nat :=
  s.workers[n]?.elim 0 Worker.callsLeft

theorem callsLeft_le_one (s : State (Search σ) τ ε) (n : Nat) : s.callsLeft n ≤ 1 := by
  unfold callsLeft
  cases s.workers[n]? with
  | none => exact Nat.zero_le 1
  | some w => exact w.callsLeft_le_one

theorem stepManager_of_hasStopped (h : s.stepManager r = some u)
    (hs : s.manager.hasStopped = true) :
    u.workers = s.workers ∧ u.manager.hasStopped = true := by
  unfold stepManager at h
  cases hm : s.manager with
  | launching n => simp [hm, Manager.hasStopped] at hs
  | receiving => simp [hm, Manager.hasStopped] at hs
  | leaving => simp [hm, Manager.hasStopped] at hs
  | stopped =>
    simp only [hm] at h
    cases h
    exact ⟨rfl, rfl⟩
  | joining =>
    simp only [hm] at h
    split at h
    · cases h
      exact ⟨rfl, rfl⟩
    · cases h
  | returned => simp [hm] at h

theorem step_callsLeft {actor : Actor} (h : s.step r actor = some u)
    (hs : s.manager.hasStopped = true) (n : Nat) :
    u.manager.hasStopped = true ∧
      (if actor = .worker n ∧ s.hashes n = true then 1 else 0) + u.callsLeft n ≤
        s.callsLeft n := by
  cases actor with
  | manager =>
    obtain ⟨hw, hm⟩ := stepManager_of_hasStopped h hs
    refine ⟨hm, ?_⟩
    simp [callsLeft, hw]
  | worker m =>
    simp only [step, stepWorker] at h
    split at h
    · cases h
    · rename_i w hw
      obtain ⟨⟨v, sent⟩, hv, rfl⟩ := Option.map_eq_some_iff.1 h
      refine ⟨hs, ?_⟩
      have hlt := (List.getElem?_eq_some_iff.1 hw).1
      by_cases hmn : m = n
      · subst hmn
        have hcalls := (Worker.step_iff_move.1 hv).callsLeft_add_le hs
        simp only [callsLeft, hashes, hw, List.getElem?_set_self hlt, Option.elim_some,
          Option.any_some, true_and]
        exact hcalls
      · have hne : ¬ (Actor.worker m = Actor.worker n) := by simpa using hmn
        simp [callsLeft, hne, List.getElem?_set_ne hmn]

/-- Once the stop flag is set, no order of moves makes a worker ask for a second digest. -/
theorem digestCalls_le (hs : s.manager.hasStopped = true) (n : Nat) (actors : List Actor) :
    s.digestCalls r n actors ≤ s.callsLeft n := by
  induction actors generalizing s with
  | nil => exact Nat.zero_le _
  | cons actor later ih =>
    rw [digestCalls]
    split
    · exact ih hs
    · rename_i u hu
      obtain ⟨hu', hle⟩ := step_callsLeft hu hs n
      have hlater := ih hu'
      omega

end State

/-- Whatever the hasher, the plan, the mode and the sink, and whichever threads can be made: before
the manager has returned some actor can move, every move makes the state smaller, every schedule ends
with all workers joined, and a worker asks for at most one digest after the stop flag is set. -/
theorem search_terminates (p : Puzzle) (plan : Plan) (w : Workers) (source : Source σ)
    (stream : Nat → Except SearchError σ) (launcher : Launcher) (sink : Sink τ ε) (t : τ) :
    let rules : Rules (Search σ) τ ε := w.rules launcher sink
    let first : State (Search σ) τ ε := opening p plan w source stream t
    (∀ s, Reaches rules first s → s.manager ≠ .returned → ∃ u, Step rules s u) ∧
    (∀ s u, Step rules s u → u.size rules < s.size rules) ∧
    (∀ schedule, Ends rules first (first.run rules schedule 0)) ∧
    (∀ s, Ends rules first s →
      (∀ v ∈ s.workers, v.isGone = true) ∧ ∀ u, ¬ Step rules s u) ∧
    (∀ s, Reaches rules first s → s.manager.hasStopped = true →
      ∀ n actors, s.digestCalls rules n actors ≤ 1) := by
  intro rules first
  refine ⟨?_, ?_, ?_, ?_, ?_⟩
  · intro s hs hm
    exact hs.exists_step hm
  · rintro s u ⟨actor, hstep⟩
    exact State.size_step hstep
  · intro schedule
    exact State.ends_run _ _ _ schedule
  · intro s hs
    exact ⟨hs.reaches.orderly.joined hs.returned, hs.not_step⟩
  · intro s _ hstop n actors
    exact Nat.le_trans (State.digestCalls_le hstop n actors) (s.callsLeft_le_one n)

end ProofOfWork.Pool

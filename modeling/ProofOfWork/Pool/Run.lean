import ProofOfWork.Pool.State

/-!
Every move makes a state smaller, so every order of moves comes to an end; `run` follows the order
that a schedule asks for.
-/
namespace ProofOfWork.Pool

namespace Worker

/-- An upper bound on the moves of a worker and on the items that it still sends. -/
def size (feed : Feed ι) : Worker ι → Nat
  | .waiting (.ok i) => 4 * feed.size i + 2
  | .waiting (.error _) => 4
  | .pulling i => 4 * feed.size i + 1
  | .holding _ i => 4 * feed.size i + 4
  | .sending _ (some i) => 4 * feed.size i + 3
  | .sending _ none => 3
  | .finished => 0
  | .crashed => 0

/-- All sizes together. -/
def sizes (feed : Feed ι) : List (Worker ι) → Nat
  | [] => 0
  | w :: ws => w.size feed + sizes feed ws

theorem sizes_set (feed : Feed ι) {ws : List (Worker ι)} {n : Nat} {w : Worker ι} (v : Worker ι)
    (h : ws[n]? = some w) : sizes feed (ws.set n v) + w.size feed = sizes feed ws + v.size feed := by
  induction ws generalizing n with
  | nil => cases h
  | cons u ws ih =>
    cases n with
    | zero =>
      cases h
      simp only [List.set_cons_zero, sizes]
      omega
    | succ n =>
      have := ih (n := n) h
      simp only [List.set_cons_succ, sizes]
      omega

theorem size_launch_le (feed : Feed ι) (w : Worker ι) : w.launch.size feed ≤ w.size feed := by
  cases w with
  | waiting start => cases start <;> simp [launch, size]
  | _ => exact Nat.le_refl _

theorem size_dismiss_le (feed : Feed ι) (w : Worker ι) : w.dismiss.size feed ≤ w.size feed := by
  cases w with
  | waiting start => exact Nat.zero_le _
  | _ => exact Nat.le_refl _

theorem sizes_dismiss_le (feed : Feed ι) (ws : List (Worker ι)) :
    sizes feed (ws.map dismiss) ≤ sizes feed ws := by
  induction ws with
  | nil => exact Nat.le_refl _
  | cons w ws ih => exact Nat.add_le_add (w.size_dismiss_le feed) ih

theorem size_step {feed : Feed ι} {manager : Manager} {room : Bool} {w v : Worker ι}
    {sent : List Item} (h : w.step feed manager room = some (v, sent)) :
    v.size feed + sent.length < w.size feed := by
  cases w with
  | waiting start => cases h
  | pulling i =>
    simp only [step] at h
    split at h
    · cases h; simp [size]
    · rename_i item rest hnext
      cases h
      have := feed.size_next hnext
      unfold pulled
      split
      · split <;> simp only [size, List.length_nil] <;> omega
      · simp only [size, List.length_nil]
        omega
  | holding item i =>
    simp only [step] at h
    split at h <;> cases h <;> simp [size]
  | sending item rest =>
    simp only [step] at h
    split at h
    · cases h
      cases rest <;> simp [size]
    · split at h <;> cases h
      cases rest <;> simp [size]
  | finished => cases h
  | crashed => cases h

end Worker

/-- Moves of the manager other than taking items. -/
def Manager.size (workers : Nat) : Manager → Nat
  | .launching n => workers - n + 5
  | .receiving => 4
  | .leaving => 3
  | .stopped => 2
  | .joining => 1
  | .returned => 0

namespace State

def size (r : Rules ι τ ε) (s : State ι τ ε) : Nat :=
  Worker.sizes r.feed s.workers + s.queue.length + s.manager.size s.workers.length

private theorem size_receive (r : Rules ι τ ε) (s : State ι τ ε) {item : Item} {rest : List Item}
    (hm : s.manager = .receiving) (hq : s.queue = item :: rest) :
    (s.receive r item rest).size r < s.size r := by
  unfold receive
  split
  · simp only [size, Manager.size, hm, hq, List.length_cons]; omega
  · split
    · simp only [size, Manager.size, hm, hq, List.length_cons]; omega
    · simp only [size, hm, hq]
      split <;> simp only [Manager.size, List.length_cons] <;> omega

theorem size_stepManager {r : Rules ι τ ε} {s t : State ι τ ε}
    (h : s.stepManager r = some t) : t.size r < s.size r := by
  unfold stepManager at h
  split at h
  · rename_i n hm
    split at h
    · rename_i w hw _
      cases h
      have := Worker.sizes_set r.feed w.launch hw
      have := w.size_launch_le r.feed
      have := (List.getElem?_eq_some_iff.1 hw).1
      simp only [size, hm, Manager.size, List.length_set]
      omega
    · cases h
      have := Worker.sizes_dismiss_le r.feed s.workers
      simp only [abandon, size, hm, Manager.size]
      omega
    · cases h
      simp only [size, hm, Manager.size]
      omega
  · rename_i hm
    split at h
    · rename_i hq
      cases h
      exact size_receive r s hm hq
    · split at h <;> cases h
      simp [size, hm, Manager.size]
  · rename_i hm
    cases h
    simp [size, hm, Manager.size]
  · rename_i hm
    cases h
    simp only [size, hm, Manager.size, List.length_nil]
    omega
  · rename_i hm
    split at h <;> cases h
    simp [size, hm, Manager.size]
  · cases h

theorem size_stepWorker {r : Rules ι τ ε} {n : Nat} {s t : State ι τ ε}
    (h : s.stepWorker r n = some t) : t.size r < s.size r := by
  unfold stepWorker at h
  split at h
  · cases h
  · rename_i w hw
    obtain ⟨⟨v, sent⟩, hv, rfl⟩ := Option.map_eq_some_iff.1 h
    have := Worker.size_step hv
    have := Worker.sizes_set r.feed v hw
    simp only [size, List.length_append, List.length_set]
    omega

theorem size_step {r : Rules ι τ ε} {s t : State ι τ ε} {actor : Actor}
    (h : s.step r actor = some t) : t.size r < s.size r := by
  cases actor with
  | manager => exact size_stepManager h
  | worker n => exact size_stepWorker h

/-- The actors that may have a move, the manager first. -/
def actors (s : State ι τ ε) : List Actor :=
  .manager :: s.workers.zipIdx.filterMap fun (w, n) => if w.isGone then none else some (.worker n)

/-- The move of the preferred actor, or of the first other one that has a move. -/
def advance (r : Rules ι τ ε) (preferred : Actor) (s : State ι τ ε) : Option (State ι τ ε) :=
  (preferred :: s.actors).findSome? (s.step r)

theorem step_of_advance {r : Rules ι τ ε} {preferred : Actor} {s t : State ι τ ε}
    (h : s.advance r preferred = some t) : Step r s t := by
  obtain ⟨actor, -, h⟩ := List.exists_of_findSome?_eq_some h
  exact ⟨actor, h⟩

/-- The state in which no actor has a move; `time` counts the moves before. -/
def run (r : Rules ι τ ε) (schedule : Schedule) (time : Nat) (s : State ι τ ε) : State ι τ ε :=
  match h : s.advance r (schedule time) with
  | none => s
  | some t =>
    have : t.size r < s.size r :=
      let ⟨_, h⟩ := step_of_advance h
      size_step h
    run r schedule (time + 1) t
termination_by s.size r

end State

end ProofOfWork.Pool

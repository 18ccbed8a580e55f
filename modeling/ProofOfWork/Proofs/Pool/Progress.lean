import Mathlib.Logic.Relation
import ProofOfWork.Pool.Run
import ProofOfWork.Proofs.Pool.Moves

/-!
A pool is never stuck before its manager has returned, and it has returned after finitely many
moves, in whatever order the actors move.
-/
namespace ProofOfWork.Pool

variable {r : Rules ι τ ε} {starts : List (Except SearchError ι)} {t : τ} {s : State ι τ ε}

/-- Any number of moves in any order. -/
abbrev Reaches (r : Rules ι τ ε) : State ι τ ε → State ι τ ε → Prop :=
  Relation.ReflTransGen (Step r)

/-- Some order of moves leads to a state in which the manager has returned. -/
structure Ends (r : Rules ι τ ε) (first last : State ι τ ε) : Prop where
  reaches : Reaches r first last
  returned : last.manager = .returned

/-- What one move keeps holds of every state that is reached. -/
theorem Reaches.invariant {P : State ι τ ε → Prop} {first last : State ι τ ε}
    (h : Reaches r first last) (hfirst : P first)
    (hmove : ∀ s t, P s → Move r s t → P t) : P last := by
  induction h with
  | refl => exact hfirst
  | tail _ hstep ih => exact hmove _ _ ih (move_of_step hstep)

namespace State

/-- Workers wait only for a manager who has not come to them yet, and are gone when he returns. -/
structure Orderly (s : State ι τ ε) : Prop where
  launched : ∀ i start, s.workers[i]? = some (.waiting start) →
    ∃ n, s.manager = .launching n ∧ n ≤ i
  joined : s.manager = .returned → ∀ w ∈ s.workers, w.isGone = true

theorem orderly_initial (starts : List (Except SearchError ι)) (t : τ) :
    (initial starts t : State ι τ ε).Orderly where
  launched := fun i _ _ => ⟨0, rfl, Nat.zero_le i⟩
  joined := by
    intro h
    cases h

end State

namespace Worker

theorem dismiss_ne_waiting (w : Worker ι) (start : Except SearchError ι) :
    w.dismiss ≠ .waiting start := by
  cases w <;> simp [dismiss]

theorem launch_ne_waiting (w : Worker ι) (start : Except SearchError ι) :
    w.launch ≠ .waiting start := by
  cases w with
  | waiting start => cases start <;> simp [launch]
  | _ => simp [launch]

namespace Move

variable {feed : Feed ι} {manager : Manager} {room : Bool} {w v : Worker ι} {sent : List Item}

theorem isGone_eq_false (h : Move feed manager room w v sent) : w.isGone = false := by
  cases h <;> rfl

theorem ne_waiting (h : Move feed manager room w v sent) (start : Except SearchError ι) :
    v ≠ .waiting start := by
  cases h with
  | send => rename_i rest _ _; cases rest <;> simp
  | _ => simp

end Move

/-- A worker who still waits where one was replaced is another one. -/
theorem waiting_of_set {workers : List (Worker ι)} {w v : Worker ι} {i n : Nat}
    {start : Except SearchError ι} (hw : workers[n]? = some w) (hv : v ≠ .waiting start)
    (hi : (workers.set n v)[i]? = some (.waiting start)) :
    i ≠ n ∧ workers[i]? = some (.waiting start) := by
  have hin : i ≠ n := by
    rintro rfl
    rw [List.getElem?_set_self (List.getElem?_eq_some_iff.1 hw).1] at hi
    exact hv (Option.some.inj hi)
  rw [List.getElem?_set_ne hin.symm] at hi
  exact ⟨hin, hi⟩

end Worker

theorem State.Orderly.move {s u : State ι τ ε} (h : s.Orderly) (hmove : Move r s u) :
    u.Orderly := by
  cases hmove with
  | abandon =>
    refine ⟨?_, by simp [abandon]⟩
    intro i start hi
    obtain ⟨w, -, hw⟩ := List.mem_map.1 (List.mem_of_getElem? hi)
    exact absurd hw (w.dismiss_ne_waiting start)
  | @launch n w hm hw =>
    refine ⟨?_, by simp⟩
    intro i start hi
    refine ⟨n + 1, rfl, ?_⟩
    obtain ⟨hin, hi⟩ := Worker.waiting_of_set hw (w.launch_ne_waiting start) hi
    obtain ⟨m, hm', hle⟩ := h.launched i start hi
    have hmn : m = n := by simpa [hm] using hm'.symm
    omega
  | @listen n hm hn =>
    refine ⟨?_, by simp⟩
    intro i start (hi : s.workers[i]? = some (.waiting start))
    obtain ⟨m, hm', hle⟩ := h.launched i start hi
    have hmn : m = n := by simpa [hm] using hm'.symm
    have hlt := (List.getElem?_eq_some_iff.1 hi).1
    have hlen := List.getElem?_eq_none_iff.1 hn
    omega
  | @work n w v sent hw hmove =>
    refine ⟨?_, ?_⟩
    · intro i start hi
      exact h.launched i start (Worker.waiting_of_set hw (hmove.ne_waiting start) hi).2
    · intro hm
      have hgone := h.joined hm w (List.mem_of_getElem? hw)
      rw [hmove.isGone_eq_false] at hgone
      cases hgone
  | join hm hg =>
    refine ⟨?_, fun _ => hg⟩
    intro i start hi
    have := hg _ (List.mem_of_getElem? hi)
    cases this
  | fail hm | refuse hm | finish hm | accept hm | drain hm | stop hm | close hm =>
    refine ⟨?_, by simp⟩
    intro i start hi
    obtain ⟨n, hn, -⟩ := h.launched i start hi
    rw [hm] at hn
    cases hn

theorem Reaches.orderly (h : Reaches r (.initial starts t) s) : s.Orderly :=
  h.invariant (State.orderly_initial starts t) fun _ _ => State.Orderly.move

/-- A worker that is launched and not gone can move unless a full queue blocks it. -/
theorem Worker.exists_move {feed : Feed ι} {manager : Manager} {room : Bool} {w : Worker ι}
    (hwait : ∀ start, w ≠ .waiting start) (hgone : w.isGone = false)
    (hroom : manager.isOpen = true → room = true) :
    ∃ v sent, Move feed manager room w v sent := by
  cases w with
  | waiting start => exact absurd rfl (hwait start)
  | pulling i =>
    cases hnext : feed.next i with
    | none => exact ⟨_, _, .exhaust hnext⟩
    | some next =>
      obtain ⟨item, j⟩ := next
      cases hb : Item.breaksDown item with
      | true => exact ⟨_, _, .crash hnext hb⟩
      | false => exact ⟨_, _, .pull hnext hb⟩
  | holding item i =>
    cases hs : manager.hasStopped with
    | true => exact ⟨_, _, .discard hs⟩
    | false => exact ⟨_, _, .offer hs⟩
  | sending item rest =>
    cases ho : manager.isOpen with
    | true => exact ⟨_, _, .send ho (hroom ho)⟩
    | false => exact ⟨_, _, .giveUp ho⟩
  | finished => cases hgone
  | crashed => cases hgone

/-- The manager waits for workers, and one of them can move then: a queue that is full is
received from, and without a receiver no worker waits for room. Workers that are never launched are
not waited for. -/
theorem Reaches.exists_step (h : Reaches r (.initial starts t) s) (hm : s.manager ≠ .returned) :
    ∃ u, Step r s u := by
  have worker_moves (hwait : ∀ n, s.manager ≠ .launching n) {w : Worker ι} (hw : w ∈ s.workers)
      (hgone : w.isGone = false) (hroom : s.manager.isOpen = true → s.queue = []) :
      ∃ u, Step r s u := by
    obtain ⟨n, hn⟩ := List.getElem?_of_mem hw
    have hlaunched : ∀ start, w ≠ .waiting start := by
      rintro start rfl
      obtain ⟨m, hm', -⟩ := h.orderly.launched n start hn
      exact hwait m hm'
    have hfree : s.manager.isOpen = true → decide (s.queue.length < capacity) = true := by
      intro ho
      rw [hroom ho]
      rfl
    obtain ⟨v, sent, hv⟩ : ∃ v sent, w.Move r.feed s.manager _ v sent :=
      Worker.exists_move hlaunched hgone hfree
    exact ⟨_, step_of_move (.work hn hv)⟩
  cases hman : s.manager with
  | launching n =>
    cases hw : s.workers[n]? with
    | none => exact ⟨_, step_of_move (.listen hman hw)⟩
    | some w =>
      cases hanswer : r.launcher n with
      | ok => exact ⟨_, step_of_move (.launch hman hw hanswer)⟩
      | error cause =>
        have hlt := (List.getElem?_eq_some_iff.1 hw).1
        exact ⟨_, step_of_move (.abandon hman hlt hanswer)⟩
  | receiving =>
    cases hq : s.queue with
    | cons item rest => exact ⟨_, step_of_move (move_of_receive hman hq)⟩
    | nil =>
      by_cases hg : ∀ w ∈ s.workers, w.isGone = true
      · exact ⟨_, step_of_move (.drain hman hq hg)⟩
      · obtain ⟨w, hw, hgone⟩ : ∃ w ∈ s.workers, w.isGone = false := by simpa using hg
        exact worker_moves (by simp [hman]) hw hgone (fun _ => hq)
  | leaving => exact ⟨_, step_of_move (.stop hman)⟩
  | stopped => exact ⟨_, step_of_move (.close hman)⟩
  | joining =>
    by_cases hg : ∀ w ∈ s.workers, w.isGone = true
    · exact ⟨_, step_of_move (.join hman hg)⟩
    · obtain ⟨w, hw, hgone⟩ : ∃ w ∈ s.workers, w.isGone = false := by simpa using hg
      exact worker_moves (by simp [hman]) hw hgone (by simp [hman, Manager.isOpen])
  | returned => exact absurd hman hm

theorem Ends.not_step (h : Ends r (.initial starts t) s) (u : State ι τ ε) : ¬ Step r s u := by
  intro hstep
  have hm := h.returned
  cases move_of_step hstep with
  | work hw hmove =>
    have hgone := h.reaches.orderly.joined hm _ (List.mem_of_getElem? hw)
    rw [hmove.isGone_eq_false] at hgone
    cases hgone
  | _ => simp_all

/-- One actor moves first, and the order of the others follows. -/
def Schedule.startingWith (first : Actor) (schedule : Schedule) : Schedule
  | 0 => first
  | time + 1 => schedule time

namespace State

theorem mem_actors_of_step {actor : Actor} {u : State ι τ ε} (h : s.step r actor = some u) :
    actor ∈ s.actors := by
  cases actor with
  | manager => exact List.mem_cons_self
  | worker n =>
    simp only [step, stepWorker] at h
    split at h
    · cases h
    · rename_i w hw
      obtain ⟨⟨v, sent⟩, hv, -⟩ := Option.map_eq_some_iff.1 h
      have hgone := (Worker.step_iff_move.1 hv).isGone_eq_false
      refine List.mem_cons_of_mem _ (List.mem_filterMap.2 ⟨(w, n), ?_, by simp [hgone]⟩)
      exact List.mem_zipIdx_iff_getElem?.2 hw

theorem advance_ne_none {u : State ι τ ε} (h : Step r s u) (preferred : Actor) :
    s.advance r preferred ≠ none := by
  obtain ⟨actor, hactor⟩ := h
  intro hnone
  have := List.findSome?_eq_none_iff.1 hnone actor
    (List.mem_cons_of_mem _ (mem_actors_of_step hactor))
  rw [hactor] at this
  cases this

theorem reaches_run (r : Rules ι τ ε) (schedule : Schedule) (time : Nat) (s : State ι τ ε) :
    Reaches r s (s.run r schedule time) := by
  fun_induction run r schedule time s with
  | case1 => exact .refl
  | case2 time s u hu _ ih => exact .head (step_of_advance hu) ih

theorem not_step_run (r : Rules ι τ ε) (schedule : Schedule) (time : Nat) (s u : State ι τ ε) :
    ¬ Step r (s.run r schedule time) u := by
  fun_induction run r schedule time s with
  | case1 time s hnone => exact fun h => advance_ne_none h _ hnone
  | case2 time s v hv _ ih => exact ih

/-- Every schedule leads to a state in which the manager has returned. -/
theorem ends_run (r : Rules ι τ ε) (starts : List (Except SearchError ι)) (t : τ)
    (schedule : Schedule) :
    Ends r (.initial starts t) ((State.initial starts t).run r schedule 0) where
  reaches := reaches_run r schedule 0 _
  returned := by
    have hreaches := reaches_run r schedule 0 (.initial starts t)
    apply Decidable.byContradiction
    intro hm
    obtain ⟨u, hu⟩ := hreaches.exists_step hm
    exact not_step_run r schedule 0 _ u hu

theorem advance_of_step {actor : Actor} {s u : State ι τ ε} (h : s.step r actor = some u) :
    s.advance r actor = some u := by
  rw [advance, List.findSome?_cons, h]

theorem run_of_advance {schedule : Schedule} {time : Nat} {s u : State ι τ ε}
    (h : s.advance r (schedule time) = some u) :
    s.run r schedule time = u.run r schedule (time + 1) := by
  rw [run]
  split
  · rename_i hnone
    rw [h] at hnone
    cases hnone
  · rename_i v hv
    rw [h] at hv
    cases hv
    rfl

theorem run_of_not_step {s : State ι τ ε} (h : ∀ u, ¬ Step r s u) (schedule : Schedule)
    (time : Nat) : s.run r schedule time = s := by
  rw [run]
  split
  · rfl
  · rename_i u hu
    exact absurd (step_of_advance hu) (h u)

theorem run_startingWith (first : Actor) (schedule : Schedule) (time : Nat) (s : State ι τ ε) :
    s.run r (Schedule.startingWith first schedule) (time + 1) = s.run r schedule time := by
  fun_induction run r schedule time s with
  | case1 time s hnone =>
    rw [run]
    split
    · rfl
    · rename_i u hu
      rw [Schedule.startingWith, hnone] at hu
      cases hu
  | case2 time s v hv _ ih =>
    have hadvance : s.advance r (Schedule.startingWith first schedule (time + 1)) = some v := hv
    rw [run_of_advance hadvance, ih]

theorem exists_schedule {s last : State ι τ ε} (h : Reaches r s last)
    (hlast : ∀ u, ¬ Step r last u) : ∃ schedule, s.run r schedule 0 = last := by
  induction h using Relation.ReflTransGen.head_induction_on with
  | refl => exact ⟨fun _ => .manager, run_of_not_step hlast _ _⟩
  | head hstep _ ih =>
    obtain ⟨schedule, ih⟩ := ih
    obtain ⟨actor, hactor⟩ := hstep
    refine ⟨.startingWith actor schedule, ?_⟩
    rw [run_of_advance (advance_of_step hactor), run_startingWith, ih]

end State

/-- The schedules lead exactly to the states in which some order of moves ends. -/
theorem ends_iff_exists_schedule :
    Ends r (.initial starts t) s ↔ ∃ schedule, (State.initial starts t).run r schedule 0 = s := by
  constructor
  · intro h
    exact State.exists_schedule h.reaches h.not_step
  · rintro ⟨schedule, rfl⟩
    exact State.ends_run r starts t schedule

end ProofOfWork.Pool

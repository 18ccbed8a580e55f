import ProofOfWork.Proofs.Pool.Progress
import ProofOfWork.Proofs.Search.Sink

/-!
A pool whose sink notes what it is given makes the same moves as the pool without the notes.
-/
namespace ProofOfWork.Pool

/-- The same rules with a sink that notes what it is given. -/
def Rules.noting (r : Rules ι τ ε) : Rules ι (List Attempt × τ) ε where
  feed := r.feed
  sink := r.sink.noting
  mode := r.mode
  launcher := r.launcher

namespace State

/-- The attempts that the sink was given. -/
def received (s : State ι (List Attempt × τ) ε) : List Attempt :=
  s.sink.1

/-- The same state without the notes. -/
def forget (s : State ι (List Attempt × τ) ε) : State ι τ ε where
  workers := s.workers
  queue := s.queue
  manager := s.manager
  sink := s.sink.2
  tally := s.tally
  failure := s.failure

variable (r : Rules ι τ ε)

theorem forget_receive (s : State ι (List Attempt × τ) ε) (item : Item) (rest : List Item) :
    (s.receive r.noting item rest).forget = s.forget.receive r item rest := by
  cases item with
  | error cause => rfl
  | ok a =>
    have hsink : r.noting.sink a s.sink =
        ((r.sink a s.sink.2).1, s.sink.1 ++ [a], (r.sink a s.sink.2).2) := rfl
    have hplain : s.forget.sink = s.sink.2 := rfl
    simp only [receive, hsink, hplain]
    cases r.sink a s.sink.2 with
    | mk answer t => cases answer <;> rfl

theorem map_forget_stepManager (s : State ι (List Attempt × τ) ε) :
    (s.stepManager r.noting).map forget = s.forget.stepManager r := by
  have hmanager : s.forget.manager = s.manager := rfl
  have hworkers : s.forget.workers = s.workers := rfl
  have hqueue : s.forget.queue = s.queue := rfl
  have hlauncher : r.noting.launcher = r.launcher := rfl
  simp only [stepManager, hmanager, hworkers, hqueue, hlauncher]
  cases s.manager with
  | launching n =>
    dsimp only
    cases s.workers[n]? with
    | none => rfl
    | some w => cases r.launcher n <;> rfl
  | receiving =>
    cases s.queue with
    | cons item rest => exact congrArg some (forget_receive r s item rest)
    | nil => cases s.workers.all Worker.isGone <;> rfl
  | joining => cases s.workers.all Worker.isGone <;> rfl
  | leaving | stopped | returned => rfl

theorem map_forget_stepWorker (n : Nat) (s : State ι (List Attempt × τ) ε) :
    (s.stepWorker r.noting n).map forget = s.forget.stepWorker r n := by
  have hworkers : s.forget.workers = s.workers := rfl
  simp only [stepWorker, hworkers]
  cases s.workers[n]? with
  | none => rfl
  | some w =>
    show Option.map forget (Option.map _ (w.step r.feed s.manager _)) =
      Option.map _ (w.step r.feed s.manager _)
    rw [Option.map_map]
    rfl

/-- Forgetting the notes commutes with every move. -/
theorem map_forget_step (s : State ι (List Attempt × τ) ε) (actor : Actor) :
    (s.step r.noting actor).map forget = s.forget.step r actor := by
  cases actor with
  | manager => exact map_forget_stepManager r s
  | worker n => exact map_forget_stepWorker r n s

theorem map_forget_advance (s : State ι (List Attempt × τ) ε) (preferred : Actor) :
    (s.advance r.noting preferred).map forget = s.forget.advance r preferred := by
  rw [advance, List.map_findSome?, advance]
  exact congrArg (List.findSome? · _) (funext (map_forget_step r s))

theorem forget_run (schedule : Schedule) (time : Nat) (s : State ι (List Attempt × τ) ε) :
    (s.run r.noting schedule time).forget = s.forget.run r schedule time := by
  fun_induction run r.noting schedule time s with
  | case1 time s hnone =>
    have hplain := map_forget_advance r s (schedule time)
    rw [hnone, Option.map_none] at hplain
    rw [run]
    split
    · rfl
    · rename_i u hu
      rw [← hplain] at hu
      cases hu
  | case2 time s v hv _ ih =>
    have hplain := map_forget_advance r s (schedule time)
    rw [hv, Option.map_some] at hplain
    rw [ih, run_of_advance hplain.symm]

end State

end ProofOfWork.Pool

import ProofOfWork.LogLine
import ProofOfWork.Pool.Run
import ProofOfWork.Pool.Share

/-! Searches by a pool: each worker makes its share of the attempts with a stream of its own. -/
namespace ProofOfWork.Pool

/-- How a search is spread over threads. -/
structure Workers where
  threads : Nat
  seed : Option UInt64
  mode : Mode
  keepPriority : Bool

namespace Workers

/-- One thread on each processor, and all attempts. -/
def standard (processors : Nat) : Workers where
  threads := processors
  seed := none
  mode := .exhaustive
  keepPriority := false

def describe (w : Workers) : String :=
  let seed :=
    match w.seed with
    | some seed => s!"Some({seed})"
    | none => "None"
  "WorkerConfig \x7b " ++ s!"threads: {w.threads}, seed: {seed}, mode: {w.mode.name}, " ++
    s!"keep_thread_priority: {w.keepPriority}" ++ " \x7d"

def startLog (w : Workers) (attempts : Nat) : LogLine where
  level := .debug
  text := s!"Sampling {attempts} attempts on {workerCount w.threads attempts} threads " ++
    s!"with {w.describe}"

end Workers

/-- The search of each worker, or the reason why it has none. -/
def starts (p : Puzzle) (plan : Plan) (mode : Mode) (workers : Nat) (source : Source σ)
    (stream : Nat → Except SearchError σ) : List (Except SearchError (Search σ)) :=
  (List.range workers).map fun i => do
    let state ← stream i
    let search ← Search.start p { plan with attempts := share plan.attempts workers i } source state
    return search.inMode mode

structure Outcome (τ ε : Type) where
  result : Except (Failure ε) Tally
  sink : τ
  log : List LogLine

def Workers.rules (w : Workers) (launcher : Launcher) (sink : Sink τ ε) :
    Rules (Search σ) τ ε where
  feed := Search.feed
  sink := sink
  mode := w.mode
  launcher := launcher

/-- The workers with their shares, before the first move. -/
def opening (p : Puzzle) (plan : Plan) (w : Workers) (source : Source σ)
    (stream : Nat → Except SearchError σ) (t : τ) : State (Search σ) τ ε :=
  .initial (starts p plan w.mode (workerCount w.threads plan.attempts) source stream) t

/-- A plan that is refused launches no worker. -/
def search (p : Puzzle) (plan : Plan) (w : Workers) (source : Source σ)
    (stream : Nat → Except SearchError σ) (launcher : Launcher) (schedule : Schedule)
    (sink : Sink τ ε) (t : τ) : Outcome τ ε :=
  match Search.refusal? p plan with
  | some cause => ⟨.error (.search cause), t, []⟩
  | none =>
    let last := (opening p plan w source stream t).run (w.rules launcher sink) schedule 0
    ⟨last.outcome, last.sink, [w.startLog plan.attempts]⟩

end ProofOfWork.Pool

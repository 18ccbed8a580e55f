import ProofOfWork.Search.Basic
import ProofOfWork.Search.Delivery

/-!
Workers that pull items from feeds of their own and send them through one bounded queue, and a
manager that launches them and hands what arrives to a sink. Every actor has at most one move in a
state, and a run is any order of moves.
-/
namespace ProofOfWork.Pool

/-- Items that fit into the queue. -/
def capacity : Nat := 1024

inductive Worker (ι : Type)
  /-- Not launched; a worker whose feed could not be started has the reason to send. -/
  | waiting (start : Except SearchError ι)
  | pulling (rest : ι)
  /-- About to look at the stop flag. -/
  | holding (item : Item) (rest : ι)
  /-- Blocked while the queue is full; without a rest the item is the last one. -/
  | sending (item : Item) (rest : Option ι)
  | finished
  | crashed

inductive Manager
  /-- The manager holds a sender of its own until all workers are launched. -/
  | launching (launched : Nat)
  | receiving
  /-- The loop over the queue is left and the stop flag is not yet set. -/
  | leaving
  | stopped
  /-- The receiver is dropped, and the workers are joined. -/
  | joining
  | returned
  deriving DecidableEq

namespace Manager

/-- The stop flag is set. -/
def hasStopped : Manager → Bool
  | .stopped | .joining | .returned => true
  | .launching _ | .receiving | .leaving => false

/-- Items can still be sent. -/
def isOpen : Manager → Bool
  | .joining | .returned => false
  | .launching _ | .receiving | .leaving | .stopped => true

end Manager

structure State (ι τ ε : Type) where
  workers : List (Worker ι)
  queue : List Item
  manager : Manager
  sink : τ
  tally : Tally
  failure : Option (Failure ε)

/-- The answer of the machine when it is asked for the thread of a worker: an error if it makes
none. -/
abbrev Launcher := Nat → Except String Unit

/-- Every thread is made. -/
def Launcher.willing : Launcher := fun _ => .ok ()

/-- What stays the same during a run. -/
structure Rules (ι τ ε : Type) where
  feed : Feed ι
  sink : Sink τ ε
  mode : Mode
  launcher : Launcher

namespace Worker

def launch : Worker ι → Worker ι
  | .waiting (.ok i) => .pulling i
  | .waiting (.error cause) => .sending (.error cause) none
  | w => w

/-- A worker that is never launched has nothing to do. -/
def dismiss : Worker ι → Worker ι
  | .waiting _ => .finished
  | w => w

/-- The sender of the worker is dropped. -/
def isGone : Worker ι → Bool
  | .finished | .crashed => true
  | .waiting _ | .pulling _ | .holding _ _ | .sending _ _ => false

def hasCrashed : Worker ι → Bool
  | .crashed => true
  | .waiting _ | .pulling _ | .holding _ _ | .sending _ _ | .finished => false

/-- A breakdown ends the worker without a word. -/
def pulled (item : Item) (rest : ι) : Worker ι :=
  match item with
  | .error cause => if cause.isBreakdown then .crashed else .holding (.error cause) rest
  | .ok a => .holding (.ok a) rest

/-- The move of a worker, and what it puts into a queue that has room or not. -/
def step (feed : Feed ι) (manager : Manager) (room : Bool) :
    Worker ι → Option (Worker ι × List Item)
  | .waiting _ => none
  | .pulling i =>
    match feed.next i with
    | none => some (.finished, [])
    | some (item, rest) => some (pulled item rest, [])
  | .holding item rest =>
    if manager.hasStopped then some (.finished, []) else some (.sending item (some rest), [])
  | .sending item rest =>
    if !manager.isOpen then some (.finished, [])
    else if room then some (rest.elim .finished .pulling, [item])
    else none
  | .finished => none
  | .crashed => none

end Worker

namespace State

/-- Everything is still to be done. -/
def initial (starts : List (Except SearchError ι)) (sink : τ) : State ι τ ε where
  workers := starts.map .waiting
  queue := []
  manager := .launching 0
  sink := sink
  tally := .zero
  failure := none

/-- The manager takes an item out of the queue. -/
def receive (r : Rules ι τ ε) (s : State ι τ ε) (item : Item) (rest : List Item) :
    State ι τ ε :=
  match item with
  | .error cause =>
    { s with queue := rest, failure := some (.search cause), manager := .leaving }
  | .ok a =>
    match r.sink a s.sink with
    | (.error cause, sink) =>
      { s with queue := rest, tally := s.tally.add a, sink, failure := some (.refused cause),
               manager := .leaving }
    | (.ok (), sink) =>
      { s with queue := rest, tally := s.tally.add a, sink,
               manager := if r.mode.endsWith item then .leaving else .receiving }

/-- A thread was not made. The workers that are not launched yet never will be, and the loop over the
queue is left before it has begun. -/
def abandon (s : State ι τ ε) (cause : String) : State ι τ ε :=
  { s with workers := s.workers.map Worker.dismiss, manager := .leaving,
           failure := some (.search (.launchFailed cause)) }

def stepManager (r : Rules ι τ ε) (s : State ι τ ε) : Option (State ι τ ε) :=
  match s.manager with
  | .launching n =>
    match s.workers[n]?, r.launcher n with
    | some w, .ok () =>
      some { s with workers := s.workers.set n w.launch, manager := .launching (n + 1) }
    | some _, .error cause => some (s.abandon cause)
    | none, _ => some { s with manager := .receiving }
  | .receiving =>
    match s.queue with
    | item :: rest => some (s.receive r item rest)
    | [] => if s.workers.all Worker.isGone then some { s with manager := .leaving } else none
  | .leaving => some { s with manager := .stopped }
  | .stopped => some { s with manager := .joining, queue := [] }
  | .joining => if s.workers.all Worker.isGone then some { s with manager := .returned } else none
  | .returned => none

def stepWorker (r : Rules ι τ ε) (n : Nat) (s : State ι τ ε) : Option (State ι τ ε) :=
  match s.workers[n]? with
  | none => none
  | some w =>
    (w.step r.feed s.manager (s.queue.length < capacity)).map fun (moved, sent) =>
      { s with workers := s.workers.set n moved, queue := s.queue ++ sent }

end State

inductive Actor
  | manager
  | worker (index : Nat)
  deriving DecidableEq

/-- The actor that is to move at each time, if it can. -/
abbrev Schedule := Nat → Actor

/-- The manager moves whenever it can. -/
def Schedule.managerFirst : Schedule := fun _ => .manager

/-- The move of an actor, if it has one. -/
def State.step (r : Rules ι τ ε) (s : State ι τ ε) : Actor → Option (State ι τ ε)
  | .manager => s.stepManager r
  | .worker n => s.stepWorker r n

/-- Some actor moves from one state to the other. -/
def Step (r : Rules ι τ ε) (s t : State ι τ ε) : Prop :=
  ∃ actor, s.step r actor = some t

namespace State

/-- A crashed worker outweighs any other failure. -/
def outcome (s : State ι τ ε) : Except (Failure ε) Tally :=
  if s.workers.any Worker.hasCrashed then .error (.search .workerFailed)
  else
    match s.failure with
    | some cause => .error cause
    | none => .ok s.tally

end State

end ProofOfWork.Pool

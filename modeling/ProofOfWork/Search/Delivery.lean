import ProofOfWork.Search.Feed

/-! Delivering a feed to a sink, which may refuse an attempt. -/
namespace ProofOfWork

/-- A state machine that takes attempts and refuses one with an error. -/
abbrev Sink (τ ε : Type) := Attempt → τ → Except ε Unit × τ

/-- What ended a delivery early: the search or the sink. -/
inductive Failure (ε : Type)
  | search (cause : SearchError)
  | refused (cause : ε)

/-- Attempts that reached a sink, and how many of them passed. -/
structure Tally where
  attempts : Nat
  passed : Nat
  deriving DecidableEq

namespace Tally

def zero : Tally := ⟨0, 0⟩

/-- An attempt is counted before the sink sees it. -/
def add (t : Tally) (a : Attempt) : Tally where
  attempts := t.attempts + 1
  passed := if a.passed then t.passed + 1 else t.passed

end Tally

/-- The result, with the sink as it was left and the feed from where it was left. -/
structure Delivery (ι τ ε : Type) where
  result : Except (Failure ε) Tally
  sink : τ
  rest : ι

namespace Feed

/-- Pulls and delivers until the feed ends, yields an error, or the sink refuses. -/
def deliverFrom (f : Feed ι) (sink : Sink τ ε) (tally : Tally) (i : ι) (t : τ) :
    Delivery ι τ ε :=
  match h : f.next i with
  | none => ⟨.ok tally, t, i⟩
  | some (.error cause, j) => ⟨.error (.search cause), t, j⟩
  | some (.ok a, j) =>
    match sink a t with
    | (.error cause, t) => ⟨.error (.refused cause), t, j⟩
    | (.ok (), t) =>
      have := f.size_next h
      deliverFrom f sink (tally.add a) j t
termination_by f.size i

def deliver (f : Feed ι) (sink : Sink τ ε) (i : ι) (t : τ) : Delivery ι τ ε :=
  f.deliverFrom sink .zero i t

end Feed

/-- The same sink, with the attempts that it was given beside it. -/
def Sink.noting (sink : Sink τ ε) : Sink (List Attempt × τ) ε := fun a (seen, t) =>
  let (answer, t) := sink a t
  (answer, seen ++ [a], t)

end ProofOfWork

import ProofOfWork.Search.Attempt
import ProofOfWork.Search.Error

/-! Finite streams of attempts, pulled one item at a time. -/
namespace ProofOfWork

/-- An attempt, or the error that came instead: a breakdown, or the one that the stream ends with. -/
abbrev Item := Except SearchError Attempt

/-- A state machine that yields items; every item makes its state smaller. -/
structure Feed (ι : Type) where
  next : ι → Option (Item × ι)
  size : ι → Nat
  size_next : ∀ {i item j}, next i = some (item, j) → size j < size i

namespace Feed

/-- The items of a list in their order. -/
def ofList : Feed (List Item) where
  next
    | [] => none
    | item :: rest => some (item, rest)
  size := List.length
  size_next := by
    intro i item j h
    cases i <;> cases h
    simp

/-- The answers to all requests to come, those that break down among them. -/
def items (f : Feed ι) (i : ι) : List Item :=
  match h : f.next i with
  | none => []
  | some (item, j) =>
    have := f.size_next h
    item :: items f j
termination_by f.size i

end Feed

end ProofOfWork

import ProofOfWork.Random.Source
import ProofOfWork.Search.Feed

/-! Searches: lazy streams of attempts at a puzzle with random nonces. -/
namespace ProofOfWork

/-- When a search ends. -/
inductive Mode
  /-- After all attempts, passing or not. -/
  | exhaustive
  /-- Right after the first attempt that passes. -/
  | firstPass
  deriving DecidableEq

namespace Mode

instance : Inhabited Mode := ⟨exhaustive⟩

def name : Mode → String
  | .exhaustive => "Exhaustive"
  | .firstPass => "UntilPass"

/-- An error of the source ends every search, and a pass ends a search for one. A breakdown ends
nothing: who catches it may go on with the next attempt. -/
def endsWith (mode : Mode) : Item → Bool
  | .error cause => !cause.isBreakdown
  | .ok a => a.passed && mode == .firstPass

end Mode

/-- How many nonces of which length are tried. -/
structure Plan where
  attempts : Nat
  nonceLength : Nat

/-- A search with `remaining` attempts to go unless it has ended. -/
structure Search (σ : Type) where
  puzzle : Puzzle
  source : Source σ
  nonceLength : Nat
  mode : Mode
  state : σ
  remaining : Nat
  ended : Bool

namespace Search

/-- The first thing wrong with a plan: an empty nonce, then a digest of another length. -/
def refusal? (p : Puzzle) (plan : Plan) : Option SearchError :=
  if plan.nonceLength = 0 then some (.emptyNonce plan.nonceLength)
  else
    match p.threshold.expect p.hasher.outputLength with
    | .error cause => some (.wrongLength cause)
    | .ok () => none

theorem refusal?_eq_none_iff {p : Puzzle} {plan : Plan} : refusal? p plan = none ↔
    0 < plan.nonceLength ∧ p.hasher.outputLength = p.threshold.length := by
  unfold refusal? Threshold.expect
  by_cases hnonce : plan.nonceLength = 0
  · simp [hnonce]
  · by_cases hlength : p.hasher.outputLength = p.threshold.length
    · simp [hnonce, hlength, Nat.pos_of_ne_zero hnonce]
    · simp [hnonce, hlength]

def start (p : Puzzle) (plan : Plan) (source : Source σ) (state : σ) :
    Except SearchError (Search σ) :=
  match refusal? p plan with
  | some e => .error e
  | none =>
    .ok { puzzle := p, source, nonceLength := plan.nonceLength, mode := .exhaustive, state,
          remaining := plan.attempts, ended := false }

theorem exists_start_iff {p : Puzzle} {plan : Plan} {source : Source σ} {state : σ} :
    (∃ s, start p plan source state = .ok s) ↔ refusal? p plan = none := by
  unfold start
  cases refusal? p plan <;> simp

def inMode (s : Search σ) (mode : Mode) : Search σ :=
  { s with mode }

/-- Items that the search may still yield. -/
def size (s : Search σ) : Nat :=
  if s.ended then 0 else s.remaining

/-- Bounds on the number of items to come. -/
def bounds (s : Search σ) : Nat × Option Nat :=
  (0, some s.size)

/-- The item that a draw becomes. -/
def itemOf (p : Puzzle) : Except String (Block n) → Item
  | .error cause => .error (.sourceExhausted cause)
  | .ok nonce =>
    match p.attempt nonce.val with
    | none => .error .hasherFailed
    | some a => .ok a

/-- One draw and one digest; a nonce that is too long for memory is not drawn. -/
def pull (s : Search σ) : Item × σ :=
  if Bytes.lengthLimit < s.nonceLength then (.error (.nonceTooLong s.nonceLength), s.state)
  else
    let (drawn, state) := s.source.draw s.nonceLength s.state
    (itemOf s.puzzle drawn, state)

/-- The next item, unless the search has ended. The attempt is used up whatever comes of it. -/
def next (s : Search σ) : Option (Item × Search σ) :=
  if s.ended || s.remaining == 0 then none
  else
    let (item, state) := s.pull
    some (item, { s with state, remaining := s.remaining - 1, ended := s.mode.endsWith item })

theorem size_next {s t : Search σ} {item : Item} (h : s.next = some (item, t)) :
    t.size < s.size := by
  unfold next at h
  split at h
  · cases h
  · rename_i live
    simp only [Bool.or_eq_true, beq_iff_eq, not_or, Bool.not_eq_true] at live
    cases h
    simp only [size, live.1]
    split <;> simp <;> omega

def feed : Feed (Search σ) where
  next := next
  size := size
  size_next := size_next

end Search

end ProofOfWork

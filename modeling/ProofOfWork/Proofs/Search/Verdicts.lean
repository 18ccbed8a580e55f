import ProofOfWork.Proofs.Digest.Algorithm
import ProofOfWork.Proofs.Search.Drain

/-!
Attempts are confirmed by hashing their nonces again. This holds of all that a search yields,
wherever it stands, and of all that a delivery of it gives to a sink.
-/
namespace ProofOfWork

/-- The attempt has a nonce of the length, and hashing the nonce again and checking it give what the
attempt says. -/
structure Puzzle.Confirms (p : Puzzle) (nonceLength : Nat) (a : Attempt) : Prop where
  length_nonce : a.nonce.length = nonceLength
  exists_digest : ∃ digest, p.hasher.digest [p.challenge, a.nonce] = some digest ∧
    a.leadingZeros = digest.leadingZeros
  passed_iff : a.passed = true ↔ p.threshold.required ≤ a.leadingZeros
  verify_eq : p.verify a.nonce = some a.passed
  verifyStrictly_eq : ∀ algorithm : Algorithm, p.hasher = algorithm.hasher →
    p.verifyStrictly a.nonce = some (.ok a.passed)

namespace Puzzle

variable {p : Puzzle} {plan : Plan} {a : Attempt}

theorem confirms_of_attempt {nonce : Bytes}
    (hlength : p.hasher.outputLength = p.threshold.length) (h : p.attempt nonce = some a) :
    p.Confirms nonce.length a := by
  obtain ⟨digest, hdigest, rfl⟩ := Option.map_eq_some_iff.1 h
  constructor
  case length_nonce => rfl
  case exists_digest => exact ⟨digest, hdigest, rfl⟩
  case passed_iff => exact decide_eq_true_iff
  case verify_eq =>
    rw [verify, hdigest]
    rfl
  case verifyStrictly_eq =>
    intro algorithm hhasher
    have hsize : digest.length = p.threshold.length := by
      have hsame : algorithm.hasher.digest [p.challenge, nonce] = some digest := hhasher ▸ hdigest
      obtain rfl : algorithm.digest [p.challenge, nonce] = digest := Option.some.inj hsame
      rw [Algorithm.length_digest, ← hlength, hhasher]
      rfl
    rw [verifyStrictly, hdigest, Option.map_some, p.threshold.judge_of_length hsize]
    rfl

end Puzzle

namespace Search

/-- The search has come from a start with the plan, and its mode may have been changed meanwhile. -/
inductive Reachable (p : Puzzle) (plan : Plan) (source : Source σ) : Search σ → Prop
  | start {state : σ} {s : Search σ} :
      Search.start p plan source state = .ok s → Reachable p plan source s
  | next {s t : Search σ} {item : Item} :
      Reachable p plan source s → s.next = some (item, t) → Reachable p plan source t
  | inMode {s : Search σ} (mode : Mode) :
      Reachable p plan source s → Reachable p plan source (s.inMode mode)

variable {p : Puzzle} {plan : Plan} {source : Source σ} {s t : Search σ}

namespace Reachable

/-- No step touches the puzzle or the nonce length, which were accepted at the start. -/
theorem invariant (h : Reachable p plan source s) : s.puzzle = p ∧
    s.nonceLength = plan.nonceLength ∧ p.hasher.outputLength = p.threshold.length := by
  induction h with
  | @start state s hstart =>
    unfold Search.start at hstart
    split at hstart
    · cases hstart
    · rename_i hnone
      cases hstart
      exact ⟨rfl, rfl, (refusal?_eq_none_iff.1 hnone).2⟩
  | next _ hnext ih =>
    obtain ⟨-, hpuzzle, hnonce⟩ := of_next hnext
    obtain ⟨hp, hn, hlength⟩ := ih
    exact ⟨hpuzzle.trans hp, hnonce.trans hn, hlength⟩
  | inMode mode _ ih => exact ih

theorem confirms_next (h : Reachable p plan source s) {a : Attempt}
    (hnext : s.next = some (.ok a, t)) : p.Confirms plan.nonceLength a := by
  obtain ⟨hpuzzle, hnonce, hlength⟩ := h.invariant
  obtain ⟨nonce, hattempt⟩ := exists_attempt_of_pullAt (of_next hnext).1.symm
  rw [hpuzzle] at hattempt
  rw [← hnonce, ← nonce.property]
  exact Puzzle.confirms_of_attempt hlength hattempt

theorem confirms_items (h : Reachable p plan source s) {a : Attempt} (ha : .ok a ∈ feed.items s) :
    p.Confirms plan.nonceLength a := by
  have hstep : ∀ {s : Search σ} {item t}, Reachable p plan source s →
      feed.next s = some (item, t) →
      (∀ b, item = .ok b → p.Confirms plan.nonceLength b) ∧ Reachable p plan source t := by
    intro s item t hs hnext
    refine ⟨?_, hs.next hnext⟩
    rintro b rfl
    exact hs.confirms_next hnext
  exact feed.of_mem_items hstep h ha a rfl

/-- Whatever the sink answers, it is given confirmed attempts only. -/
theorem confirms_delivered (h : Reachable p plan source s) (sink : Sink τ ε) (t : τ)
    {a : Attempt} (ha : a ∈ (feed.deliver sink.noting s ([], t)).sink.1) :
    p.Confirms plan.nonceLength a := by
  rw [(feed.deliver_eq sink.noting s ([], t)).2, Sink.drained_noting, Sink.after_noting] at ha
  exact h.confirms_items (Sink.of_mem_drained ha)

end Reachable

end Search

end ProofOfWork

import Mathlib.Data.ENat.Basic
import ProofOfWork.Random.Source

/-! Draws of one length in a row from a random source, up to the first one that fails. -/
namespace ProofOfWork.Source

variable (source : Source σ) (n : Nat) (state : σ)

def stateAfter : (draws : Nat) → σ
  | 0 => state
  | draws + 1 => (source.draw n (stateAfter draws)).2

/-- Draw number `i`, whether or not those before it have failed. -/
def drawAt (i : Nat) : Except String (Block n) :=
  (source.draw n (source.stateAfter n state i)).1

def Succeeds (i : Nat) : Prop :=
  ∃ nonce, source.drawAt n state i = .ok nonce

open Classical in
/-- The number of draws that succeed before the first one that fails, if one does. -/
noncomputable def lifetime : ℕ∞ :=
  if h : ∃ i, ¬ source.Succeeds n state i then (Nat.find h : ℕ∞) else ⊤

variable {source n state} {i : Nat}

theorem lt_lifetime_iff :
    (i : ℕ∞) < source.lifetime n state ↔ ∀ j ≤ i, source.Succeeds n state j := by
  classical
  unfold lifetime
  split
  · rename_i h
    rw [Nat.cast_lt, Nat.lt_find_iff]
    simp only [not_not]
  · rename_i h
    have hall : ∀ j, source.Succeeds n state j := by simpa using h
    exact iff_of_true (ENat.natCast_lt_top i) fun j _ => hall j

theorem le_lifetime_iff :
    (i : ℕ∞) ≤ source.lifetime n state ↔ ∀ j < i, source.Succeeds n state j := by
  cases i with
  | zero => exact iff_of_true (by simp) nofun
  | succ i =>
    rw [Nat.cast_succ, ENat.add_one_le_iff (ENat.natCast_ne_top i), lt_lifetime_iff]
    simp only [Nat.lt_succ_iff]

theorem not_succeeds_iff :
    ¬ source.Succeeds n state i ↔ ∃ cause, source.drawAt n state i = .error cause := by
  unfold Succeeds
  cases source.drawAt n state i <;> simp

theorem lifetime_eq_iff : source.lifetime n state = i ↔
    (∀ j < i, source.Succeeds n state j) ∧ ∃ cause, source.drawAt n state i = .error cause := by
  classical
  rw [← not_succeeds_iff]
  unfold lifetime
  split
  · rename_i h
    rw [Nat.cast_inj, Nat.find_eq_iff]
    simp only [not_not, and_comm]
  · rename_i h
    have hall : ∀ j, source.Succeeds n state j := by simpa using h
    exact iff_of_false (ENat.top_ne_natCast i) fun hi => hi.2 (hall i)

/-- The states are the same if the draws are counted. -/
theorem stateAfter_counted (count draws : Nat) :
    source.counted.stateAfter n (state, count) draws =
      (source.stateAfter n state draws, count + draws) := by
  induction draws with
  | zero => rfl
  | succ draws ih =>
    rw [stateAfter, ih]
    rfl

theorem drawAt_counted (count i : Nat) :
    source.counted.drawAt n (state, count) i = source.drawAt n state i := by
  rw [drawAt, stateAfter_counted]
  rfl

theorem lifetime_counted (count : Nat) :
    source.counted.lifetime n (state, count) = source.lifetime n state := by
  refine eq_of_forall_lt_iff fun k => ?_
  cases k with
  | top => simp
  | coe k => simp only [lt_lifetime_iff, Succeeds, drawAt_counted]

/-- A source of zero bytes that runs dry; the state is the number of draws to come. -/
def drying : Source Nat where
  draw
    | _, 0 => (.error "entropy pool drained", 0)
    | n, draws + 1 => (.ok ⟨List.replicate n 0, List.length_replicate⟩, draws)

theorem lifetime_drying (draws : Nat) : drying.lifetime n draws = draws := by
  have hstate : ∀ i ≤ draws, drying.stateAfter n draws i = draws - i := by
    intro i hi
    induction i with
    | zero => rfl
    | succ i ih =>
      obtain ⟨left, hleft⟩ : ∃ left, draws - i = left + 1 := ⟨draws - i - 1, by omega⟩
      rw [stateAfter, ih (by omega), hleft]
      show left = draws - (i + 1)
      omega
  rw [lifetime_eq_iff]
  constructor
  · intro j hj
    obtain ⟨left, hleft⟩ : ∃ left, draws - j = left + 1 := ⟨draws - j - 1, by omega⟩
    unfold Succeeds drawAt
    rw [hstate j (by omega), hleft]
    exact ⟨_, rfl⟩
  · unfold drawAt
    rw [hstate draws (Nat.le_refl _), Nat.sub_self]
    exact ⟨_, rfl⟩

end ProofOfWork.Source

import ProofOfWork.Proofs.Search.Draws
import ProofOfWork.Proofs.Search.Items

/-!
Searches under any operations. Items are pulled and the mode may change between any two of them; what
is left of the search depends on the items alone, each taken in the mode in which it was pulled. A
request that breaks down yields no item but uses up its attempt, and the search goes on.
-/
namespace ProofOfWork

/-- No item comes after it if it is pulled in the mode: an error that is no breakdown, or a pass in
search of the first one. -/
def Mode.IsLast : Mode × Item → Prop
  | (_, .error cause) => cause.isBreakdown = false
  | (mode, .ok a) => a.passed = true ∧ mode = .firstPass

theorem Mode.endsWith_iff {mode : Mode} {item : Item} :
    mode.endsWith item = true ↔ Mode.IsLast (mode, item) := by
  cases item with
  | error cause => simp [endsWith, IsLast]
  | ok a => simp [endsWith, IsLast]

theorem Mode.IsLast.not_breaksDown {y : Mode × Item} (h : Mode.IsLast y) :
    Item.breaksDown y.2 = false := by
  obtain ⟨mode, item⟩ := y
  cases item with
  | error cause => exact h
  | ok a => rfl

/-- A puzzle that every nonce solves. -/
def Puzzle.easy : Puzzle where
  hasher := { outputLength := 1, digest := fun _ => some [0] }
  challenge := []
  threshold := { required := 8, length := 1 }

namespace Search

inductive Operation
  /-- The next item is asked for. -/
  | next
  | inMode (mode : Mode)
  /-- The bounds on the items to come are asked for. -/
  | bounds

/-- The search after an operation. If there is no next item it stays as it is. -/
def after (s : Search σ) : Operation → Search σ
  | .next => s.next.elim s Prod.snd
  | .inMode mode => s.inMode mode
  | .bounds => s

/-- The item that an operation pulls, with the mode in which it is pulled. -/
def pulled? (s : Search σ) : Operation → Option (Mode × Item)
  | .next => s.next.map fun (item, _) => (s.mode, item)
  | .inMode _ | .bounds => none

/-- The search after operations in a row. -/
def run (s : Search σ) (ops : List Operation) : Search σ :=
  ops.foldl after s

/-- The items that operations in a row pull, breakdowns among them. -/
def pulled (s : Search σ) : List Operation → List (Mode × Item)
  | [] => []
  | op :: later => (s.pulled? op).toList ++ (s.after op).pulled later

/-- The items that operations in a row yield. -/
def yielded (s : Search σ) (ops : List Operation) : List (Mode × Item) :=
  (s.pulled ops).filter fun y => !Item.breaksDown y.2

/-- The requests among operations in a row that break down. -/
def breakdowns (s : Search σ) (ops : List Operation) : Nat :=
  (s.pulled ops).countP fun y => Item.breaksDown y.2

variable {s t u : Search σ} {items later : List (Mode × Item)}

theorem length_pulled (s : Search σ) (ops : List Operation) :
    (s.pulled ops).length = (s.yielded ops).length + s.breakdowns ops := by
  have hsplit :=
    @List.length_eq_countP_add_countP _ (fun y : Mode × Item => Item.breaksDown y.2) (s.pulled ops)
  rw [yielded, breakdowns, ← List.countP_eq_length_filter, Nat.add_comm, hsplit]
  simp

/-- What comes last is yielded. -/
theorem exists_isLast_iff (s : Search σ) (ops : List Operation) :
    (∃ y ∈ s.pulled ops, Mode.IsLast y) ↔ ∃ y ∈ s.yielded ops, Mode.IsLast y := by
  constructor
  · rintro ⟨y, hy, hlast⟩
    exact ⟨y, List.mem_filter.2 ⟨hy, by rw [hlast.not_breaksDown]; rfl⟩, hlast⟩
  · rintro ⟨y, hy, hlast⟩
    exact ⟨y, (List.mem_filter.1 hy).1, hlast⟩

theorem run_append (s : Search σ) (ops later : List Operation) :
    s.run (ops ++ later) = (s.run ops).run later :=
  List.foldl_append

theorem next_eq_none_iff : s.next = none ↔ s.ended = true ∨ s.remaining = 0 := by
  unfold next
  split
  · rename_i hdone
    simpa using hdone
  · rename_i hlive
    simpa using hlive

theorem next_of_live (hended : s.ended = false) (hpos : 0 < s.remaining) :
    s.next = some (s.pull.1, { s with
      state := s.pull.2, remaining := s.remaining - 1, ended := s.mode.endsWith s.pull.1 }) := by
  have hlive : ¬ (s.ended || s.remaining == 0) = true := by
    simp [hended, Nat.ne_of_gt hpos]
  unfold next
  rw [if_neg hlive]

theorem after_next_of_eq_none (h : s.next = none) : s.after .next = s := by
  show s.next.elim s Prod.snd = s
  rw [h]
  rfl

theorem after_next_of_eq_some {found : Item × Search σ} (h : s.next = some found) :
    s.after .next = found.2 := by
  show s.next.elim s Prod.snd = found.2
  rw [h]
  rfl

/-- What operations make of a search, given the items that they pull: each item takes one attempt
away, and none comes after a last one. -/
structure Follows (s t : Search σ) (items : List (Mode × Item)) : Prop where
  remaining_eq : t.remaining + items.length = s.remaining
  ended_iff : t.ended = true ↔ s.ended = true ∨ ∃ y ∈ items, Mode.IsLast y
  eq_nil_of_ended : s.ended = true → items = []

theorem follows_self (s : Search σ) : s.Follows s [] where
  remaining_eq := rfl
  ended_iff := by simp
  eq_nil_of_ended := fun _ => rfl

theorem follows_after (s : Search σ) (op : Operation) :
    s.Follows (s.after op) (s.pulled? op).toList := by
  cases op with
  | inMode mode => exact ⟨rfl, s.follows_self.ended_iff, fun _ => rfl⟩
  | bounds => exact s.follows_self
  | next =>
    show s.Follows (s.next.elim s Prod.snd) (s.next.map fun (item, _) => (s.mode, item)).toList
    by_cases hdone : s.ended = true ∨ s.remaining = 0
    · rw [next_eq_none_iff.2 hdone]
      exact s.follows_self
    · obtain ⟨hended, hremaining⟩ := not_or.1 hdone
      have hlive : s.ended = false := Bool.eq_false_iff.2 hended
      have hpos : 0 < s.remaining := Nat.pos_of_ne_zero hremaining
      rw [next_of_live hlive hpos]
      constructor
      · exact Nat.sub_add_cancel hpos
      · simp [hlive, Mode.endsWith_iff]
      · exact fun h => absurd h hended

namespace Follows

theorem trans (hfirst : s.Follows t items) (hlater : t.Follows u later) :
    s.Follows u (items ++ later) := by
  constructor
  · rw [List.length_append, ← hfirst.remaining_eq, ← hlater.remaining_eq]
    omega
  · rw [hlater.ended_iff, hfirst.ended_iff, or_assoc]
    simp only [List.mem_append, or_and_right, exists_or]
  · intro hended
    have hitems := hfirst.eq_nil_of_ended hended
    have hlast := hlater.eq_nil_of_ended (hfirst.ended_iff.2 (.inl hended))
    rw [hitems, hlast, List.nil_append]

theorem next_eq_none (h : s.Follows t items) (hnone : s.next = none) : t.next = none := by
  have hcount := h.remaining_eq
  rcases next_eq_none_iff.1 hnone with hended | hzero
  · exact next_eq_none_iff.2 (.inl (h.ended_iff.2 (.inl hended)))
  · exact next_eq_none_iff.2 (.inr (by omega))

theorem length_le_size (h : s.Follows t items) : items.length ≤ s.size := by
  have hcount := h.remaining_eq
  unfold size
  split
  · rename_i hended
    simp [h.eq_nil_of_ended hended]
  · omega

end Follows

theorem follows_run (s : Search σ) (ops : List Operation) :
    s.Follows (s.run ops) (s.pulled ops) := by
  induction ops generalizing s with
  | nil => exact s.follows_self
  | cons op later ih => exact (s.follows_after op).trans (ih (s.after op))

theorem size_eq_zero_iff : s.size = 0 ↔ s.next = none := by
  rw [next_eq_none_iff]
  unfold size
  split
  · rename_i hended
    simp [hended]
  · rename_i hended
    simp [hended]

theorem after_unchanged (s : Search σ) (op : Operation) :
    (s.after op).puzzle = s.puzzle ∧ (s.after op).nonceLength = s.nonceLength := by
  cases op with
  | inMode mode => exact ⟨rfl, rfl⟩
  | bounds => exact ⟨rfl, rfl⟩
  | next =>
    cases hnext : s.next with
    | none =>
      rw [after_next_of_eq_none hnext]
      exact ⟨rfl, rfl⟩
    | some found =>
      rw [after_next_of_eq_some hnext]
      exact (of_next hnext).2

/-- Nothing breaks down if the hasher never does and memory holds the nonces. -/
theorem not_breaksDown_of_total (htotal : s.puzzle.hasher.Total)
    (hfits : s.nonceLength ≤ Bytes.lengthLimit) (ops : List Operation) :
    ∀ y ∈ s.pulled ops, Item.breaksDown y.2 = false := by
  induction ops generalizing s with
  | nil => exact List.forall_mem_nil _
  | cons op later ih =>
    obtain ⟨hpuzzle, hlength⟩ := s.after_unchanged op
    have hlater := ih (hpuzzle ▸ htotal) (hlength ▸ hfits)
    rw [pulled, List.forall_mem_append]
    refine ⟨?_, hlater⟩
    intro y hy
    cases op with
    | inMode mode => cases hy
    | bounds => cases hy
    | next =>
      obtain ⟨⟨item, t⟩, hnext, rfl⟩ := Option.map_eq_some_iff.1 (Option.mem_toList.1 hy)
      rw [(of_next hnext).1]
      exact not_breaksDown_pullAt htotal hfits s.state

theorem eq_of_start {p : Puzzle} {plan : Plan} {source : Source σ} {state : σ}
    (h : start p plan source state = .ok s) :
    s = { puzzle := p, source, nonceLength := plan.nonceLength, mode := .exhaustive, state,
          remaining := plan.attempts, ended := false } := by
  unfold start at h
  split at h
  · cases h
  · cases h
    rfl

/-- What holds of a search after any operations. Once there is no next item, there is none ever
after; so it is after an error and after a pass in search of the first one, whatever the mode is set
to. Anything else, such as a pass that was pulled in exhaustive mode, leaves the search going until
all attempts are made. The upper bound is zero exactly if there is no next item, is what is left of
the attempts otherwise, and no operations yield more. A request that breaks down uses up an attempt
and yields nothing; if the hasher never breaks down and memory holds a nonce, none does. -/
theorem operations_keep_contract {p : Puzzle} {plan : Plan} {source : Source σ} {state : σ}
    (hstart : start p plan source state = .ok s) (ops : List Operation) :
    ((s.run ops).next = none → ∀ later, (s.run (ops ++ later)).next = none) ∧
    ((∃ y ∈ s.yielded ops, Mode.IsLast y) → ∀ later, (s.run (ops ++ later)).next = none) ∧
    ((∀ y ∈ s.yielded ops, ¬ Mode.IsLast y) →
      ((s.run ops).next = none ↔
        (s.yielded ops).length + s.breakdowns ops = plan.attempts)) ∧
    (∃ hi, (s.run ops).bounds = (0, some hi) ∧
      (hi = 0 ↔ (s.run ops).next = none) ∧
      ((s.run ops).next ≠ none →
        hi + (s.yielded ops).length + s.breakdowns ops = plan.attempts) ∧
      ∀ later, ((s.run ops).yielded later).length + (s.run ops).breakdowns later ≤ hi) ∧
    (p.hasher.Total → plan.nonceLength ≤ Bytes.lengthLimit → s.breakdowns ops = 0) := by
  have hs := eq_of_start hstart
  have hended : s.ended = false := by rw [hs]
  have hattempts : s.remaining = plan.attempts := by rw [hs]
  have hrun := s.follows_run ops
  have hcount : (s.run ops).remaining + (s.yielded ops).length + s.breakdowns ops =
      plan.attempts := by
    rw [Nat.add_assoc, ← length_pulled, hrun.remaining_eq, hattempts]
  have hlast : (s.run ops).ended = true ↔ ∃ y ∈ s.yielded ops, Mode.IsLast y := by
    rw [hrun.ended_iff, hended, exists_isLast_iff]
    simp
  have hforever : (s.run ops).next = none → ∀ later, (s.run (ops ++ later)).next = none := by
    intro hnone later
    rw [run_append]
    exact ((s.run ops).follows_run later).next_eq_none hnone
  refine ⟨hforever, ?_, ?_, ⟨(s.run ops).size, rfl, size_eq_zero_iff, ?_, ?_⟩, ?_⟩
  · intro hy
    exact hforever (next_eq_none_iff.2 (.inl (hlast.2 hy)))
  · intro hnone
    have hlive : ¬ (s.run ops).ended = true := by
      rw [hlast]
      rintro ⟨y, hy, hend⟩
      exact hnone y hy hend
    rw [next_eq_none_iff, or_iff_right hlive]
    omega
  · intro hnext
    have hlive := mt next_eq_none_iff.2 hnext
    rw [not_or] at hlive
    rw [size, if_neg hlive.1]
    exact hcount
  · intro later
    rw [← length_pulled]
    exact ((s.run ops).follows_run later).length_le_size
  · intro htotal hfits
    have hpuzzle : s.puzzle = p := by rw [hs]
    have hlength : s.nonceLength = plan.nonceLength := by rw [hs]
    rw [← hpuzzle] at htotal
    rw [← hlength] at hfits
    rw [breakdowns, List.countP_eq_zero]
    intro y hy
    rw [not_breaksDown_of_total htotal hfits ops y hy]
    exact Bool.false_ne_true

/-- A pass before the mode is changed leaves the search going, and one after the change ends it. So
does a request that breaks down, whose attempt is used up. -/
theorem operations_keep_contract_two_passes :
    let s : Search Nat := ⟨Puzzle.easy, Source.drying, 2, .exhaustive, 9, 5, false⟩
    let ops : List Operation := [.next, .inMode .firstPass, .next, .inMode .exhaustive]
    let broken : Puzzle := { Puzzle.easy with hasher := ⟨1, fun _ => none⟩ }
    let t : Search Nat := { s with puzzle := broken }
    start Puzzle.easy ⟨5, 2⟩ Source.drying 9 = .ok s ∧
      (s.run [.next, .inMode .firstPass]).bounds = (0, some 4) ∧
      (∀ later, (s.run (ops ++ later)).next = none) ∧
      start broken ⟨5, 2⟩ Source.drying 9 = .ok t ∧ t.breakdowns [.next, .next] = 2 ∧
      (t.run [.next, .next]).bounds = (0, some 3) := by
  intro s ops broken t
  have hstart : start Puzzle.easy ⟨5, 2⟩ Source.drying 9 = .ok s := rfl
  have hbroken : start broken ⟨5, 2⟩ Source.drying 9 = .ok t := rfl
  obtain ⟨-, -, -, ⟨hi, hbounds, -, hleft, -⟩, -⟩ :=
    operations_keep_contract hstart [.next, .inMode .firstPass]
  obtain ⟨-, hpass, -⟩ := operations_keep_contract hstart ops
  have hlive : (s.run [.next, .inMode .firstPass]).next ≠ none := by
    intro hnone
    cases hnone
  obtain rfl : hi = 4 := Nat.add_right_cancel (hleft hlive)
  obtain ⟨-, -, -, ⟨more, hmore, -, hrest, -⟩, -⟩ := operations_keep_contract hbroken [.next, .next]
  have hgoes : (t.run [.next, .next]).next ≠ none := by
    intro hnone
    cases hnone
  obtain rfl : more = 3 := Nat.add_right_cancel (hrest hgoes)
  refine ⟨hstart, hbounds, hpass ⟨(.firstPass, .ok ⟨[0, 0], 8, true⟩), ?_, rfl, rfl⟩, hbroken, rfl,
    hmore⟩
  exact List.mem_cons_of_mem _ List.mem_cons_self

end Search

end ProofOfWork

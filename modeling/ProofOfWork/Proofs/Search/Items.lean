import ProofOfWork.Proofs.UpToFirst
import ProofOfWork.Random.ChaCha
import ProofOfWork.Search.Basic

/-!
The items of a search, as a list that a breakdown ends as it ends a run. Fewer attempts cut the list
short, and a search for the first pass cuts the exhaustive one behind its first pass.
-/
namespace ProofOfWork

namespace Item

/-- The item is a breakdown, which is not handed on. -/
def breaksDown : Item → Bool
  | .error cause => cause.isBreakdown
  | .ok _ => false

def passes : Item → Bool
  | .error _ => false
  | .ok a => a.passed

end Item

namespace Puzzle

variable {p : Puzzle} {nonce : Bytes} {a : Attempt}

theorem nonce_of_attempt (h : p.attempt nonce = some a) : a.nonce = nonce := by
  obtain ⟨digest, -, rfl⟩ := Option.map_eq_some_iff.1 h
  rfl

theorem exists_attempt_iff : (∃ a, p.attempt nonce = some a) ↔ (p.digest nonce).isSome := by
  rw [← Option.isSome_iff_exists, attempt, Option.isSome_map]

end Puzzle

/-- The attempts among the items. -/
def attemptsOf (items : List Item) : List Attempt :=
  items.filterMap Except.toOption

theorem mem_attemptsOf {items : List Item} {a : Attempt} :
    a ∈ attemptsOf items ↔ .ok a ∈ items := by
  rw [attemptsOf, List.mem_filterMap]
  constructor
  · rintro ⟨item, hitem, ha⟩
    cases item with
    | error cause => cases ha
    | ok b =>
      obtain rfl : b = a := Option.some.inj ha
      exact hitem
  · intro h
    exact ⟨_, h, rfl⟩

theorem attemptsOf_map_ok (attempts : List Attempt) :
    attemptsOf (attempts.map .ok) = attempts := by
  rw [attemptsOf, List.filterMap_map]
  exact List.filterMap_some

theorem map_ok_attemptsOf {items : List Item} (h : ∀ item ∈ items, ∃ a, item = .ok a) :
    (attemptsOf items).map .ok = items := by
  induction items with
  | nil => rfl
  | cons item items ih =>
    obtain ⟨a, rfl⟩ := h item List.mem_cons_self
    have hrest := ih fun item hitem => h item (List.mem_cons_of_mem _ hitem)
    exact congrArg (Except.ok a :: ·) hrest

namespace Feed

theorem items_of_next_eq_none {f : Feed ι} {i : ι} (h : f.next i = none) : f.items i = [] := by
  rw [items]
  split
  · rfl
  · rename_i hnext
    rw [h] at hnext
    cases hnext

theorem items_of_next_eq_some {f : Feed ι} {i j : ι} {item : Item}
    (h : f.next i = some (item, j)) : f.items i = item :: f.items j := by
  rw [items]
  split
  · rename_i hnext
    rw [h] at hnext
    cases hnext
  · rename_i hnext
    rw [h] at hnext
    cases hnext
    rfl

/-- The items of a run that pulls until the feed ends or breaks down. -/
def yields (f : Feed ι) (i : ι) : List Item :=
  upToFirst Item.breaksDown (f.items i)

theorem yields_isPrefix (f : Feed ι) (i : ι) : f.yields i <+: f.items i :=
  upToFirst_isPrefix _ _

theorem yields_of_next_eq_none {f : Feed ι} {i : ι} (h : f.next i = none) : f.yields i = [] := by
  rw [yields, items_of_next_eq_none h, upToFirst]

theorem yields_of_breaksDown {f : Feed ι} {i j : ι} {item : Item}
    (h : f.next i = some (item, j)) (hb : Item.breaksDown item = true) : f.yields i = [item] := by
  rw [yields, items_of_next_eq_some h, upToFirst, if_pos hb]

theorem yields_of_next_eq_some {f : Feed ι} {i j : ι} {item : Item}
    (h : f.next i = some (item, j)) (hb : Item.breaksDown item = false) :
    f.yields i = item :: f.yields j := by
  rw [yields, items_of_next_eq_some h, upToFirst, hb, if_neg Bool.false_ne_true, yields]

/-- What every item shows and every state keeps holds of all items. -/
theorem of_mem_items {f : Feed ι} {P : ι → Prop} {Q : Item → Prop}
    (hnext : ∀ {i item j}, P i → f.next i = some (item, j) → Q item ∧ P j) {i : ι} (hi : P i)
    {item : Item} (h : item ∈ f.items i) : Q item := by
  fun_induction items f i with
  | case1 i hnone => cases h
  | case2 i first j hsome _ ih =>
    obtain ⟨hfirst, hj⟩ := hnext hi hsome
    rcases List.mem_cons.1 h with rfl | h
    · exact hfirst
    · exact ih hj h

end Feed

/-- Every draw succeeds. -/
def Source.NeverFails (s : Source σ) : Prop :=
  ∀ n state, ∃ block, (s.draw n state).1 = .ok block

theorem ChaCha.source_neverFails : ChaCha.source.NeverFails :=
  fun n g => ⟨(g.draw n).1, rfl⟩

namespace Mode

/-- A run pulls nothing after the item: the search has ended, or the run has broken down. -/
def stopsAt (mode : Mode) (item : Item) : Bool :=
  mode.endsWith item || Item.breaksDown item

@[simp] theorem stopsAt_error (mode : Mode) (cause : SearchError) :
    mode.stopsAt (.error cause) = true :=
  Bool.not_or_self cause.isBreakdown

@[simp] theorem stopsAt_ok (mode : Mode) (a : Attempt) :
    mode.stopsAt (.ok a) = mode.endsWith (.ok a) :=
  Bool.or_false _

end Mode

namespace Search

/-- The items of a run of the search. -/
def items (s : Search σ) : List Item :=
  feed.yields s

theorem items_of_ended {s : Search σ} (h : s.ended = true) : s.items = [] :=
  Feed.yields_of_next_eq_none (by simp [feed, next, h])

def pullAt (s : Search σ) (state : σ) : Item × σ :=
  ({ s with state } : Search σ).pull

/-- The items of some attempts in a row, up to one that stops the run. -/
def itemsFrom (s : Search σ) : (count : Nat) → σ → List Item
  | 0, _ => []
  | count + 1, state =>
    (s.pullAt state).1 ::
      if s.mode.stopsAt (s.pullAt state).1 then [] else s.itemsFrom count (s.pullAt state).2

theorem items_live (s : Search σ) (count : Nat) (state : σ) :
    ({ s with state, remaining := count, ended := false } : Search σ).items =
      s.itemsFrom count state := by
  induction count generalizing state with
  | zero => exact Feed.yields_of_next_eq_none rfl
  | succ count ih =>
    have hnext : feed.next { s with state, remaining := count + 1, ended := false } =
        some ((s.pullAt state).1,
          { s with state := (s.pullAt state).2, remaining := count,
                   ended := s.mode.endsWith (s.pullAt state).1 }) := rfl
    rw [items, itemsFrom, Mode.stopsAt]
    cases hbreaks : Item.breaksDown (s.pullAt state).1 with
    | true => rw [Feed.yields_of_breaksDown hnext hbreaks, Bool.or_true, if_pos rfl]
    | false =>
      rw [Feed.yields_of_next_eq_some hnext hbreaks, Bool.or_false]
      cases hends : s.mode.endsWith (s.pullAt state).1 with
      | true =>
        rw [if_pos rfl]
        exact congrArg _ (items_of_ended rfl)
      | false =>
        rw [if_neg Bool.false_ne_true]
        exact congrArg _ (ih _)

theorem items_eq (s : Search σ) (h : s.ended = false) :
    s.items = s.itemsFrom s.remaining s.state := by
  rw [← items_live, ← h]

/-- Fewer attempts cut the items short and change none of them. -/
theorem itemsFrom_take (s : Search σ) {few many : Nat} (h : few ≤ many) (state : σ) :
    s.itemsFrom few state = (s.itemsFrom many state).take few := by
  induction few generalizing many state with
  | zero => rfl
  | succ few ih =>
    obtain ⟨many, rfl⟩ : ∃ n, many = n + 1 := ⟨many - 1, by omega⟩
    rw [itemsFrom, itemsFrom, List.take_succ_cons]
    split
    · rw [List.take_nil]
    · rw [ih (Nat.le_of_succ_le_succ h)]

/-- A search for the first pass yields what the exhaustive search yields up to its first pass. -/
theorem itemsFrom_inMode_firstPass (s : Search σ) (count : Nat) (state : σ) :
    (s.inMode .firstPass).itemsFrom count state =
      upToFirst Item.passes ((s.inMode .exhaustive).itemsFrom count state) := by
  induction count generalizing state with
  | zero => rfl
  | succ count ih =>
    rw [itemsFrom, itemsFrom, ih, upToFirst]
    have hpull : (s.inMode .firstPass).pullAt state = (s.inMode .exhaustive).pullAt state := rfl
    rw [hpull]
    cases ((s.inMode .exhaustive).pullAt state).1 with
    | error cause => simp [Item.passes, upToFirst]
    | ok a => cases hpass : a.passed <;> simp [inMode, Mode.endsWith, Item.passes, hpass]

/-- Nothing comes after an item that stops the run. -/
theorem eq_nil_of_stopsAt {s : Search σ} {count : Nat} {state : σ} {front later : List Item}
    {item : Item} (h : s.itemsFrom count state = front ++ item :: later)
    (hstops : s.mode.stopsAt item = true) : later = [] := by
  induction count generalizing state front with
  | zero => simp [itemsFrom] at h
  | succ count ih =>
    rw [itemsFrom] at h
    cases front with
    | nil =>
      obtain ⟨rfl, hlater⟩ := List.cons.inj h
      rw [← hlater, if_pos hstops]
    | cons first front =>
      obtain ⟨-, hrest⟩ := List.cons.inj h
      split at hrest
      · simp at hrest
      · exact ih hrest

theorem exists_pullAt_of_mem {s : Search σ} {count : Nat} {state : σ} {item : Item}
    (h : item ∈ s.itemsFrom count state) : 0 < count ∧ ∃ state, item = (s.pullAt state).1 := by
  induction count generalizing state with
  | zero => cases h
  | succ count ih =>
    refine ⟨Nat.succ_pos count, ?_⟩
    rw [itemsFrom] at h
    rcases List.mem_cons.1 h with rfl | h
    · exact ⟨state, rfl⟩
    · split at h
      · cases h
      · exact (ih h).2

variable {s t : Search σ}

theorem of_next {item : Item} (h : s.next = some (item, t)) :
    item = (s.pullAt s.state).1 ∧ t.puzzle = s.puzzle ∧ t.nonceLength = s.nonceLength := by
  unfold next at h
  split at h
  · cases h
  · cases h
    exact ⟨rfl, rfl, rfl⟩

theorem pullAt_of_tooLong (h : Bytes.lengthLimit < s.nonceLength) (state : σ) :
    (s.pullAt state).1 = .error (.nonceTooLong s.nonceLength) := by
  simp only [pullAt, pull, if_pos h]

/-- If nothing else fails, the hasher decides on the item. -/
theorem exists_nonce_pullAt (h : s.source.NeverFails) (hfits : s.nonceLength ≤ Bytes.lengthLimit)
    (state : σ) : ∃ nonce,
      (s.pullAt state).1 = (s.puzzle.attempt nonce).elim (.error .hasherFailed) .ok := by
  obtain ⟨block, hblock⟩ := h s.nonceLength state
  refine ⟨block.val, ?_⟩
  simp only [pullAt, pull, if_neg (Nat.not_lt.2 hfits), hblock, itemOf]
  cases s.puzzle.attempt block.val <;> rfl

theorem pullAt_breaksDown_or_ok (h : s.source.NeverFails) (state : σ) :
    Item.breaksDown (s.pullAt state).1 = true ∨ ∃ a, (s.pullAt state).1 = .ok a := by
  rcases Nat.lt_or_ge Bytes.lengthLimit s.nonceLength with hlong | hfits
  · left
    rw [pullAt_of_tooLong hlong]
    rfl
  · obtain ⟨nonce, hnonce⟩ := exists_nonce_pullAt h hfits state
    rw [hnonce]
    cases s.puzzle.attempt nonce with
    | none => exact .inl rfl
    | some a => exact .inr ⟨a, rfl⟩

theorem pullAt_of_breaksDown (h : s.source.NeverFails)
    (hfits : s.nonceLength ≤ Bytes.lengthLimit) {state : σ}
    (hb : Item.breaksDown (s.pullAt state).1 = true) :
    (s.pullAt state).1 = .error .hasherFailed := by
  obtain ⟨nonce, hnonce⟩ := exists_nonce_pullAt h hfits state
  rw [hnonce] at hb ⊢
  cases hattempt : s.puzzle.attempt nonce with
  | none => rfl
  | some a =>
    rw [hattempt] at hb
    cases hb

/-- Whatever the source does, an attempt is made with a nonce of the length of the plan. -/
theorem exists_attempt_of_pullAt {state : σ} {a : Attempt} (ha : (s.pullAt state).1 = .ok a) :
    ∃ nonce : Block s.nonceLength, s.puzzle.attempt nonce.val = some a := by
  rcases Nat.lt_or_ge Bytes.lengthLimit s.nonceLength with hlong | hfits
  · rw [pullAt_of_tooLong hlong] at ha
    cases ha
  · simp only [pullAt, pull, if_neg (Nat.not_lt.2 hfits)] at ha
    cases hdraw : (s.source.draw s.nonceLength state).1 with
    | error cause =>
      rw [hdraw] at ha
      cases ha
    | ok nonce =>
      rw [hdraw, itemOf] at ha
      cases hattempt : s.puzzle.attempt nonce.val with
      | none =>
        rw [hattempt] at ha
        cases ha
      | some b =>
        rw [hattempt] at ha
        cases ha
        exact ⟨nonce, hattempt⟩

/-- If neither the hasher nor memory breaks down, nothing does. -/
theorem not_breaksDown_pullAt (htotal : s.puzzle.hasher.Total)
    (hfits : s.nonceLength ≤ Bytes.lengthLimit) (state : σ) :
    Item.breaksDown (s.pullAt state).1 = false := by
  simp only [pullAt, pull, if_neg (Nat.not_lt.2 hfits)]
  cases (s.source.draw s.nonceLength state).1 with
  | error cause => rfl
  | ok nonce =>
    obtain ⟨digest, hdigest⟩ := Option.isSome_iff_exists.1 (htotal [s.puzzle.challenge, nonce.val])
    rw [itemOf, Puzzle.attempt, Puzzle.digest, hdigest]
    rfl

theorem exists_ok_pullAt (h : s.source.NeverFails) (htotal : s.puzzle.hasher.Total)
    (hfits : s.nonceLength ≤ Bytes.lengthLimit) (state : σ) :
    ∃ a, (s.pullAt state).1 = .ok a := by
  obtain ⟨nonce, hnonce⟩ := exists_nonce_pullAt h hfits state
  obtain ⟨digest, hdigest⟩ := Option.isSome_iff_exists.1 (htotal [s.puzzle.challenge, nonce])
  rw [hnonce, Puzzle.attempt, Puzzle.digest, hdigest]
  exact ⟨_, rfl⟩

end Search

end ProofOfWork

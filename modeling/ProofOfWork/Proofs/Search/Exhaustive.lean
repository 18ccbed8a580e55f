import Mathlib.Data.ENat.Lattice
import ProofOfWork.Proofs.Search.Draws
import ProofOfWork.Proofs.Search.Items
import ProofOfWork.Proofs.Search.Operations

/-!
Exhaustive searches that are asked for one item after the other. What they answer is read off the
draws: an attempt for each that succeeds, unless the hasher breaks down on it, then one error if a
draw fails, and nothing more.
-/
namespace ProofOfWork.Search

/-- The answer to call number `i` for the next item. -/
def answer (s : Search σ) (i : Nat) : Option Item :=
  (s.run (List.replicate i .next)).next.map Prod.fst

/-- In call number `i` memory holds no nonce or the hasher gives no digest. -/
def BreaksDown (s : Search σ) (i : Nat) : Prop :=
  ∃ item, s.answer i = some item ∧ Item.breaksDown item = true

/-- The same search beside a count of its draws. -/
def counted (s : Search σ) (draws : Nat) : Search (σ × Nat) where
  puzzle := s.puzzle
  source := s.source.counted
  nonceLength := s.nonceLength
  mode := s.mode
  state := (s.state, draws)
  remaining := s.remaining
  ended := s.ended

/-- The draws that are made for some calls in a row. -/
def drawsMade (s : Search σ) (calls : Nat) : Nat :=
  ((s.counted 0).run (List.replicate calls .next)).state.2

theorem exists_next_counted (s : Search σ) (draws : Nat) : ∃ more,
    (s.counted draws).next = s.next.map fun (item, t) => (item, t.counted more) := by
  unfold next pull
  by_cases hdone : (s.ended || s.remaining == 0) = true
  · exact ⟨0, by simp [counted, hdone]⟩
  · by_cases hlong : Bytes.lengthLimit < s.nonceLength
    · exact ⟨draws, by simp [counted, hdone, hlong]⟩
    · exact ⟨draws + 1, by simp [counted, Source.counted, hdone, hlong]⟩

/-- The count changes nothing. -/
theorem exists_run_counted (s : Search σ) (draws : Nat) (ops : List Operation) : ∃ more,
    (s.counted draws).run ops = (s.run ops).counted more := by
  induction ops generalizing s draws with
  | nil => exact ⟨draws, rfl⟩
  | cons op later ih =>
    have hafter : ∃ more, (s.counted draws).after op = (s.after op).counted more := by
      cases op with
      | inMode mode => exact ⟨draws, rfl⟩
      | bounds => exact ⟨draws, rfl⟩
      | next =>
        obtain ⟨more, hnext⟩ := s.exists_next_counted draws
        show ∃ more, (s.counted draws).next.elim _ Prod.snd = counted (s.next.elim s Prod.snd) more
        rw [hnext]
        cases s.next with
        | none => exact ⟨draws, rfl⟩
        | some found => exact ⟨more, rfl⟩
    obtain ⟨more, hmore⟩ := hafter
    obtain ⟨last, hlast⟩ := ih (s.after op) more
    refine ⟨last, ?_⟩
    rw [← hmore] at hlast
    exact hlast

theorem answer_counted (s : Search σ) (draws i : Nat) :
    (s.counted draws).answer i = s.answer i := by
  obtain ⟨more, hrun⟩ := s.exists_run_counted draws (List.replicate i .next)
  obtain ⟨_, hnext⟩ := (s.run (List.replicate i .next)).exists_next_counted more
  rw [answer, answer, hrun, hnext, Option.map_map]
  rfl

theorem run_replicate_succ (s : Search σ) (calls : Nat) :
    s.run (List.replicate (calls + 1) .next) =
      (s.run (List.replicate calls .next)).after .next := by
  rw [List.replicate_succ', run_append]
  rfl

/-- Nothing changes after the end. -/
theorem run_replicate_of_stopped {s : Search σ} {stop calls : Nat}
    (h : (s.run (List.replicate stop .next)).next = none) (hle : stop ≤ calls) :
    s.run (List.replicate calls .next) = s.run (List.replicate stop .next) := by
  induction calls, hle using Nat.le_induction with
  | base => rfl
  | succ calls _ ih => rw [run_replicate_succ, ih, after_next_of_eq_none h]

theorem answer_of_stopped {s : Search σ} {stop i : Nat}
    (h : (s.run (List.replicate stop .next)).next = none) (hle : stop ≤ i) :
    s.answer i = none := by
  rw [answer, run_replicate_of_stopped h hle, h]
  rfl

theorem answer_of_next_eq_none {s : Search σ} (h : s.next = none) (i : Nat) :
    s.answer i = none := by
  have hstop : (s.run (List.replicate 0 .next)).next = none := h
  exact answer_of_stopped hstop (Nat.zero_le i)

theorem answer_succ {s : Search σ} {found : Item × Search σ} (h : s.next = some found) (i : Nat) :
    s.answer (i + 1) = found.2.answer i := by
  rw [← after_next_of_eq_some h]
  rfl

theorem getElem?_items (s : Search σ) (i : Nat) : (feed.items s)[i]? = s.answer i := by
  induction i generalizing s with
  | zero =>
    show (feed.items s)[0]? = s.next.map Prod.fst
    cases hnext : s.next with
    | none =>
      have hitems : feed.items s = [] := Feed.items_of_next_eq_none hnext
      rw [hitems]
      rfl
    | some found =>
      have hitems : feed.items s = found.1 :: feed.items found.2 := Feed.items_of_next_eq_some hnext
      rw [hitems]
      rfl
  | succ i ih =>
    cases hnext : s.next with
    | none =>
      have hitems : feed.items s = [] := Feed.items_of_next_eq_none hnext
      rw [hitems, answer_of_next_eq_none hnext]
      rfl
    | some found =>
      have hitems : feed.items s = found.1 :: feed.items found.2 := Feed.items_of_next_eq_some hnext
      rw [hitems, List.getElem?_cons_succ, ih, answer_succ hnext]

/-- An exhaustive search that has yielded nothing so far. -/
def fresh (p : Puzzle) (source : Source σ) (n : Nat) (state : σ) (attempts : Nat) : Search σ where
  puzzle := p
  source := source
  nonceLength := n
  mode := .exhaustive
  state := state
  remaining := attempts
  ended := false

variable {p : Puzzle} {source : Source σ} {n attempts calls i : Nat} {state : σ}

/-- A draw that succeeds does not end the search, even if the hasher breaks down on it. -/
theorem endsWith_itemOf_ok (nonce : Block n) :
    Mode.exhaustive.endsWith (itemOf p (.ok nonce)) = false := by
  cases hattempt : p.attempt nonce.val with
  | none =>
    rw [itemOf, hattempt]
    rfl
  | some a =>
    rw [itemOf, hattempt]
    exact Bool.and_false _

section Fits

variable (hfits : n ≤ Bytes.lengthLimit)

include hfits

/-- The next item after some draws. -/
theorem next_fresh (hpos : 0 < attempts) :
    (fresh p source n (source.stateAfter n state i) attempts).next =
      some (itemOf p (source.drawAt n state i),
        { fresh p source n (source.stateAfter n state (i + 1)) (attempts - 1) with
          ended := Mode.exhaustive.endsWith (itemOf p (source.drawAt n state i)) }) := by
  have hpull : (fresh p source n (source.stateAfter n state i) attempts).pull =
      (itemOf p (source.drawAt n state i), source.stateAfter n state (i + 1)) :=
    if_neg (Nat.not_lt.2 hfits)
  rw [next_of_live rfl hpos, hpull]
  rfl

/-- As long as draws succeed, nothing but the state and the count changes. -/
theorem run_fresh (hcalls : calls ≤ attempts) (hdraws : ∀ i < calls, source.Succeeds n state i) :
    (fresh p source n state attempts).run (List.replicate calls .next) =
      fresh p source n (source.stateAfter n state calls) (attempts - calls) := by
  induction calls with
  | zero => rfl
  | succ calls ih =>
    have hbefore := ih (Nat.le_of_succ_le hcalls) fun i hi => hdraws i (Nat.lt_succ_of_lt hi)
    have hpos : 0 < attempts - calls := Nat.sub_pos_of_lt hcalls
    obtain ⟨nonce, hnonce⟩ := hdraws calls (Nat.lt_succ_self calls)
    rw [run_replicate_succ, hbefore, after_next_of_eq_some (next_fresh hfits hpos), hnonce,
      endsWith_itemOf_ok]
    rfl

theorem answer_of_le_lifetime (hattempts : i < attempts)
    (hlife : (i : ℕ∞) ≤ source.lifetime n state) :
    (fresh p source n state attempts).answer i = some (itemOf p (source.drawAt n state i)) := by
  have hrun := run_fresh (p := p) hfits (Nat.le_of_lt hattempts) (Source.le_lifetime_iff.1 hlife)
  rw [answer, hrun, next_fresh hfits (Nat.sub_pos_of_lt hattempts)]
  rfl

/-- Each call makes one draw up to the end. -/
theorem state_run_fresh (hcalls : (calls : ℕ∞) ≤ min (source.lifetime n state + 1) attempts) :
    ((fresh p source n state attempts).run (List.replicate calls .next)).state =
      source.stateAfter n state calls := by
  obtain ⟨hdraws, hattempts⟩ := le_min_iff.1 hcalls
  rw [Nat.cast_le] at hattempts
  cases calls with
  | zero => rfl
  | succ calls =>
    have hlife : (calls : ℕ∞) ≤ source.lifetime n state := by
      rw [Nat.cast_succ] at hdraws
      exact (ENat.add_le_add_iff_right ENat.one_ne_top).1 hdraws
    have hpos : 0 < attempts - calls := Nat.sub_pos_of_lt hattempts
    rw [run_replicate_succ, run_fresh hfits (Nat.le_of_lt hattempts)
      (Source.le_lifetime_iff.1 hlife), after_next_of_eq_some (next_fresh hfits hpos)]
    rfl

/-- All attempts are used up, or the draw that fails is made. -/
theorem next_run_fresh_eq_none
    (hcalls : (calls : ℕ∞) = min (source.lifetime n state + 1) attempts) :
    ((fresh p source n state attempts).run (List.replicate calls .next)).next = none := by
  rcases le_or_gt (attempts : ℕ∞) (source.lifetime n state) with hall | hfails
  · obtain rfl : calls = attempts := by
      rw [min_eq_right (hall.trans le_self_add), Nat.cast_inj] at hcalls
      exact hcalls
    rw [run_fresh hfits (Nat.le_refl _) (Source.le_lifetime_iff.1 hall), Nat.sub_self]
    exact next_eq_none_iff.2 (.inr rfl)
  · obtain ⟨k, hk⟩ := ENat.ne_top_iff_exists.1 (ne_top_of_lt hfails)
    rw [← hk, Nat.cast_lt] at hfails
    obtain rfl : calls = k + 1 := by
      rw [← hk, ← Nat.cast_succ, min_eq_left (Nat.cast_le.2 hfails), Nat.cast_inj] at hcalls
      exact hcalls
    obtain ⟨hdraws, cause, hcause⟩ := Source.lifetime_eq_iff.1 hk.symm
    rw [run_replicate_succ, run_fresh hfits (Nat.le_of_lt hfails) hdraws,
      after_next_of_eq_some (next_fresh hfits (Nat.sub_pos_of_lt hfails)), hcause]
    exact next_eq_none_iff.2 (.inl rfl)

/-- The number of calls up to the end. -/
theorem exists_stop (p : Puzzle) (source : Source σ) (state : σ) (attempts : Nat) :
    ∃ stop : Nat, (stop : ℕ∞) = min (source.lifetime n state + 1) attempts ∧
      ((fresh p source n state attempts).run (List.replicate stop .next)).next = none := by
  obtain ⟨stop, hstop⟩ := ENat.ne_top_iff_exists.1
    (ne_top_of_le_ne_top (ENat.natCast_ne_top attempts)
      (min_le_right (source.lifetime n state + 1) attempts))
  exact ⟨stop, hstop, next_run_fresh_eq_none hfits hstop⟩

theorem answer_of_ge_stop (hstop : min (source.lifetime n state + 1) attempts ≤ (i : ℕ∞)) :
    (fresh p source n state attempts).answer i = none := by
  obtain ⟨stop, hcast, hnone⟩ := exists_stop hfits p source state attempts
  rw [← hcast, Nat.cast_le] at hstop
  exact answer_of_stopped hnone hstop

theorem drawsMade_fresh : ((fresh p source n state attempts).drawsMade calls : ℕ∞) =
    min (calls : ℕ∞) (min (source.lifetime n state + 1) attempts) := by
  have hcounted : (fresh p source n state attempts).counted 0 =
      fresh p source.counted n (state, 0) attempts := rfl
  obtain ⟨stop, hstop, hnone⟩ := exists_stop hfits p source.counted (state, 0) attempts
  rw [← Source.lifetime_counted 0, drawsMade, hcounted, ← hstop]
  rcases Nat.le_total calls stop with hcalls | hover
  · have hle : (calls : ℕ∞) ≤ stop := Nat.cast_le.2 hcalls
    rw [min_eq_left hle, state_run_fresh hfits (hle.trans hstop.le), Source.stateAfter_counted,
      Nat.zero_add]
  · rw [run_replicate_of_stopped hnone hover, state_run_fresh hfits hstop.le,
      Source.stateAfter_counted, Nat.zero_add, min_eq_right (Nat.cast_le.2 hover)]

end Fits

section TooLong

variable (hlong : Bytes.lengthLimit < n)

include hlong

/-- Without memory for a nonce a call uses up its attempt and changes nothing else. -/
theorem run_fresh_of_tooLong (p : Puzzle) (source : Source σ) (state : σ) (attempts calls : Nat) :
    (fresh p source n state attempts).run (List.replicate calls .next) =
      fresh p source n state (attempts - calls) := by
  induction calls with
  | zero => rfl
  | succ calls ih =>
    rw [run_replicate_succ, ih, Nat.sub_succ]
    rcases Nat.eq_zero_or_pos (attempts - calls) with hzero | hpos
    · rw [hzero]
      exact after_next_of_eq_none (next_eq_none_iff.2 (.inr rfl))
    · have hpull : (fresh p source n state (attempts - calls)).pull =
          (.error (.nonceTooLong n), state) := if_pos hlong
      rw [after_next_of_eq_some (next_of_live rfl hpos), hpull]
      rfl

theorem answer_of_tooLong (hattempts : i < attempts) :
    (fresh p source n state attempts).answer i = some (.error (.nonceTooLong n)) := by
  have hpull : (fresh p source n state (attempts - i)).pull = (.error (.nonceTooLong n), state) :=
    if_pos hlong
  rw [answer, run_fresh_of_tooLong hlong, next_of_live rfl (Nat.sub_pos_of_lt hattempts), hpull]
  rfl

theorem drawsMade_of_tooLong : (fresh p source n state attempts).drawsMade calls = 0 := by
  have hcounted : (fresh p source n state attempts).counted 0 =
      fresh p source.counted n (state, 0) attempts := rfl
  rw [drawsMade, hcounted, run_fresh_of_tooLong hlong]
  rfl

end TooLong

/-- No attempt is left for the call. -/
theorem answer_of_attempts_le (h : attempts ≤ i) :
    (fresh p source n state attempts).answer i = none := by
  rcases Nat.lt_or_ge Bytes.lengthLimit n with hlong | hfits
  · rw [answer, run_fresh_of_tooLong hlong, Nat.sub_eq_zero_of_le h]
    rfl
  · exact answer_of_ge_stop hfits ((min_le_right _ _).trans (Nat.cast_le.2 h))

/-- What a call answers is told by its draw, whether or not calls before it have broken down. -/
theorem answer_cases (hfits : n ≤ Bytes.lengthLimit) (hattempts : i < attempts) :
    ((i : ℕ∞) < source.lifetime n state ∧ ∃ nonce, source.drawAt n state i = .ok nonce ∧
      (fresh p source n state attempts).answer i = some (itemOf p (.ok nonce))) ∨
    (source.lifetime n state = i ∧ ∃ cause, source.drawAt n state i = .error cause ∧
      (fresh p source n state attempts).answer i = some (.error (.sourceExhausted cause))) ∨
    (source.lifetime n state < i ∧ (fresh p source n state attempts).answer i = none) := by
  rcases lt_trichotomy (i : ℕ∞) (source.lifetime n state) with hlife | hlife | hlife
  · obtain ⟨nonce, hnonce⟩ := Source.lt_lifetime_iff.1 hlife i (Nat.le_refl i)
    exact .inl ⟨hlife, nonce, hnonce, hnonce ▸ answer_of_le_lifetime hfits hattempts hlife.le⟩
  · obtain ⟨-, cause, hcause⟩ := Source.lifetime_eq_iff.1 hlife.symm
    have hanswer := answer_of_le_lifetime (p := p) hfits hattempts hlife.le
    rw [hcause] at hanswer
    exact .inr (.inl ⟨hlife.symm, cause, hcause, hanswer⟩)
  · refine .inr (.inr ⟨hlife, answer_of_ge_stop hfits ?_⟩)
    exact (min_le_left _ _).trans (Order.add_one_le_of_lt hlife)

/-- A call breaks down at a nonce that is too long, or at a draw that the hasher gives no digest
for. -/
theorem breaksDown_iff : (fresh p source n state attempts).BreaksDown i ↔ i < attempts ∧
    (Bytes.lengthLimit < n ∨ (i : ℕ∞) < source.lifetime n state ∧
      ∃ nonce, source.drawAt n state i = .ok nonce ∧
        p.hasher.digest [p.challenge, nonce.val] = none) := by
  have hitem : ∀ nonce : Block n, Item.breaksDown (itemOf p (.ok nonce)) = true ↔
      p.hasher.digest [p.challenge, nonce.val] = none := by
    intro nonce
    rw [itemOf, Puzzle.attempt, Puzzle.digest]
    cases p.hasher.digest [p.challenge, nonce.val] with
    | none => exact iff_of_true rfl rfl
    | some digest => exact iff_of_false Bool.false_ne_true (Option.some_ne_none digest)
  constructor
  · rintro ⟨item, hanswer, hbreaks⟩
    have hattempts : i < attempts := by
      refine Nat.not_le.1 fun hle => ?_
      rw [answer_of_attempts_le hle] at hanswer
      cases hanswer
    refine ⟨hattempts, ?_⟩
    rcases Nat.lt_or_ge Bytes.lengthLimit n with hlong | hfits
    · exact .inl hlong
    · right
      rcases answer_cases (p := p) hfits hattempts with
        ⟨hlife, nonce, hnonce, hsome⟩ | ⟨-, cause, -, hsome⟩ | ⟨-, hnone⟩
      · obtain rfl := Option.some.inj (hanswer.symm.trans hsome)
        exact ⟨hlife, nonce, hnonce, (hitem nonce).1 hbreaks⟩
      · obtain rfl := Option.some.inj (hanswer.symm.trans hsome)
        cases hbreaks
      · rw [hnone] at hanswer
        cases hanswer
  · rintro ⟨hattempts, hcause⟩
    rcases Nat.lt_or_ge Bytes.lengthLimit n with hlong | hfits
    · exact ⟨_, answer_of_tooLong hlong hattempts, rfl⟩
    · obtain ⟨hlife, nonce, hnonce, hdigest⟩ := hcause.resolve_left (Nat.not_lt.2 hfits)
      exact ⟨_, hnonce ▸ answer_of_le_lifetime hfits hattempts hlife.le, (hitem nonce).2 hdigest⟩

/-- Calls answer alike as long as there is an attempt to be made. -/
theorem answer_fresh_congr {few many : Nat} (hfew : i < few) (hmany : i < many) :
    (fresh p source n state few).answer i = (fresh p source n state many).answer i := by
  rcases Nat.lt_or_ge Bytes.lengthLimit n with hlong | hfits
  · rw [answer_of_tooLong hlong hfew, answer_of_tooLong hlong hmany]
  · rcases le_or_gt (i : ℕ∞) (source.lifetime n state) with hlife | hlife
    · rw [answer_of_le_lifetime hfits hfew hlife, answer_of_le_lifetime hfits hmany hlife]
    · have hover := Order.add_one_le_of_lt hlife
      rw [answer_of_ge_stop hfits ((min_le_left _ _).trans hover),
        answer_of_ge_stop hfits ((min_le_left _ _).trans hover)]

theorem items_fresh_isPrefix {few many : Nat} (h : few ≤ many) :
    feed.items (fresh p source n state few) <+: feed.items (fresh p source n state many) := by
  rw [List.prefix_iff_getElem?]
  intro i hi
  have hanswer := getElem?_items (fresh p source n state few) i
  rw [List.getElem?_eq_getElem hi] at hanswer
  have hfew : i < few := by
    refine Nat.not_le.1 fun hle => ?_
    rw [answer_of_attempts_le hle] at hanswer
    cases hanswer
  rw [getElem?_items, hanswer, answer_fresh_congr hfew (hfew.trans_le h)]

/-- Calls of an exhaustive search for the next item. A call that does not break down answers with the
attempt that is made with its draw, with one error if a draw fails before all attempts are made, and
with nothing ever after. A call breaks down only at a nonce that no memory holds, or at a draw that
the hasher gives no digest for; then the next call goes on with the next draw. Calls make one draw
each up to the end and none after it, but none at all if no memory holds a nonce. The answers do not
depend on the number of attempts to be made, as long as there is one to be made. -/
theorem exhaustive_stream {plan : Plan} {s : Search σ}
    (hstart : start p plan source state = .ok s) :
    let k := source.lifetime plan.nonceLength state
    let draw := source.drawAt plan.nonceLength state
    (∀ i, ¬ s.BreaksDown i →
      ((i : ℕ∞) < k → i < plan.attempts → ∃ nonce a, draw i = .ok nonce ∧
        p.attempt nonce.val = some a ∧ a.nonce = nonce.val ∧ s.answer i = some (.ok a)) ∧
      (k = i → i < plan.attempts → ∃ cause, draw i = .error cause ∧
        s.answer i = some (.error (.sourceExhausted cause))) ∧
      (min (k + 1) plan.attempts ≤ (i : ℕ∞) → s.answer i = none)) ∧
    (∀ i, s.BreaksDown i ↔ i < plan.attempts ∧
      (Bytes.lengthLimit < plan.nonceLength ∨ (i : ℕ∞) < k ∧
        ∃ nonce, draw i = .ok nonce ∧ p.hasher.digest [p.challenge, nonce.val] = none)) ∧
    (∀ calls, (plan.nonceLength ≤ Bytes.lengthLimit →
        (s.drawsMade calls : ℕ∞) = min (calls : ℕ∞) (min (k + 1) plan.attempts)) ∧
      (Bytes.lengthLimit < plan.nonceLength → s.drawsMade calls = 0)) ∧
    (∀ more t, plan.attempts ≤ more →
      start p { plan with attempts := more } source state = .ok t →
      (∀ i < plan.attempts, s.answer i = t.answer i) ∧ feed.items s <+: feed.items t) := by
  intro k draw
  obtain rfl : s = fresh p source plan.nonceLength state plan.attempts := eq_of_start hstart
  refine ⟨?_, fun i => breaksDown_iff, fun calls => ⟨drawsMade_fresh, drawsMade_of_tooLong⟩, ?_⟩
  · intro i hsound
    have hfits (hattempts : i < plan.attempts) : plan.nonceLength ≤ Bytes.lengthLimit :=
      Nat.not_lt.1 fun hlong => hsound (breaksDown_iff.2 ⟨hattempts, .inl hlong⟩)
    refine ⟨?_, ?_, ?_⟩
    · intro hlife hattempts
      obtain ⟨nonce, hnonce⟩ := Source.lt_lifetime_iff.1 hlife i (Nat.le_refl i)
      have hdraw : draw i = .ok nonce := hnonce
      have hanswer := answer_of_le_lifetime (p := p) (hfits hattempts) hattempts hlife.le
      rw [hnonce, itemOf] at hanswer
      cases hattempt : p.attempt nonce.val with
      | none =>
        rw [hattempt] at hanswer
        exact absurd ⟨_, hanswer, rfl⟩ hsound
      | some a =>
        rw [hattempt] at hanswer
        exact ⟨nonce, a, hdraw, hattempt, Puzzle.nonce_of_attempt hattempt, hanswer⟩
    · intro hlife hattempts
      obtain ⟨-, cause, hcause⟩ := Source.lifetime_eq_iff.1 hlife
      refine ⟨cause, hcause, ?_⟩
      rw [answer_of_le_lifetime (hfits hattempts) hattempts hlife.ge, hcause]
      rfl
    · intro hstop
      rcases Nat.lt_or_ge i plan.attempts with hattempts | hover
      · exact answer_of_ge_stop (hfits hattempts) hstop
      · exact answer_of_attempts_le hover
  · intro more t hmore ht
    obtain rfl : t = fresh p source plan.nonceLength state more := eq_of_start ht
    exact ⟨fun i hi => answer_fresh_congr hi (hi.trans_le hmore), items_fresh_isPrefix hmore⟩

theorem exhaustive_stream_two_draws :
    let s : Search Nat := fresh .easy .drying 2 2 5
    start .easy ⟨5, 2⟩ .drying 2 = .ok s ∧ (∀ i < 4, ¬ s.BreaksDown i) ∧
      (∃ a, s.answer 1 = some (.ok a) ∧ a.nonce.length = 2) ∧
      (∃ cause, s.answer 2 = some (.error (.sourceExhausted cause))) ∧
      s.answer 3 = none ∧ s.drawsMade 4 = 3 ∧
      feed.items s <+: feed.items (fresh .easy .drying 2 2 7) := by
  intro s
  have hstart : start .easy ⟨5, 2⟩ .drying 2 = .ok s := rfl
  have hlarger : start .easy ⟨7, 2⟩ .drying 2 = .ok (fresh .easy .drying 2 2 7) := rfl
  have hlife : Source.lifetime .drying 2 2 = ((2 : Nat) : ℕ∞) := Source.lifetime_drying 2
  obtain ⟨hanswers, hbreaks, hdraws, hmore⟩ := exhaustive_stream hstart
  have hsound : ∀ i, ¬ s.BreaksDown i := by
    intro i hi
    obtain ⟨-, hlong | ⟨-, nonce, -, hnone⟩⟩ := (hbreaks i).1 hi
    · exact absurd hlong (by decide)
    · cases hnone
  have hthree := (hdraws 4).1 (by decide)
  simp only [hlife] at hanswers hthree
  obtain ⟨nonce, a, -, -, hnonce, ha⟩ := (hanswers 1 (hsound 1)).1 (by decide) (by decide)
  obtain ⟨cause, -, herror⟩ := (hanswers 2 (hsound 2)).2.1 rfl (by decide)
  have hcount : (s.drawsMade 4 : ℕ∞) = ((3 : Nat) : ℕ∞) := hthree
  refine ⟨hstart, fun i _ => hsound i, ⟨a, ha, ?_⟩, ⟨cause, herror⟩, ?_, Nat.cast_inj.1 hcount,
    (hmore 7 _ (by decide) hlarger).2⟩
  · rw [hnonce, nonce.property]
  · exact (hanswers 3 (hsound 3)).2.2 (by decide)

/-- A nonce that no memory holds is not even drawn, so no one hears of a source that has run dry. -/
theorem exhaustive_stream_nonce_too_long :
    ∃ s, start .easy ⟨1, 2 ^ 64 - 1⟩ .drying 0 = .ok s ∧ Puzzle.easy.hasher.Total ∧
      Source.lifetime .drying (2 ^ 64 - 1) 0 = ((0 : Nat) : ℕ∞) ∧
      (∀ cause, s.answer 0 ≠ some (.error (.sourceExhausted cause))) ∧ s.drawsMade 1 = 0 := by
  refine ⟨fresh .easy .drying (2 ^ 64 - 1) 0 1, rfl, fun _ => rfl, Source.lifetime_drying 0, ?_, rfl⟩
  intro cause hanswer
  have hlong := @answer_of_tooLong Nat .easy .drying (2 ^ 64 - 1) 1 0 0 (by decide) Nat.one_pos
  rw [hanswer] at hlong
  cases hlong

end ProofOfWork.Search

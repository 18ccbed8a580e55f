import ProofOfWork.Proofs.Random.Keys
import ProofOfWork.Proofs.Random.Keystream
import ProofOfWork.Proofs.Search.Exhaustive

/-!
The nonces of an exhaustive search on a stream of a seed. They are slices of one keystream at equal
distances, so no two of them share a byte.
-/
namespace ProofOfWork

namespace ChaCha.Generator.StandsAt

variable {key : Key} {g : Generator} {start : Nat} (h : g.StandsAt key start)

include h

theorem stateAfter (n draws : Nat) :
    (source.stateAfter n g draws).StandsAt key (start + draws * wholeWords n) := by
  induction draws with
  | zero =>
    rw [Nat.zero_mul]
    exact h
  | succ draws ih =>
    have hnext := ih.draw n
    rw [Nat.add_assoc, ← Nat.succ_mul] at hnext
    exact hnext

theorem exists_drawAt (n i : Nat) : ∃ nonce : Block n, source.drawAt n g i = .ok nonce ∧
    nonce.val = slice key (start + i * wholeWords n) n :=
  ⟨((source.stateAfter n g i).draw n).1, rfl, (h.stateAfter n i).draw_eq n⟩

end ChaCha.Generator.StandsAt

namespace Search

variable {p : Puzzle} {source : Source σ} {n attempts i : Nat} {state : σ} {a : Attempt}

theorem itemOf_ok_eq_ok_iff {nonce : Block n} :
    itemOf p (.ok nonce) = .ok a ↔ p.attempt nonce.val = some a := by
  unfold itemOf
  cases hattempt : p.attempt nonce.val <;> simp [hattempt]

/-- Draws that are known and succeed tell what calls answer. -/
theorem answer_eq_ok_iff_of_draws {nonce : Nat → Bytes}
    (hdraws : ∀ j, ∃ block : Block n, source.drawAt n state j = .ok block ∧ block.val = nonce j)
    (hattempts : i < attempts) :
    (fresh p source n state attempts).answer i = some (.ok a) ↔
      n ≤ Bytes.lengthLimit ∧ p.attempt (nonce i) = some a := by
  rcases Nat.lt_or_ge Bytes.lengthLimit n with hlong | hfits
  · rw [answer_of_tooLong hlong hattempts]
    exact iff_of_false nofun fun h => absurd hlong (Nat.not_lt.2 h.1)
  · have hlife : (i : ℕ∞) ≤ source.lifetime n state := by
      refine Source.le_lifetime_iff.2 fun j _ => ?_
      obtain ⟨block, hdraw, -⟩ := hdraws j
      exact ⟨block, hdraw⟩
    obtain ⟨block, hdraw, hnonce⟩ := hdraws i
    rw [answer_of_le_lifetime hfits hattempts hlife, Option.some_inj, hdraw, itemOf_ok_eq_ok_iff,
      hnonce]
    exact (and_iff_right hfits).symm

end Search

/-- The draws that a seed is asked for are slices of one keystream, whose key is the seed and the
number of the stream in eight bytes each, the least significant one first, and sixteen zero bytes. An
exhaustive search tries them as nonces in their order, each one behind the whole words of the one
before, and makes an attempt with each that the hasher gives a digest for. Draws of any lengths follow
each other in the same way, and as long as the blocks can be counted no byte is drawn twice. -/
theorem draws_of_seed (seed stream : UInt64) : ∃ key : ChaCha.Key,
    key.val = (List.range 8).map (fun i => UInt8.ofNat (seed.toNat / 256 ^ i)) ++
      (List.range 8).map (fun i => UInt8.ofNat (stream.toNat / 256 ^ i)) ++
        List.replicate 16 0 ∧
    (∀ (p : Puzzle) (plan : Plan) (s : Search ChaCha.Generator),
      Search.start p plan ChaCha.source (ChaCha.seeded seed stream) = .ok s →
      let nonce (k : Nat) :=
        ChaCha.slice key (k * (4 * (plan.nonceLength ⌈/⌉ 4))) plan.nonceLength
      ∀ k < plan.attempts,
        (∀ a, s.answer k = some (.ok a) → a.nonce = nonce k) ∧
        ((∃ a, s.answer k = some (.ok a)) ↔
          plan.nonceLength ≤ Bytes.lengthLimit ∧ (p.digest (nonce k)).isSome)) ∧
    (∀ lengths : List Nat,
      let start (i : Nat) := ((lengths.take i).map fun n => 4 * (n ⌈/⌉ 4)).sum
      (∀ i, ∀ hi : i < lengths.length,
        ((ChaCha.seeded seed stream).draws lengths)[i]? =
          some (ChaCha.slice key (start i) lengths[i])) ∧
      (start lengths.length ≤ ChaCha.blockSize * 2 ^ 64 →
        ∀ i j, ∀ hi : i < lengths.length, ∀ hj : j < lengths.length,
          ∀ a < lengths[i], ∀ b < lengths[j],
            ChaCha.place (start i + a) = ChaCha.place (start j + b) → i = j ∧ a = b)) := by
  refine ⟨ChaCha.keyOf seed stream, ChaCha.val_keyOf seed stream, ?_, ?_⟩
  all_goals have hstands : (ChaCha.seeded seed stream).StandsAt (ChaCha.keyOf seed stream) 0 :=
    ChaCha.Generator.standsAt_start _
  · intro p plan s hstart nonce k hk
    obtain rfl := Search.eq_of_start hstart
    have hdraws : ∀ j, ∃ block : Block plan.nonceLength,
        ChaCha.source.drawAt plan.nonceLength (ChaCha.seeded seed stream) j = .ok block ∧
          block.val = nonce j := by
      intro j
      have hdraw := hstands.exists_drawAt plan.nonceLength j
      rwa [Nat.zero_add, ChaCha.wholeWords_eq] at hdraw
    have hanswer (a : Attempt) := Search.answer_eq_ok_iff_of_draws (p := p) (a := a) hdraws hk
    constructor
    · intro a ha
      exact Puzzle.nonce_of_attempt ((hanswer a).1 ha).2
    · rw [← Puzzle.exists_attempt_iff, ← exists_and_left]
      exact exists_congr hanswer
  · intro lengths start
    constructor
    · intro i hi
      have hdraw := hstands.draws_getElem? hi
      rwa [Nat.zero_add] at hdraw
    · intro hblocks i j hi hj a ha b hb hplace
      have hused : ChaCha.used lengths ≤ ChaCha.blockSize * 2 ^ 64 := by
        rwa [← @List.take_length _ lengths]
      exact ChaCha.eq_of_place_eq hused hi hj ha hb hplace

theorem draws_of_seed_three_nonces :
    let g := ChaCha.seeded 7 2
    let s : Search ChaCha.Generator := .fresh .easy ChaCha.source 10 g 3
    Search.start .easy ⟨3, 10⟩ ChaCha.source g = .ok s ∧ ∃ key : ChaCha.Key,
      key.val = [7, 0, 0, 0, 0, 0, 0, 0, 2, 0, 0, 0, 0, 0, 0, 0] ++ List.replicate 16 0 ∧
      (∃ a, s.answer 2 = some (.ok a) ∧ a.nonce = ChaCha.slice key 24 10) ∧
      (g.draws [5, 70, 3])[2]? = some (ChaCha.slice key 80 3) ∧
      (∀ a < 70, ∀ b < 3, ChaCha.place (8 + a) ≠ ChaCha.place (80 + b)) := by
  intro g s
  have hstart : Search.start .easy ⟨3, 10⟩ ChaCha.source g = .ok s := rfl
  obtain ⟨key, hkey, hsearch, hlengths⟩ := draws_of_seed 7 2
  obtain ⟨hnonce, hexists⟩ := hsearch .easy ⟨3, 10⟩ s hstart 2 (by decide)
  obtain ⟨a, ha⟩ := hexists.2 ⟨by decide, rfl⟩
  obtain ⟨hslices, hplaces⟩ := hlengths [5, 70, 3]
  refine ⟨hstart, key, hkey, ⟨a, ha, hnonce a ha⟩, hslices 2 (by decide), ?_⟩
  intro a ha b hb hsame
  obtain ⟨hij, -⟩ := hplaces (by decide) 1 2 (by decide) (by decide) a ha b hb hsame
  cases hij

end ProofOfWork

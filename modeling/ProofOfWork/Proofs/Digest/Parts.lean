import Mathlib.Data.List.Basic
import ProofOfWork.Proofs.Digest.Algorithm
import ProofOfWork.Search.Attempt

/-!
Digests of messages that arrive in parts. What a context has read is what counts, not how it was
cut, so a nonce may be moved over to the challenge and the checks of it stay the same.
-/
namespace ProofOfWork

namespace Sha2

variable {α : Type} [Word α] {count : Nat} {bytes : Bytes}

/-- Words are not read from beyond their bytes. -/
theorem takeWords_append (h : count * Word.size α ≤ bytes.length) (words : Array α)
    (more : Bytes) :
    takeWords α count words (bytes ++ more) =
      ((takeWords α count words bytes).1, (takeWords α count words bytes).2 ++ more) := by
  induction count generalizing words bytes with
  | zero => rfl
  | succ count ih =>
    rw [Nat.succ_mul] at h
    have hfirst : Word.size α ≤ bytes.length := by omega
    have hrest : count * Word.size α ≤ (bytes.drop (Word.size α)).length := by
      rw [List.length_drop]
      omega
    rw [takeWords, List.take_append_of_le_length hfirst, List.drop_append_of_le_length hfirst,
      ih hrest, takeWords]

theorem takeWords_snd (count : Nat) (words : Array α) (bytes : Bytes) :
    (takeWords α count words bytes).2 = bytes.drop (count * Word.size α) := by
  induction count generalizing words bytes with
  | zero =>
    rw [Nat.zero_mul]
    rfl
  | succ count ih => rw [takeWords, ih, List.drop_drop, Nat.succ_mul, Nat.add_comm]

theorem absorb_succ (count : Nat) (state : Registers α) (bytes : Bytes) :
    absorb (count + 1) state bytes =
      absorb count (compress state (takeWords α 16 #[] bytes).1) (bytes.drop (blockSize α)) := by
  rw [blockSize, ← takeWords_snd 16 #[] bytes]
  rfl

/-- Blocks are not read from beyond their bytes. -/
theorem absorb_append (h : count * blockSize α ≤ bytes.length) (state : Registers α)
    (more : Bytes) : absorb count state (bytes ++ more) = absorb count state bytes := by
  induction count generalizing state bytes with
  | zero => rfl
  | succ count ih =>
    rw [Nat.succ_mul] at h
    have hfirst : blockSize α ≤ bytes.length := by omega
    have hrest : count * blockSize α ≤ (bytes.drop (blockSize α)).length := by
      rw [List.length_drop]
      omega
    rw [absorb_succ, absorb_succ, takeWords_append hfirst, List.drop_append_of_le_length hfirst,
      ih hrest]

/-- Some blocks, and then those behind them. -/
theorem absorb_add (first count : Nat) (state : Registers α) (bytes : Bytes) :
    absorb (first + count) state bytes =
      absorb count (absorb first state bytes) (bytes.drop (first * blockSize α)) := by
  induction first generalizing state bytes with
  | zero => rw [Nat.zero_add, Nat.zero_mul, List.drop_zero, absorb]
  | succ first ih =>
    rw [Nat.succ_add, absorb_succ, absorb_succ, ih, List.drop_drop, Nat.succ_mul, Nat.add_comm]

namespace Context

/-- The context of everything read so far. -/
def ofMessage (start : Registers α) (message : Bytes) : Context α where
  state := absorb (message.length / blockSize α) start message
  pending := message.drop (message.length / blockSize α * blockSize α)
  length := message.length

variable (start : Registers α) (message more : Bytes)

theorem ofMessage_nil : ofMessage start [] = Context.start start := by
  rw [ofMessage, List.length_nil, Nat.zero_div, List.drop_nil]
  rfl

/-- The full blocks of a message and those that its rest makes with more bytes. -/
theorem length_div_blockSize :
    (message ++ more).length / blockSize α = message.length / blockSize α +
      ((ofMessage start message).pending ++ more).length / blockSize α := by
  have hle := Nat.div_mul_le_self message.length (blockSize α)
  have hlength : (message ++ more).length =
      ((ofMessage start message).pending ++ more).length +
        message.length / blockSize α * blockSize α := by
    rw [ofMessage, List.length_append, List.length_append, List.length_drop]
    omega
  rcases Nat.eq_zero_or_pos (blockSize α) with hzero | hpos
  · rw [hzero]
    simp only [Nat.div_zero]
  · rw [hlength, Nat.add_mul_div_right _ _ hpos, Nat.add_comm]

/-- More bytes are absorbed from where a message has left the context. -/
theorem absorb_message_append :
    absorb ((message ++ more).length / blockSize α) start (message ++ more) =
      absorb (((ofMessage start message).pending ++ more).length / blockSize α)
        (ofMessage start message).state ((ofMessage start message).pending ++ more) := by
  have hle := Nat.div_mul_le_self message.length (blockSize α)
  rw [length_div_blockSize start, absorb_add, absorb_append hle, List.drop_append_of_le_length hle]
  rfl

theorem update_ofMessage :
    (ofMessage start message).update more = ofMessage start (message ++ more) := by
  have hle := Nat.div_mul_le_self message.length (blockSize α)
  have hpending : (ofMessage start (message ++ more)).pending =
      ((ofMessage start message).pending ++ more).drop
        (((ofMessage start message).pending ++ more).length / blockSize α * blockSize α) := by
    show (message ++ more).drop _ = _
    rw [length_div_blockSize start, Nat.add_mul, ← List.drop_drop,
      List.drop_append_of_le_length hle]
    rfl
  have hlength : (message ++ more).length = message.length + more.length := List.length_append
  rw [update, ← absorb_message_append, ← hpending]
  show Context.mk _ _ (message.length + more.length) = _
  rw [← hlength]
  rfl

theorem foldl_update (parts : List Bytes) :
    parts.foldl update (ofMessage start message) = ofMessage start (message ++ parts.flatten) := by
  induction parts generalizing message with
  | nil => rw [List.foldl_nil, List.flatten_nil, List.append_nil]
  | cons part parts ih =>
    rw [List.foldl_cons, update_ofMessage, ih, List.flatten_cons, List.append_assoc]

theorem finish_ofMessage (size : Nat) :
    (ofMessage start message).finish size = hash start size message := by
  rw [hash, finalState, absorb_message_append]
  rfl

end Context

/-- How a message is cut does not matter. -/
theorem hashParts_eq_hash (start : Registers α) (size : Nat) (parts : List Bytes) :
    hashParts start size parts = hash start size parts.flatten := by
  rw [hashParts, ← Context.ofMessage_nil, Context.foldl_update, Context.finish_ofMessage, List.nil_append]

end Sha2

namespace Algorithm

/-- The digest of a message in one piece. -/
def hash (a : Algorithm) (message : Bytes) : Bytes :=
  match a with
  | .sha256 => Sha2.hash Sha2.start256 32 message
  | .sha384 => Sha2.hash Sha2.start384 48 message
  | .sha512 => Sha2.hash Sha2.start512 64 message
  | .sha512Over256 => Sha2.hash Sha2.start512Over256 32 message

theorem digest_eq_hash (a : Algorithm) (parts : List Bytes) :
    a.digest parts = a.hash parts.flatten := by
  cases a <;> exact Sha2.hashParts_eq_hash _ _ _

example : Hex.encode (sha256.digest [[0x61], [], [0x62, 0x63]]) =
    "ba7816bf8f01cfea414140de5dae2223b00361a396177a9cb410ff61f20015ad" := by decide +kernel

/-- A puzzle whose digests are those of an algorithm. -/
def puzzle (a : Algorithm) (challenge : Bytes) (threshold : Threshold) : Puzzle where
  hasher := a.hasher
  challenge := challenge
  threshold := threshold

variable (a : Algorithm) (challenge nonce : Bytes)

theorem digest_puzzle (t : Threshold) :
    (a.puzzle challenge t).digest nonce = some (a.hash (challenge ++ nonce)) := by
  have hdigest : (a.puzzle challenge t).digest nonce = some (a.digest [challenge, nonce]) := rfl
  rw [hdigest, digest_eq_hash, List.flatten_cons, List.flatten_singleton]

theorem length_hash (message : Bytes) : (a.hash message).length = a.outputLength := by
  have hone := a.length_digest [message]
  rwa [digest_eq_hash, List.flatten_singleton] at hone

theorem verify_puzzle (t : Threshold) :
    (a.puzzle challenge t).verify nonce = some (t.accepts (a.hash (challenge ++ nonce))) := by
  rw [Puzzle.verify, digest_puzzle]
  rfl

theorem verifyStrictly_puzzle (t : Threshold) :
    (a.puzzle challenge t).verifyStrictly nonce = some (t.judge (a.hash (challenge ++ nonce))) := by
  rw [Puzzle.verifyStrictly, digest_puzzle]
  rfl

/-- The length of an encoding alone decides whether a check against it is refused. -/
theorem verifyStrictly_puzzle_eq_error_iff {d : Difficulty} {e : WrongLength} :
    (a.puzzle challenge d.threshold).verifyStrictly nonce = some (.error e) ↔
      d.length ≠ a.outputLength ∧ e = ⟨d.length, a.outputLength⟩ := by
  rw [verifyStrictly_puzzle, Option.some_inj, Threshold.judge_eq_error_iff, length_hash, ne_comm]
  rfl

/-- A digest depends on the concatenated parts alone and has the length that its algorithm declares.
So bytes may be moved between a challenge and a nonce, and both ways of checking answer the same; the
stricter one refuses exactly the encodings of another length. -/
theorem digests_of_parts (a : Algorithm) :
    (∀ parts : List Bytes, a.digest parts = a.hash parts.flatten ∧
      a.digest parts = a.digest [parts.flatten] ∧ (a.digest parts).length = a.outputLength) ∧
    (∀ parts others : List Bytes, parts.flatten = others.flatten →
      a.digest parts = a.digest others) ∧
    (∀ (t : Threshold) (challenge nonce challenge' nonce' : Bytes),
      challenge ++ nonce = challenge' ++ nonce' →
      (a.puzzle challenge t).verify nonce = (a.puzzle challenge' t).verify nonce' ∧
      (a.puzzle challenge t).verifyStrictly nonce =
        (a.puzzle challenge' t).verifyStrictly nonce') ∧
    (∀ (d : Difficulty) (challenge nonce : Bytes) (e : WrongLength),
      (a.puzzle challenge d.threshold).verifyStrictly nonce = some (.error e) ↔
        d.length ≠ a.outputLength ∧ e = ⟨d.length, a.outputLength⟩) := by
  refine ⟨?_, ?_, ?_, ?_⟩
  · intro parts
    refine ⟨a.digest_eq_hash parts, ?_, a.length_digest parts⟩
    rw [digest_eq_hash, digest_eq_hash, List.flatten_singleton]
  · intro parts others hsame
    rw [digest_eq_hash, digest_eq_hash, hsame]
  · intro t challenge nonce challenge' nonce' hsame
    constructor
    · rw [verify_puzzle, verify_puzzle, hsame]
    · rw [verifyStrictly_puzzle, verifyStrictly_puzzle, hsame]
  · intro d challenge nonce e
    exact a.verifyStrictly_puzzle_eq_error_iff challenge nonce

theorem digests_of_parts_moved_byte :
    let d : Difficulty := ⟨List.replicate 48 0xFF, by decide⟩
    sha512.digest [[1, 2], [], [3]] = sha512.digest [[1], [2, 3]] ∧
      (sha512.puzzle [1, 2] d.threshold).verify [3] =
        (sha512.puzzle [1] d.threshold).verify [2, 3] ∧
      (sha512.puzzle [1, 2] d.threshold).verifyStrictly [3] = some (.error ⟨48, 64⟩) := by
  intro d
  obtain ⟨-, hcuts, hmoved, hrefused⟩ := digests_of_parts sha512
  refine ⟨hcuts _ _ ?_, (hmoved d.threshold [1, 2] [3] [1] [2, 3] ?_).1, ?_⟩
  · decide
  · decide
  · exact (hrefused d [1, 2] [3] _).2 (by decide)

end Algorithm

end ProofOfWork

import ProofOfWork.Bytes.Basic

/-!
The SHA-2 hash functions. One definition serves both word sizes; a `Word` instance supplies the
rotations and constants of its size.
-/
namespace ProofOfWork.Sha2

class Word (α : Type) extends Add α, AndOp α, XorOp α, Complement α where
  /-- Bytes in a word. -/
  size : Nat
  ofNat : Nat → α
  toNat : α → Nat
  bigSigma0 : α → α
  bigSigma1 : α → α
  smallSigma0 : α → α
  smallSigma1 : α → α
  /-- One constant for each round. -/
  roundConstants : List α

/-- The eight chaining words. -/
structure Registers (α : Type) where
  a : α
  b : α
  c : α
  d : α
  e : α
  f : α
  g : α
  h : α

namespace Registers

variable {α : Type}

def toList (r : Registers α) : List α :=
  [r.a, r.b, r.c, r.d, r.e, r.f, r.g, r.h]

def add [Add α] (r s : Registers α) : Registers α :=
  ⟨r.a + s.a, r.b + s.b, r.c + s.c, r.d + s.d, r.e + s.e, r.f + s.f, r.g + s.g, r.h + s.h⟩

end Registers

variable {α : Type} [Word α]

def choose (x y z : α) : α :=
  (x &&& y) ^^^ (~~~x &&& z)

def majority (x y z : α) : α :=
  (x &&& y) ^^^ (x &&& z) ^^^ (y &&& z)

/-- One round with its constant and schedule word. -/
def round (r : Registers α) (constant word : α) : Registers α :=
  let t1 := r.h + Word.bigSigma1 r.e + choose r.e r.f r.g + constant + word
  let t2 := Word.bigSigma0 r.a + majority r.a r.b r.c
  ⟨t1 + t2, r.a, r.b, r.c, r.d + t1, r.e, r.f, r.g⟩

/-- The next schedule word from the sixteen before it. -/
def nextWord (words : Array α) : α :=
  let back (k : Nat) : α := words.getD (words.size - k) (Word.ofNat 0)
  Word.smallSigma1 (back 2) + back 7 + Word.smallSigma0 (back 15) + back 16

def extend : (count : Nat) → Array α → Array α
  | 0, words => words
  | count + 1, words => extend count (words.push (nextWord words))

/-- Sixteen words of the block and one more for each further round. -/
def schedule (block : Array α) : Array α :=
  extend ((Word.roundConstants (α := α)).length - 16) block

def compress (state : Registers α) (block : Array α) : Registers α :=
  let rounds := (Word.roundConstants (α := α)).zip (schedule block).toList
  state.add (rounds.foldl (fun r (constant, word) => round r constant word) state)

variable (α) in
/-- Bytes in a block. -/
def blockSize : Nat :=
  16 * Word.size α

variable (α) in
/-- A one bit, zeros up to the end of a block, and the length in bits in the last two words. -/
def padding (length : Nat) : Bytes :=
  let field := 2 * Word.size α
  let used := (length + 1 + field) % blockSize α
  let zeros := if used = 0 then 0 else blockSize α - used
  0x80 :: List.replicate zeros 0 ++ Bytes.ofNatBE field (8 * length)

variable (α) in
def wordOfBytes (bs : Bytes) : α :=
  Word.ofNat bs.value

variable (α) in
/-- The first `count` words of the bytes, and the bytes after them. -/
def takeWords : (count : Nat) → Array α → Bytes → Array α × Bytes
  | 0, words, rest => (words, rest)
  | count + 1, words, rest =>
    takeWords count (words.push (wordOfBytes α (rest.take (Word.size α)))) (rest.drop (Word.size α))

/-- Runs over `count` blocks of the bytes. -/
def absorb : (count : Nat) → Registers α → Bytes → Registers α
  | 0, state, _ => state
  | count + 1, state, bytes =>
    let (block, rest) := takeWords α 16 #[] bytes
    absorb count (compress state block) rest

def Registers.toBytes (r : Registers α) : Bytes :=
  r.toList.flatMap fun w => Bytes.ofNatBE (Word.size α) (Word.toNat w)

/-- The final state for a message. -/
def finalState (start : Registers α) (message : Bytes) : Registers α :=
  let padded := message ++ padding α message.length
  absorb (padded.length / blockSize α) start padded

/-- The first `size` bytes of the final state. -/
def hash (start : Registers α) (size : Nat) (message : Bytes) : Bytes :=
  (finalState start message).toBytes.take size

theorem length_toBytes (r : Registers α) : r.toBytes.length = 8 * Word.size α := by
  simp [Registers.toBytes, Registers.toList]
  omega

end ProofOfWork.Sha2

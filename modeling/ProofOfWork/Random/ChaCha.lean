import ProofOfWork.Random.Source

/-!
The ChaCha20 keystream, and a generator that draws from it block by block. A draw ends on a word
boundary: what is left of a partly used word is dropped.
-/
namespace ProofOfWork.ChaCha

abbrev Key := Block 32

abbrev Words := Vector UInt32 16

/-- The little-endian word at position `i` of the bytes, counted in words. -/
def wordAt (bs : Bytes) (i : Nat) : UInt32 :=
  UInt32.ofNat (Bytes.value ((bs.drop (4 * i)).take 4).reverse)

/-- The constant, the key, the block counter in two words, and a nonce of zeros. -/
def initialWords (key : Key) (counter : UInt64) : Words :=
  let k := wordAt key.val
  #v[0x61707865, 0x3320646e, 0x79622d32, 0x6b206574, k 0, k 1, k 2, k 3, k 4, k 5, k 6, k 7,
    counter.toUInt32, (counter >>> 32).toUInt32, 0, 0]

def rotateLeft (x n : UInt32) : UInt32 :=
  x <<< n ||| x >>> (32 - n)

def quarterRound (a b c d : Fin 16) (w : Words) : Words :=
  let w := w.set a (w[a] + w[b])
  let w := w.set d (rotateLeft (w[d] ^^^ w[a]) 16)
  let w := w.set c (w[c] + w[d])
  let w := w.set b (rotateLeft (w[b] ^^^ w[c]) 12)
  let w := w.set a (w[a] + w[b])
  let w := w.set d (rotateLeft (w[d] ^^^ w[a]) 8)
  let w := w.set c (w[c] + w[d])
  w.set b (rotateLeft (w[b] ^^^ w[c]) 7)

/-- A round of columns and a round of diagonals. -/
def doubleRound (w : Words) : Words :=
  let w := quarterRound 0 4 8 12 w
  let w := quarterRound 1 5 9 13 w
  let w := quarterRound 2 6 10 14 w
  let w := quarterRound 3 7 11 15 w
  let w := quarterRound 0 5 10 15 w
  let w := quarterRound 1 6 11 12 w
  let w := quarterRound 2 7 8 13 w
  quarterRound 3 4 9 14 w

def doubleRounds : (count : Nat) → Words → Words
  | 0, w => w
  | count + 1, w => doubleRounds count (doubleRound w)

def wordBytes (w : UInt32) : Bytes :=
  Bytes.ofNatLE 4 w.toNat

/-- Block number `counter` of the keystream, 64 bytes. -/
def block (key : Key) (counter : UInt64) : Bytes :=
  let start := initialWords key counter
  (start.zipWith (· + ·) (doubleRounds 10 start)).toList.flatMap wordBytes

/-- The published block of a key and a counter that are not zero. -/
example : block ⟨0x00 :: 0xff :: List.replicate 30 0, rfl⟩ 2 =
    [0x72, 0xd5, 0x4d, 0xfb, 0xf1, 0x2e, 0xc4, 0x4b, 0x36, 0x26, 0x92, 0xdf, 0x94, 0x13,
     0x7f, 0x32, 0x8f, 0xea, 0x8d, 0xa7, 0x39, 0x90, 0x26, 0x5e, 0xc1, 0xbb, 0xbe, 0xa1,
     0xae, 0x9a, 0xf0, 0xca, 0x13, 0xb2, 0x5a, 0xa2, 0x6c, 0xb4, 0xa6, 0x48, 0xcb, 0x9b,
     0x9d, 0x1b, 0xe6, 0x5b, 0x2c, 0x09, 0x24, 0xa6, 0x6c, 0x54, 0xd5, 0x45, 0xec, 0x1b,
     0x73, 0x74, 0xf4, 0x87, 0x2e, 0x99, 0xf0, 0x96] := by
  decide +kernel

def blockSize : Nat := 64

@[simp] theorem length_wordBytes (w : UInt32) : (wordBytes w).length = 4 := by
  simp [wordBytes]

@[simp] theorem length_block (key : Key) (counter : UInt64) :
    (block key counter).length = blockSize := by
  simp only [block, Bytes.length_flatMap_of_eq length_wordBytes, Vector.length_toList, blockSize]

/-- Blocks `first`, `first + 1`, … in a row; the counter is a 64-bit word. -/
def blocks (key : Key) (first count : Nat) : Bytes :=
  (List.range' first count).flatMap fun i => block key (UInt64.ofNat i)

@[simp] theorem length_blocks (key : Key) (first count : Nat) :
    (blocks key first count).length = blockSize * count := by
  simp only [blocks, Bytes.length_flatMap_of_eq fun i => length_block key (UInt64.ofNat i),
    List.length_range']

/-- The bytes of whole words that a draw of `n` bytes uses up. -/
def wholeWords (n : Nat) : Nat :=
  (n + 3) / 4 * 4

/-- A place in the keystream of a key. -/
structure Generator where
  key : Key
  /-- Blocks made so far. -/
  made : Nat
  /-- Bytes of them that are still to be drawn. -/
  buffer : Bytes

namespace Generator

def start (key : Key) : Generator where
  key := key
  made := 0
  buffer := []

/-- Blocks that must be made before `n` bytes can be drawn. -/
def missing (g : Generator) (n : Nat) : Nat :=
  (n - g.buffer.length + (blockSize - 1)) / blockSize

/-- The buffer with enough blocks behind it for a draw of `n` bytes. -/
def filled (g : Generator) (n : Nat) : Bytes :=
  g.buffer ++ blocks g.key g.made (g.missing n)

theorem le_length_filled (g : Generator) (n : Nat) : n ≤ (g.filled n).length := by
  simp [filled, missing, blockSize]
  omega

def draw (n : Nat) (g : Generator) : Block n × Generator :=
  (⟨(g.filled n).take n, by simp [g.le_length_filled n]⟩,
    { g with made := g.made + g.missing n, buffer := (g.filled n).drop (wholeWords n) })

end Generator

def source : Source Generator where
  draw n g := ((g.draw n).map Except.ok id)

/-- A seed and the number of a stream in its first 16 bytes, little-endian, and zeros. -/
def keyOf (seed stream : UInt64) : Key :=
  ⟨Bytes.ofNatLE 8 seed.toNat ++ Bytes.ofNatLE 8 stream.toNat ++ List.replicate 16 0, by simp⟩

/-- Stream `stream` of a seed. -/
def seeded (seed stream : UInt64) : Generator :=
  Generator.start (keyOf seed stream)

end ProofOfWork.ChaCha

import ProofOfWork.Digest.Sha2

/-! SHA-2 over a message that arrives in parts. -/
namespace ProofOfWork.Sha2

variable {α : Type} [Word α]

/-- The state after the full blocks so far, and the bytes that fill no block yet. -/
structure Context (α : Type) where
  state : Registers α
  pending : Bytes
  length : Nat

namespace Context

def start (state : Registers α) : Context α where
  state := state
  pending := []
  length := 0

def update (c : Context α) (part : Bytes) : Context α :=
  let bytes := c.pending ++ part
  let full := bytes.length / blockSize α
  { state := absorb full c.state bytes
    pending := bytes.drop (full * blockSize α)
    length := c.length + part.length }

/-- The first `size` bytes of the state after the padded rest. -/
def finish (c : Context α) (size : Nat) : Bytes :=
  let bytes := c.pending ++ padding α c.length
  (absorb (bytes.length / blockSize α) c.state bytes).toBytes.take size

theorem length_finish (c : Context α) (size : Nat) (h : size ≤ 8 * Word.size α) :
    (c.finish size).length = size := by
  simp [finish, length_toBytes, h]

end Context

def hashParts (start : Registers α) (size : Nat) (parts : List Bytes) : Bytes :=
  (parts.foldl Context.update (Context.start start)).finish size

end ProofOfWork.Sha2

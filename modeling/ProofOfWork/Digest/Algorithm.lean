import ProofOfWork.Digest.Hasher
import ProofOfWork.Digest.Incremental
import ProofOfWork.Digest.Sha2Words
import ProofOfWork.Text.Lowercase

/-! The hash algorithms on offer and their names. -/
namespace ProofOfWork

inductive Algorithm
  | sha256
  | sha384
  | sha512
  /-- SHA-512 with starting words of its own, cut to 256 bits. -/
  | sha512Over256
  deriving DecidableEq

namespace Algorithm

instance : Inhabited Algorithm := ⟨sha256⟩

def all : List Algorithm := [sha256, sha384, sha512, sha512Over256]

def outputLength : Algorithm → Nat
  | .sha256 => 32
  | .sha384 => 48
  | .sha512 => 64
  | .sha512Over256 => 32

def name : Algorithm → String
  | .sha256 => "sha256"
  | .sha384 => "sha384"
  | .sha512 => "sha512"
  | .sha512Over256 => "sha512/256"

/-- The digest of the concatenated parts. -/
def digest (a : Algorithm) (parts : List Bytes) : Bytes :=
  match a with
  | .sha256 => Sha2.hashParts Sha2.start256 32 parts
  | .sha384 => Sha2.hashParts Sha2.start384 48 parts
  | .sha512 => Sha2.hashParts Sha2.start512 64 parts
  | .sha512Over256 => Sha2.hashParts Sha2.start512Over256 32 parts

def hasher (a : Algorithm) : Hasher where
  outputLength := a.outputLength
  digest parts := some (a.digest parts)

structure Invalid where
  text : String

def Invalid.message (e : Invalid) : String :=
  s!"Invalid hash algorithm: {e.text}"

/-- Letters of either case are read, and hyphens may stand anywhere. -/
def ofText (text : String) : Except Invalid Algorithm :=
  match String.ofList ((Text.lowercase text.toList).filter (· != '-')) with
  | "sha256" => .ok .sha256
  | "sha384" => .ok .sha384
  | "sha512" => .ok .sha512
  | "sha512/256" => .ok .sha512Over256
  | "sha512_256" => .ok .sha512Over256
  | _ => .error ⟨text⟩

/-- A host offers every algorithm. -/
def describe (a : Algorithm) : String :=
  s!"{a.name} ({a.outputLength} bytes)"

end Algorithm

end ProofOfWork

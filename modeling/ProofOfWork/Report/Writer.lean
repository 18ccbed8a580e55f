import ProofOfWork.Bytes.Basic

/-! Output that may take a part of what it is given, and may fail. -/
namespace ProofOfWork

/-- A write takes some bytes from the front and says how many. -/
structure Writer (ω : Type) where
  write : Bytes → ω → Except String Nat × ω
  flush : ω → Except String Unit × ω

/-- The pieces that were written, the latest first. -/
structure Written where
  latestFirst : List Bytes

namespace Written

def empty : Written := ⟨[]⟩

def append (out : Written) (piece : Bytes) : Written :=
  ⟨piece :: out.latestFirst⟩

def bytes (out : Written) : Bytes :=
  out.latestFirst.reverse.flatten

@[simp]
theorem bytes_empty : empty.bytes = [] := rfl

@[simp]
theorem bytes_append (out : Written) (piece : Bytes) :
    (out.append piece).bytes = out.bytes ++ piece := by
  simp [append, bytes]

end Written

namespace Writer

/-- Writes on until all bytes are taken; a write that takes none fails. Outputs that ask to be tried
again once they were interrupted are left out: every error ends the writing. -/
def writeAll (w : Writer ω) : Bytes → ω → Except String Unit × ω
  | [], s => (.ok (), s)
  | b :: rest, s =>
    match w.write (b :: rest) s with
    | (.error cause, s) => (.error cause, s)
    | (.ok 0, s) => (.error "failed to write whole buffer", s)
    | (.ok (n + 1), s) => writeAll w (rest.drop n) s
termination_by bytes => bytes.length
decreasing_by simp only [List.length_drop, List.length_cons]; omega

/-- Takes everything. -/
def memory : Writer Written where
  write bytes out := (.ok bytes.length, out.append bytes)
  flush out := (.ok (), out)

/-- Output with room for so many bytes more. -/
structure Limited where
  room : Nat
  accepted : Written

/-- Once the room is used up, writes fail with the given text, or take nothing if there is none. -/
def limited (full : Option String) : Writer Limited where
  write bytes out :=
    if out.room = 0 then
      match full with
      | some cause => (.error cause, out)
      | none => (.ok 0, out)
    else
      let taken := bytes.take out.room
      (.ok taken.length, ⟨out.room - taken.length, out.accepted.append taken⟩)
  flush out := (.ok (), out)

end Writer

end ProofOfWork

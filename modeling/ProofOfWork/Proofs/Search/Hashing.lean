import ProofOfWork.Search.Basic

/-! When a search asks its hasher for a digest. -/
namespace ProofOfWork.Search

/-- The nonce that the search hashes for its next item. -/
def hashed? (s : Search σ) : Option Bytes :=
  if s.ended || s.remaining == 0 then none
  else if Bytes.lengthLimit < s.nonceLength then none
  else (s.source.draw s.nonceLength s.state).1.toOption.map Subtype.val

/-- The item is the attempt with the nonce that is hashed. -/
theorem next_of_hashed? {s : Search σ} {nonce : Bytes} (h : s.hashed? = some nonce) :
    s.next.map Prod.fst = some ((s.puzzle.attempt nonce).elim (.error .hasherFailed) .ok) := by
  unfold hashed? at h
  split at h
  · cases h
  · rename_i hlive
    split at h
    · cases h
    · rename_i hfits
      cases hdraw : s.source.draw s.nonceLength s.state with
      | mk drawn state =>
        rw [hdraw] at h
        cases drawn with
        | error cause => cases h
        | ok block =>
          obtain rfl : block.val = nonce := by simpa [Except.toOption] using h
          simp only [next, hlive, pull, hfits, hdraw, itemOf, if_false, Bool.false_eq_true,
            Option.map_some]
          cases s.puzzle.attempt block.val <;> rfl

/-- Without a nonce to hash the item is the same with every hasher. -/
theorem next_of_hashed?_eq_none {s : Search σ} (h : s.hashed? = none) (p : Puzzle) :
    ({ s with puzzle := p } : Search σ).next.map Prod.fst = s.next.map Prod.fst := by
  unfold hashed? at h
  split at h
  · rename_i hdone
    simp only [next, hdone, if_true, Option.map_none]
  · rename_i hlive
    split at h
    · rename_i hlong
      simp only [next, hlive, pull, hlong, if_true, if_false, Bool.false_eq_true, Option.map_some]
    · rename_i hfits
      cases hdraw : s.source.draw s.nonceLength s.state with
      | mk drawn state =>
        rw [hdraw] at h
        cases drawn with
        | ok block => simp [Except.toOption] at h
        | error cause =>
          simp only [next, hlive, pull, hfits, hdraw, itemOf, if_false, Bool.false_eq_true,
            Option.map_some]

end ProofOfWork.Search

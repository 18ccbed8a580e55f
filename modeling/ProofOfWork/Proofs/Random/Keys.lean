import Mathlib.Tactic.IntervalCases
import ProofOfWork.Proofs.Bytes.Value
import ProofOfWork.Random.ChaCha

/-!
Seeds and streams are told apart by their keys, and keys by the words that a block is made from.
-/
namespace ProofOfWork

theorem Bytes.ofNatLE_eq_map (size n : Nat) :
    ofNatLE size n = (List.range size).map fun i => UInt8.ofNat (n / 256 ^ i) := by
  induction size generalizing n with
  | zero => rfl
  | succ size ih =>
    rw [ofNatLE, ih, List.range_succ_eq_map, List.map_cons, List.map_map, Nat.pow_zero, Nat.div_one]
    refine congrArg _ (List.map_congr_left fun i _ => ?_)
    rw [Function.comp_apply, Nat.pow_succ', Nat.div_div_eq_div_mul]

theorem Bytes.ofNatLE_inj {size m n : Nat} (hm : m < 256 ^ size) (hn : n < 256 ^ size) :
    ofNatLE size m = ofNatLE size n ↔ m = n := by
  constructor
  · intro h
    induction size generalizing m n with
    | zero => omega
    | succ size ih =>
      obtain ⟨hbyte, hrest⟩ := List.cons.inj h
      rw [Nat.pow_succ] at hm hn
      -- the first byte is the remainder, and what follows encodes the quotient
      have hlow : m % 256 = n % 256 := by
        have hnat : (UInt8.ofNat m).toNat = (UInt8.ofNat n).toNat := congrArg UInt8.toNat hbyte
        rwa [UInt8.toNat_ofNat', UInt8.toNat_ofNat'] at hnat
      have hhigh : m / 256 = n / 256 :=
        ih (Nat.div_lt_of_lt_mul (by omega)) (Nat.div_lt_of_lt_mul (by omega)) hrest
      omega
  · rintro rfl
    rfl

namespace ChaCha

/-- Every byte of the key of a seed. -/
theorem val_keyOf (seed stream : UInt64) : (keyOf seed stream).val =
    (List.range 8).map (fun i => UInt8.ofNat (seed.toNat / 256 ^ i)) ++
      (List.range 8).map (fun i => UInt8.ofNat (stream.toNat / 256 ^ i)) ++
        List.replicate 16 0 := by
  rw [← Bytes.ofNatLE_eq_map, ← Bytes.ofNatLE_eq_map]
  rfl

theorem keyOf_inj {seed₁ seed₂ stream₁ stream₂ : UInt64} :
    keyOf seed₁ stream₁ = keyOf seed₂ stream₂ ↔ seed₁ = seed₂ ∧ stream₁ = stream₂ := by
  constructor
  · intro h
    have hbytes := congrArg Subtype.val h
    obtain ⟨hfront, -⟩ := List.append_inj' hbytes rfl
    obtain ⟨hseed, hstream⟩ := List.append_inj hfront (by simp)
    rw [Bytes.ofNatLE_inj seed₁.toNat_lt seed₂.toNat_lt] at hseed
    rw [Bytes.ofNatLE_inj stream₁.toNat_lt stream₂.toNat_lt] at hstream
    exact ⟨UInt64.toNat_inj.1 hseed, UInt64.toNat_inj.1 hstream⟩
  · rintro ⟨rfl, rfl⟩
    rfl

section

variable {as bs : Bytes} {count : Nat}

theorem chunk_eq_of_wordAt_eq {i : Nat} (has : 4 * i + 4 ≤ as.length) (hbs : 4 * i + 4 ≤ bs.length)
    (h : wordAt as i = wordAt bs i) : (as.drop (4 * i)).take 4 = (bs.drop (4 * i)).take 4 := by
  have hlength : ∀ {cs : Bytes}, 4 * i + 4 ≤ cs.length →
      ((cs.drop (4 * i)).take 4).reverse.length = 4 := by
    intro cs hcs
    rw [List.length_reverse, List.length_take, List.length_drop]
    omega
  have hword : ∀ {cs : Bytes}, 4 * i + 4 ≤ cs.length →
      (wordAt cs i).toNat = Bytes.value ((cs.drop (4 * i)).take 4).reverse := by
    intro cs hcs
    have hlt := Bytes.value_lt ((cs.drop (4 * i)).take 4).reverse
    rw [hlength hcs] at hlt
    rw [wordAt, UInt32.toNat_ofNat']
    exact Nat.mod_eq_of_lt hlt
  have hvalue := congrArg UInt32.toNat h
  rw [hword has, hword hbs] at hvalue
  have hreverse := Bytes.eq_of_value_eq ((hlength has).trans (hlength hbs).symm) hvalue
  exact List.reverse_injective hreverse

theorem eq_of_wordAt_eq (has : as.length = 4 * count) (hbs : bs.length = 4 * count)
    (h : ∀ i < count, wordAt as i = wordAt bs i) : as = bs := by
  apply List.ext_getElem (has.trans hbs.symm)
  intro j hja hjb
  -- byte `j` is found again in word `j / 4`, at place `j % 4`
  have hj : j / 4 < count := by omega
  have hchunk := chunk_eq_of_wordAt_eq (by omega) (by omega) (h (j / 4) hj)
  have hbyte := congrArg (·[j % 4]?) hchunk
  have hplace : 4 * (j / 4) + j % 4 = j := Nat.div_add_mod j 4
  have hin : j % 4 < 4 := Nat.mod_lt j (by decide)
  simpa [List.getElem?_take, hin, hplace, hja, hjb] using hbyte

end

theorem getElem_initialWords (key : Key) (counter : UInt64) {i : Nat} (hi : i < 8) :
    (initialWords key counter)[4 + i] = wordAt key.val i := by
  interval_cases i <;> rfl

/-- The key can be read off the words. -/
theorem eq_of_initialWords_eq {key₁ key₂ : Key} {counter₁ counter₂ : UInt64}
    (h : initialWords key₁ counter₁ = initialWords key₂ counter₂) : key₁ = key₂ := by
  have hlength : ∀ key : Key, key.val.length = 4 * 8 := fun key => key.property
  apply Subtype.ext
  apply eq_of_wordAt_eq (hlength key₁) (hlength key₂)
  intro i hi
  simp only [← getElem_initialWords key₁ counter₁ hi, ← getElem_initialWords key₂ counter₂ hi, h]

/-- The words that the next block is made from. -/
def Generator.words (g : Generator) : Words :=
  initialWords g.key (UInt64.ofNat g.made)

theorem words_seeded_inj {seed₁ seed₂ stream₁ stream₂ : UInt64} :
    (seeded seed₁ stream₁).words = (seeded seed₂ stream₂).words ↔
      seed₁ = seed₂ ∧ stream₁ = stream₂ := by
  constructor
  · intro h
    exact keyOf_inj.1 (eq_of_initialWords_eq h)
  · rintro ⟨rfl, rfl⟩
    rfl

end ChaCha

end ProofOfWork

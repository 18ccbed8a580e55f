import Mathlib.Algebra.BigOperators.Group.List.Basic
import Mathlib.Algebra.Order.Floor.Div
import Mathlib.Data.List.Basic
import Mathlib.Data.Set.Function
import Mathlib.GroupTheory.GroupAction.Ring
import ProofOfWork.Random.ChaCha

/-!
The keystream of a key as one sequence of bytes. Draws of any lengths in a row are slices of it that
follow each other, each behind the whole words of the one before.
-/
namespace ProofOfWork.ChaCha

/-- Where byte `i` of a keystream is: the counter of its block, and its place there. -/
def place (i : Nat) : UInt64 × Fin blockSize :=
  (UInt64.ofNat (i / blockSize), ⟨i % blockSize, Nat.mod_lt i (by decide)⟩)

/-- Byte `i` of the keystream of a key. -/
def keystream (key : Key) (i : Nat) : UInt8 :=
  (block key (place i).1).getD (place i).2 0

/-- `n` bytes of the keystream in a row. -/
def slice (key : Key) (start n : Nat) : Bytes :=
  (List.range' start n).map (keystream key)

variable {key : Key} {start n : Nat}

@[simp] theorem length_slice : (slice key start n).length = n := by
  simp [slice]

theorem slice_append (m : Nat) :
    slice key start m ++ slice key (start + m) n = slice key start (m + n) := by
  rw [slice, slice, ← List.map_append, List.range'_append_1, slice]

theorem slice_take {k : Nat} (h : k ≤ n) : (slice key start n).take k = slice key start k := by
  obtain ⟨rest, rfl⟩ := Nat.exists_eq_add_of_le h
  rw [← slice_append, List.take_left' length_slice]

theorem slice_drop {k : Nat} (h : k ≤ n) :
    (slice key start n).drop k = slice key (start + k) (n - k) := by
  obtain ⟨rest, rfl⟩ := Nat.exists_eq_add_of_le h
  rw [← slice_append, List.drop_left' length_slice, Nat.add_sub_cancel_left]

theorem block_eq_slice (key : Key) (i : Nat) :
    block key (UInt64.ofNat i) = slice key (blockSize * i) blockSize := by
  refine List.ext_getElem (by simp) fun j hj _ => ?_
  rw [length_block] at hj
  have hplace : place (blockSize * i + j) = (UInt64.ofNat i, ⟨j, hj⟩) := by
    rw [place, Nat.mul_add_div (by decide), Nat.div_eq_of_lt hj, Nat.add_zero]
    simp only [Nat.mul_add_mod_self_left, Nat.mod_eq_of_lt hj]
  have hbyte : (slice key (blockSize * i) blockSize)[j] = keystream key (blockSize * i + j) := by
    simp [slice]
  rw [hbyte, keystream, hplace]
  simp [List.getD_eq_getElem?_getD, hj]

theorem blocks_eq_slice (key : Key) (first count : Nat) :
    blocks key first count = slice key (blockSize * first) (blockSize * count) := by
  induction count generalizing first with
  | zero => rfl
  | succ count ih =>
    have hcons : blocks key first (count + 1) =
        block key (UInt64.ofNat first) ++ blocks key (first + 1) count := by
      rw [blocks, List.range'_succ, List.flatMap_cons, blocks]
    rw [hcons, ih, block_eq_slice, Nat.mul_succ, slice_append, Nat.mul_succ, Nat.add_comm blockSize]

/-- Whole words are what a length is rounded up to. -/
theorem wholeWords_eq (n : Nat) : wholeWords n = 4 * (n ⌈/⌉ 4) := by
  rw [Nat.ceilDiv_eq_add_pred_div, wholeWords, Nat.mul_comm]
  rfl

theorem le_wholeWords (n : Nat) : n ≤ wholeWords n := by
  unfold wholeWords
  omega

namespace Generator

/-- The next byte that a generator gives is byte `start` of the keystream, and the bytes that it has
made are the keystream from there to the end of a block. -/
structure StandsAt (g : Generator) (key : Key) (start : Nat) : Prop where
  key_eq : g.key = key
  start_le : start ≤ blockSize * g.made
  /-- A draw ends with a whole word. -/
  aligned : start % 4 = 0
  buffer_eq : g.buffer = slice key start (blockSize * g.made - start)

theorem standsAt_start (key : Key) : (Generator.start key).StandsAt key 0 where
  key_eq := rfl
  start_le := Nat.zero_le _
  aligned := rfl
  buffer_eq := rfl

namespace StandsAt

variable {g : Generator} (h : g.StandsAt key start)

include h

theorem filled_eq (n : Nat) :
    g.filled n = slice key start (blockSize * (g.made + g.missing n) - start) := by
  have hle := h.start_le
  obtain ⟨ahead, hahead⟩ := Nat.exists_eq_add_of_le hle
  have hlength : blockSize * (g.made + g.missing n) - start = ahead + blockSize * g.missing n := by
    rw [Nat.mul_add]
    omega
  rw [filled, h.buffer_eq, h.key_eq, blocks_eq_slice, hlength, hahead, Nat.add_sub_cancel_left,
    slice_append]

/-- Enough blocks are made for the whole words of a draw. -/
theorem wholeWords_le (n : Nat) :
    wholeWords n ≤ blockSize * (g.made + g.missing n) - start := by
  have hfilled := g.le_length_filled n
  have haligned := h.aligned
  rw [h.filled_eq, length_slice] at hfilled
  unfold wholeWords
  unfold blockSize at *
  omega

theorem draw_eq (n : Nat) : (g.draw n).1.val = slice key start n := by
  have hle := (le_wholeWords n).trans (h.wholeWords_le n)
  show (g.filled n).take n = _
  rw [h.filled_eq, slice_take hle]

/-- What is left of a partly used word is dropped. -/
theorem draw (n : Nat) : (g.draw n).2.StandsAt key (start + wholeWords n) := by
  have hle := h.wholeWords_le n
  have hstart := h.start_le
  constructor
  case key_eq => exact h.key_eq
  case start_le =>
    show _ ≤ blockSize * (g.made + g.missing n)
    rw [Nat.mul_add] at hle ⊢
    omega
  case aligned =>
    have haligned := h.aligned
    unfold wholeWords
    omega
  case buffer_eq =>
    show (g.filled n).drop (wholeWords n) =
      slice key (start + wholeWords n) (blockSize * (g.made + g.missing n) - _)
    rw [h.filled_eq, slice_drop hle, Nat.sub_sub]

end StandsAt

/-- Draws of the lengths in their order. -/
def draws (g : Generator) : List Nat → List Bytes
  | [] => []
  | n :: lengths => (g.draw n).1.val :: (g.draw n).2.draws lengths

end Generator

/-- The keystream bytes that some draws use up: their lengths, each rounded up to whole words. -/
def used (lengths : List Nat) : Nat :=
  (lengths.map fun n => 4 * (n ⌈/⌉ 4)).sum

theorem used_cons (n : Nat) (lengths : List Nat) :
    used (n :: lengths) = wholeWords n + used lengths := by
  rw [used, List.map_cons, List.sum_cons, wholeWords_eq, used]

theorem used_append (before later : List Nat) :
    used (before ++ later) = used before + used later := by
  rw [used, List.map_append, List.sum_append, used, used]

theorem used_le_of_isPrefix {before lengths : List Nat} (h : before <+: lengths) :
    used before ≤ used lengths := by
  obtain ⟨later, rfl⟩ := h
  rw [used_append]
  exact Nat.le_add_right _ _

variable {lengths : List Nat} {i j a b : Nat}

/-- Each draw ends before the next one starts. -/
theorem used_take_add_le (hij : i < j) (hi : i < lengths.length) :
    used (lengths.take i) + lengths[i] ≤ used (lengths.take j) := by
  have hprefix : lengths.take (i + 1) <+: lengths.take j := List.take_prefix_take_left hij
  have hle := used_le_of_isPrefix hprefix
  have hdraw := le_wholeWords lengths[i]
  rw [List.take_succ_eq_append_getElem hi, used_append, used_cons] at hle
  omega

theorem Generator.StandsAt.draws_getElem? {g : Generator} (h : g.StandsAt key start)
    (hi : i < lengths.length) :
    (g.draws lengths)[i]? = some (slice key (start + used (lengths.take i)) lengths[i]) := by
  induction lengths generalizing g start i with
  | nil => cases hi
  | cons n lengths ih =>
    unfold draws
    cases i with
    | zero =>
      rw [List.getElem?_cons_zero, h.draw_eq]
      rfl
    | succ i =>
      have hrest := ih (h.draw n) (Nat.lt_of_succ_lt_succ hi)
      rw [List.getElem?_cons_succ, hrest, List.take_succ_cons, used_cons, Nat.add_assoc]
      rfl

/-- Every byte of a keystream has a place of its own. -/
theorem place_injOn : Set.InjOn place (Set.Iio (blockSize * 2 ^ 64)) := by
  intro a ha b hb hab
  rw [Set.mem_Iio] at ha hb
  obtain ⟨hcounter, hin⟩ := Prod.ext_iff.1 hab
  have hdiv : a / blockSize = b / blockSize := by
    have hnat := congrArg UInt64.toNat hcounter
    simp only [place, UInt64.toNat_ofNat'] at hnat
    rwa [Nat.mod_eq_of_lt (Nat.div_lt_of_lt_mul ha), Nat.mod_eq_of_lt (Nat.div_lt_of_lt_mul hb)]
      at hnat
  have hmod : a % blockSize = b % blockSize := Fin.val_eq_of_eq hin
  rw [← Nat.div_add_mod a blockSize, hdiv, hmod, Nat.div_add_mod]

/-- Two draws, or two bytes of one draw, are at different places. -/
theorem eq_of_place_eq (hblocks : used lengths ≤ blockSize * 2 ^ 64) (hi : i < lengths.length)
    (hj : j < lengths.length) (ha : a < lengths[i]) (hb : b < lengths[j])
    (h : place (used (lengths.take i) + a) = place (used (lengths.take j) + b)) :
    i = j ∧ a = b := by
  have hbelow : ∀ {k c} (hk : k < lengths.length), c < lengths[k] →
      used (lengths.take k) + c < blockSize * 2 ^ 64 := by
    intro k c hk hc
    have hlast := used_take_add_le hk hk
    rw [List.take_length] at hlast
    omega
  have hsame := place_injOn (hbelow hi ha) (hbelow hj hb) h
  rcases Nat.lt_trichotomy i j with hlt | rfl | hlt
  · have hapart := used_take_add_le hlt hi
    omega
  · exact ⟨rfl, Nat.add_left_cancel hsame⟩
  · have hapart := used_take_add_le hlt hj
    omega

end ProofOfWork.ChaCha

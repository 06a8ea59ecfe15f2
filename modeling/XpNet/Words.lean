/-
Little-endian 32-bit words in byte images, and copies between images.

`wordFrom` reads the word at a byte offset and `putWord` stores one; each is
determined by the four bytes (`byteOf_wordFrom`, `eq_of_byteOf`). `blit` copies a
range of one image to the same range of another, and `words` are the elements of
a `u32` array that lies in an image.
-/

import XpNet.Bytes
import Mathlib.Data.BitVec

namespace XpNet

/-- Byte `j` of a word, the least significant first. -/
def byteOf (v : BitVec 32) (j : Nat) : UInt8 := ⟨v.extractLsb' (8 * j) 8⟩

/-- The word at offset `o`. -/
def wordFrom (m : Image) (o : Nat) : BitVec 32 :=
  (m (o + 3)).toBitVec ++ (m (o + 2)).toBitVec ++ (m (o + 1)).toBitVec ++ (m o).toBitVec

/-- Store a word at offset `o`. -/
def putWord (m : Image) (o : Nat) (v : BitVec 32) : Image :=
  fun p => if o ≤ p ∧ p < o + 4 then byteOf v (p - o) else m p

/-- Copy `n` bytes at offset `o` of `src` to the same place of `dst`. -/
def blit (dst src : Image) (o n : Nat) : Image :=
  fun p => if o ≤ p ∧ p < o + n then src p else dst p

/-- The elements of the `u32` array of length `count` in `m`. -/
def words (m : Image) (count : Nat) : List (BitVec 32) :=
  (List.range count).map fun i => wordFrom m (4 * i)

/-- Store the elements of a `u32` array to the start of `m`. -/
def putWords (m : Image) (vs : List (BitVec 32)) : Image :=
  fun p => if h : p / 4 < vs.length then byteOf vs[p / 4] (p % 4) else m p

/-- The first `count` words of a sequence as one number, the first word the least
significant. -/
def concatWords (ws : Nat → BitVec 32) : Nat → Nat
  | 0 => 0
  | count + 1 => 2 ^ (32 * count) * (ws count).toNat + concatWords ws count

/-! ### A word and its bytes -/

/-- Two bytes are equal when their bits are. -/
theorem byte_ext {a b : UInt8} (h : ∀ i < 8, a.toBitVec.getLsbD i = b.toBitVec.getLsbD i) :
    a = b :=
  UInt8.toBitVec_inj.mp (BitVec.eq_of_getLsbD_eq h)

theorem byteOf_bit (v : BitVec 32) (j : Nat) {i : Nat} (hi : i < 8) :
    (byteOf v j).toBitVec.getLsbD i = v.getLsbD (8 * j + i) := by
  simp [byteOf, hi]

theorem wordFrom_bit (m : Image) (o : Nat) {j i : Nat} (hj : j < 4) (hi : i < 8) :
    (wordFrom m o).getLsbD (8 * j + i) = (m (o + j)).toBitVec.getLsbD i := by
  unfold wordFrom
  rw [BitVec.getLsbD_append, BitVec.getLsbD_append, BitVec.getLsbD_append]
  match j, hj with
  | 0, _ => simp [hi]
  | 1, _ =>
      have h8 : ¬ 8 * 1 + i < 8 := by omega
      have h16 : 8 * 1 + i - 8 < 8 := by omega
      simp only [h8, h16, if_true, if_false]
      congr 1
      omega
  | 2, _ =>
      have h8 : ¬ 8 * 2 + i < 8 := by omega
      have h16 : ¬ 8 * 2 + i - 8 < 8 := by omega
      have h24 : 8 * 2 + i - 8 - 8 < 8 := by omega
      simp only [h8, h16, h24, if_true, if_false]
      congr 1
      omega
  | 3, _ =>
      have h8 : ¬ 8 * 3 + i < 8 := by omega
      have h16 : ¬ 8 * 3 + i - 8 < 8 := by omega
      have h24 : ¬ 8 * 3 + i - 8 - 8 < 8 := by omega
      simp only [h8, h16, h24, if_false]
      congr 1
      omega

theorem byteOf_wordFrom (m : Image) (o : Nat) {j : Nat} (hj : j < 4) :
    byteOf (wordFrom m o) j = m (o + j) := by
  apply byte_ext
  intro i hi
  rw [byteOf_bit _ _ hi, wordFrom_bit m o hj hi]

/-- A word is determined by its four bytes. -/
theorem eq_of_byteOf {v w : BitVec 32} (h : ∀ j < 4, byteOf v j = byteOf w j) : v = w := by
  apply BitVec.eq_of_getLsbD_eq
  intro i hi
  have hsplit : 8 * (i / 8) + i % 8 = i := Nat.div_add_mod i 8
  have hlt : i % 8 < 8 := Nat.mod_lt i (by decide)
  have hbyte := h (i / 8) (by omega)
  rw [← hsplit, ← byteOf_bit v _ hlt, ← byteOf_bit w _ hlt, hbyte]

/-- Two images that agree on four bytes have the same word there. -/
theorem wordFrom_congr {m m' : Image} {o : Nat} (h : ∀ j < 4, m (o + j) = m' (o + j)) :
    wordFrom m o = wordFrom m' o := by
  apply eq_of_byteOf
  intro j hj
  rw [byteOf_wordFrom m o hj, byteOf_wordFrom m' o hj, h j hj]

/-- A word whose bytes are those at an offset is the word there. -/
theorem wordFrom_eq {m : Image} {o : Nat} {v : BitVec 32} (h : ∀ j < 4, m (o + j) = byteOf v j) :
    wordFrom m o = v := by
  apply eq_of_byteOf
  intro j hj
  rw [byteOf_wordFrom m o hj, h j hj]

/-! ### Arrays of words -/

@[simp] theorem length_words (m : Image) (count : Nat) : (words m count).length = count := by
  simp [words]

theorem words_congr {m m' : Image} {count : Nat} (h : ∀ o < 4 * count, m o = m' o) :
    words m count = words m' count := by
  refine List.map_congr_left fun i hi => wordFrom_congr fun j hj => h _ ?_
  have := List.mem_range.mp hi
  omega

theorem putWords_of_lt (m : Image) (vs : List (BitVec 32)) {i j : Nat} (hi : i < vs.length)
    (hj : j < 4) : putWords m vs (4 * i + j) = byteOf vs[i] j := by
  have hdiv : (4 * i + j) / 4 = i := by omega
  have hmod : (4 * i + j) % 4 = j := by omega
  unfold putWords
  simp only [hdiv, hmod, hi, dif_pos]

/-- An element of a stored array is read back. -/
theorem wordFrom_putWords (m : Image) (vs : List (BitVec 32)) {i : Nat} (hi : i < vs.length) :
    wordFrom (putWords m vs) (4 * i) = vs[i] :=
  wordFrom_eq fun _ hj => putWords_of_lt m vs hi hj

/-! ### Words one after another -/

theorem concatWords_lt (ws : Nat → BitVec 32) (count : Nat) :
    concatWords ws count < 2 ^ (32 * count) := by
  induction count with
  | zero => exact Nat.one_pos
  | succ count ih =>
      have hword : (ws count).toNat < 2 ^ 32 := (ws count).isLt
      have hstep : 2 ^ (32 * count) * ((ws count).toNat + 1) ≤ 2 ^ (32 * count) * 2 ^ 32 :=
        Nat.mul_le_mul_left _ hword
      rw [← Nat.pow_add] at hstep
      calc concatWords ws (count + 1)
          < 2 ^ (32 * count) * (ws count).toNat + 2 ^ (32 * count) := Nat.add_lt_add_left ih _
        _ = 2 ^ (32 * count) * ((ws count).toNat + 1) := (Nat.mul_succ _ _).symm
        _ ≤ 2 ^ (32 * (count + 1)) := hstep

/-- Bit `n` of the number is a bit of word `n / 32`. -/
theorem concatWords_testBit (ws : Nat → BitVec 32) {count n : Nat} (hn : n < 32 * count) :
    (concatWords ws count).testBit n = (ws (n / 32)).getLsbD (n % 32) := by
  induction count with
  | zero => omega
  | succ count ih =>
      unfold concatWords
      rw [Nat.testBit_two_pow_mul_add _ (concatWords_lt ws count)]
      by_cases hlow : n < 32 * count
      · rw [if_pos hlow, ih hlow]
      · have hdiv : n / 32 = count := by omega
        have hmod : n % 32 = n - 32 * count := by omega
        rw [if_neg hlow, hdiv, hmod]
        rfl

end XpNet

/-
Byte images of memory blocks.

An image gives the byte at every offset from the start of a block. Writes are
the C library's: `memset`, `memcpy`, and the in-place reversal of 32-bit words
that a device of the other byte order asks for. `readBytes` is what a reader of
the first `len` bytes sees.

Reversing the same words twice changes nothing (`swapWords_swapWords`), so the
reader that reverses them again sees what was copied in.
-/

import Mathlib.Data.List.Range

namespace XpNet

/-- The bytes of a block, by offset. -/
abbrev Image := Nat → UInt8

/-- Set the first `len` bytes to `c`. -/
def memset (m : Image) (c : UInt8) (len : Nat) : Image := fun o => if o < len then c else m o

/-- Copy `src` to the start of the block. -/
def memcpy (m : Image) (src : List UInt8) : Image := fun o => src.getD o (m o)

/-- Reverse the four bytes of word `w`. -/
def bswapWord (m : Image) (w : Nat) : Image :=
  fun o => if o / 4 = w then m (4 * w + (3 - o % 4)) else m o

/-- Reverse the bytes of each of the first `count` words. -/
def swapWords (m : Image) (count : Nat) : Image := (List.range count).foldl bswapWord m

/-- The first `len` bytes. -/
def readBytes (m : Image) (len : Nat) : List UInt8 := (List.range len).map m

theorem memcpy_of_lt {m : Image} {src : List UInt8} {o : Nat} (h : o < src.length) :
    memcpy m src o = src[o] := by
  simp [memcpy, h]

theorem memcpy_of_ge {m : Image} {src : List UInt8} {o : Nat} (h : src.length ≤ o) :
    memcpy m src o = m o := by
  simp [memcpy, h]

theorem swapWords_apply (m : Image) (count o : Nat) :
    swapWords m count o = if o / 4 < count then m (4 * (o / 4) + (3 - o % 4)) else m o := by
  induction count generalizing o with
  | zero => simp [swapWords]
  | succ count ih =>
      have step : swapWords m (count + 1) = bswapWord (swapWords m count) count := by
        simp [swapWords, List.range_succ]
      rw [step, bswapWord]
      by_cases hw : o / 4 = count
      · -- the word reversed last is still untouched before it
        rw [if_pos hw, ih, if_neg (by omega), if_pos (by omega), hw]
      · rw [if_neg hw, ih]
        by_cases hlt : o / 4 < count
        · rw [if_pos hlt, if_pos (by omega)]
        · rw [if_neg hlt, if_neg (by omega)]

/-- Reversing the same words again restores the block. -/
theorem swapWords_swapWords (m : Image) (count : Nat) :
    swapWords (swapWords m count) count = m := by
  funext o
  rw [swapWords_apply]
  split
  · rename_i h
    rw [swapWords_apply, if_pos (by omega)]
    congr 1
    omega
  · rename_i h
    rw [swapWords_apply, if_neg h]

@[simp] theorem length_readBytes (m : Image) (len : Nat) : (readBytes m len).length = len := by
  simp [readBytes]

/-- What was copied in is read back. -/
theorem readBytes_memcpy (m : Image) (src : List UInt8) :
    readBytes (memcpy m src) src.length = src := by
  apply List.ext_getElem (by simp)
  intro o ho _
  have hlt : o < src.length := by simpa using ho
  simp [readBytes, memcpy_of_lt hlt]

/-- A short copy over a cleared block reads back with its padding. -/
theorem readBytes_memcpy_memset (m : Image) (src : List UInt8) {len : Nat}
    (h : src.length ≤ len) :
    readBytes (memcpy (memset m 0 len) src) len = src ++ List.replicate (len - src.length) 0 := by
  apply List.ext_getElem (by simp; omega)
  intro o ho _
  have hlt : o < len := by simpa using ho
  by_cases hsrc : o < src.length
  · simp [readBytes, memcpy_of_lt hsrc, List.getElem_append_left hsrc]
  · have hge : src.length ≤ o := Nat.le_of_not_lt hsrc
    simp [readBytes, memcpy_of_ge hge, List.getElem_append_right hge, memset, hlt]

end XpNet

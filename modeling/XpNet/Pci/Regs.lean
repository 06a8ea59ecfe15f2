/-
The registers behind `priv->vma` in `xp_pcie_slave.c`, and the two functions all
other code reaches them by: `xp_dev_reg_read` and `xp_dev_reg_write`.

A device is what its loads answer and how loads and stores change it; nothing
more is assumed of it. `memory` is the device whose registers behave like
memory. Byte and word writes are a 32-bit load and store of the same offset.
-/

import XpNet.Words
import XpNet.Intf.Messages

namespace XpNet.Pci

open XpNet.Intf (enomem einval)

def eio : Int := 5
def efault : Int := 14

/-! ### Devices -/

/-- `BYTE_SIZE`, `WORD_SIZE` and `DWORD_SIZE` of `xp_common.h`. -/
inductive RegSize where
  | byte
  | word
  | dword
  deriving DecidableEq, Repr

def RegSize.bytes : RegSize → Nat
  | .byte => 1
  | .word => 2
  | .dword => 4

/-- The access size that a `reg_size` argument names. -/
def RegSize.ofNat? (regSize : Nat) : Option RegSize :=
  if regSize = 1 then some .byte
  else if regSize = 2 then some .word
  else if regSize = 4 then some .dword
  else none

@[simp] theorem RegSize.ofNat?_bytes (w : RegSize) : RegSize.ofNat? w.bytes = some w := by
  cases w <;> rfl

/-- The registers of a device with states in `δ`, by their offset from
`priv->vma`. The driver only ever stores 32 bits. -/
structure Registers (δ : Type) where
  load : (w : RegSize) → Nat → δ → BitVec (8 * w.bytes) × δ
  store : Nat → BitVec 32 → δ → δ

/-- A device whose registers behave like memory. -/
def memory : Registers Image where
  load w o m := ((wordFrom m o).setWidth (8 * w.bytes), m)
  store o v m := putWord m o v

/-- A device that answers zero and keeps what is stored to it. -/
def recorder : Registers (List (Nat × BitVec 32)) where
  load _ _ s := (0, s)
  store o v s := s ++ [(o, v)]

variable {δ : Type}

/-- A load, extended to the `u32` it is kept in. -/
def Registers.loadU32 (regs : Registers δ) (w : RegSize) (o : Nat) (s : δ) : BitVec 32 × δ :=
  let r := regs.load w o s
  (r.1.setWidth 32, r.2)

/-! ### `xp_dev_reg_read` and `xp_dev_reg_write` -/

/-- The loop of `xp_dev_reg_read`: `reg_addr` is a `u32`. -/
def loadEach (regs : Registers δ) (w : RegSize) : Nat → BitVec 32 → δ → List (BitVec 32) × δ
  | 0, _, s => ([], s)
  | count + 1, regAddr, s =>
      let r := regs.loadU32 w regAddr.toNat s
      let rest := loadEach regs w count (regAddr + BitVec.ofNat 32 w.bytes) r.2
      (r.1 :: rest.1, rest.2)

/-- One step of the loop of `xp_dev_reg_write`. -/
def storeOne (regs : Registers δ) (w : RegSize) (o : Nat) (v : BitVec 32) (s : δ) : δ :=
  match w with
  | .byte =>
      let value := regs.loadU32 .dword o s
      regs.store o ((value.1 &&& ~~~0xFF#32) ||| (v &&& 0xFF#32)) value.2
  | .word =>
      let value := regs.loadU32 .dword o s
      regs.store o ((value.1 &&& ~~~0xFFFF#32) ||| (v &&& 0xFFFF#32)) value.2
  | .dword => regs.store o v s

/-- The loop of `xp_dev_reg_write` over the elements of `rw_value`. -/
def storeEach (regs : Registers δ) (w : RegSize) : List (BitVec 32) → BitVec 32 → δ → δ
  | [], _, s => s
  | v :: vs, regAddr, s =>
      storeEach regs w vs (regAddr + BitVec.ofNat 32 w.bytes) (storeOne regs w regAddr.toNat v s)

/-- `xp_dev_reg_read(rw_value, reg_addr, reg_size, priv, count)`: the result, the
elements it fills of `rw_value`, and the device after it. -/
def xpDevRegRead (regs : Registers δ) (regAddr : BitVec 32) (regSize count : Nat) (s : δ) :
    Int × List (BitVec 32) × δ :=
  match RegSize.ofNat? regSize with
  | some w => (0, loadEach regs w count regAddr s)
  | none => (-einval, [], s)

/-- `xp_dev_reg_write(rw_value, reg_addr, reg_size, priv, count)`. -/
def xpDevRegWrite (regs : Registers δ) (rwValue : List (BitVec 32)) (regAddr : BitVec 32)
    (regSize : Nat) (s : δ) : Int × δ :=
  match RegSize.ofNat? regSize with
  | some w => (0, storeEach regs w rwValue regAddr s)
  | none => (-einval, s)

/-! ### What the two functions do to a device -/

/-- Load the dwords at the given addresses, one after another. -/
def Registers.loads (regs : Registers δ) : List (BitVec 32) → δ → List (BitVec 32) × δ
  | [], s => ([], s)
  | a :: as, s =>
      let r := regs.loadU32 .dword a.toNat s
      let rest := regs.loads as r.2
      (r.1 :: rest.1, rest.2)

/-- Store dwords to the given addresses, one after another. -/
def Registers.stores (regs : Registers δ) (writes : List (BitVec 32 × BitVec 32)) (s : δ) : δ :=
  writes.foldl (fun s write => regs.store write.1.toNat write.2 s) s

/-- The `k`-th address of an access of dwords. -/
def dwordAddr (regAddr : BitVec 32) (k : Nat) : BitVec 32 := regAddr + BitVec.ofNat 32 (4 * k)

theorem dwordAddr_succ (regAddr : BitVec 32) (k : Nat) :
    dwordAddr (regAddr + 4#32) k = dwordAddr regAddr (k + 1) := by
  apply BitVec.eq_of_toNat_eq
  simp only [dwordAddr, BitVec.toNat_add, BitVec.toNat_ofNat]
  omega

@[simp] theorem loadEach_length (regs : Registers δ) (w : RegSize) (count : Nat)
    (regAddr : BitVec 32) (s : δ) : (loadEach regs w count regAddr s).1.length = count := by
  induction count generalizing regAddr s with
  | zero => rfl
  | succ count ih => simp [loadEach, ih]

/-- A read of dwords loads the addresses from `reg_addr` on, four apart. -/
theorem loadEach_dword (regs : Registers δ) (count : Nat) (regAddr : BitVec 32) (s : δ) :
    loadEach regs .dword count regAddr s =
      regs.loads ((List.range count).map (dwordAddr regAddr)) s := by
  induction count generalizing regAddr s with
  | zero => rfl
  | succ count ih =>
      have hstep : (List.range count).map (dwordAddr (regAddr + 4#32)) =
          (List.range count).map (dwordAddr regAddr ∘ Nat.succ) :=
        List.map_congr_left fun k _ => dwordAddr_succ regAddr k
      have hfirst : dwordAddr regAddr 0 = regAddr := by simp [dwordAddr]
      simp only [loadEach, RegSize.bytes, ih, hstep, List.range_succ_eq_map, List.map_cons,
        List.map_map, Registers.loads, hfirst]

/-- A write of dwords stores its values to the addresses from `reg_addr` on, four
apart. -/
theorem storeEach_dword (regs : Registers δ) (vs : List (BitVec 32)) (regAddr : BitVec 32)
    (s : δ) :
    storeEach regs .dword vs regAddr s =
      regs.stores (((List.range vs.length).map (dwordAddr regAddr)).zip vs) s := by
  induction vs generalizing regAddr s with
  | nil => rfl
  | cons v vs ih =>
      have hstep : (List.range vs.length).map (dwordAddr (regAddr + 4#32)) =
          (List.range vs.length).map (dwordAddr regAddr ∘ Nat.succ) :=
        List.map_congr_left fun k _ => dwordAddr_succ regAddr k
      have hfirst : dwordAddr regAddr 0 = regAddr := by simp [dwordAddr]
      simp only [storeEach, RegSize.bytes, ih, hstep, List.length_cons, List.range_succ_eq_map,
        List.map_cons, List.map_map, List.zip_cons_cons, Registers.stores, List.foldl_cons,
        storeOne, hfirst]

/-- The recorder's history after a run of stores. -/
theorem recorder_stores (writes : List (BitVec 32 × BitVec 32)) (s : List (Nat × BitVec 32)) :
    recorder.stores writes s = s ++ writes.map fun write => (write.1.toNat, write.2) := by
  induction writes generalizing s with
  | nil => simp [Registers.stores]
  | cons write rest ih =>
      have hstep : recorder.stores (write :: rest) s =
          recorder.stores rest (s ++ [(write.1.toNat, write.2)]) := rfl
      rw [hstep, ih]
      simp

/-! ### Registers that behave like memory -/

theorem memory_loadU32 (w : RegSize) (o : Nat) (m : Image) :
    memory.loadU32 w o m = (((wordFrom m o).setWidth (8 * w.bytes)).setWidth 32, m) := rfl

theorem memory_loadU32_dword (o : Nat) (m : Image) :
    memory.loadU32 .dword o m = (wordFrom m o, m) := by
  rw [memory_loadU32]
  congr 1

/-- A load and a store of the word at an offset, with the bits of `mask` taken
from another word: the bytes under the mask change, the others keep theirs. -/
theorem putWord_masked (m : Image) (o : Nat) (v mask : BitVec 32) (n : Nat)
    (hmask : ∀ i < 32, mask.getLsbD i = decide (i < 8 * n)) :
    putWord m o ((wordFrom m o &&& ~~~mask) ||| (v &&& mask)) =
      fun p => if o ≤ p ∧ p < o + min n 4 then byteOf v (p - o) else m p := by
  funext p
  unfold putWord
  by_cases hp : o ≤ p ∧ p < o + 4
  · obtain ⟨j, hj, rfl⟩ : ∃ j, j < 4 ∧ p = o + j := ⟨p - o, by omega, by omega⟩
    rw [if_pos hp, Nat.add_sub_cancel_left]
    have hbits (i : Nat) (hi : i < 8) : mask.getLsbD (8 * j + i) = decide (j < n) := by
      rw [hmask _ (by omega)]
      congr 1
      rw [eq_iff_iff]
      omega
    by_cases hjn : j < n
    · rw [if_pos (by omega)]
      apply byte_ext
      intro i hi
      have hlt : 8 * j + i < 32 := by omega
      simp only [byteOf_bit _ _ hi, BitVec.getLsbD_or, BitVec.getLsbD_and, BitVec.getLsbD_not,
        hbits i hi, hjn, hlt]
      simp
    · rw [if_neg (by omega)]
      apply byte_ext
      intro i hi
      have hlt : 8 * j + i < 32 := by omega
      simp only [byteOf_bit _ _ hi, BitVec.getLsbD_or, BitVec.getLsbD_and, BitVec.getLsbD_not,
        hbits i hi, hjn, hlt, wordFrom_bit m o hj hi]
      simp
  · rw [if_neg hp, if_neg (by omega)]

/-- A byte write changes the byte at its offset and no other. -/
theorem storeOne_memory_byte (o : Nat) (v : BitVec 32) (m : Image) :
    storeOne memory .byte o v m = Function.update m o (byteOf v 0) := by
  have hstore := putWord_masked m o v 0xFF#32 1 (by decide)
  simp only [storeOne, memory_loadU32_dword]
  refine hstore.trans ?_
  funext p
  by_cases hp : p = o
  · subst hp
    simp
  · rw [Function.update_of_ne hp, if_neg (by omega)]

/-- A word write changes the two bytes from its offset on. -/
theorem storeOne_memory_word (o : Nat) (v : BitVec 32) (m : Image) :
    storeOne memory .word o v m =
      fun p => if o ≤ p ∧ p < o + 2 then byteOf v (p - o) else m p := by
  have hstore := putWord_masked m o v 0xFFFF#32 2 (by decide)
  simp only [storeOne, memory_loadU32_dword]
  exact hstore

/-- A byte load is the byte at its offset. -/
theorem byteOf_loadU32_byte (o : Nat) (m : Image) : byteOf (memory.loadU32 .byte o m).1 0 = m o := by
  apply byte_ext
  intro i hi
  have hlt : i < 8 * RegSize.byte.bytes := hi
  rw [byteOf_bit _ _ hi, memory_loadU32]
  simpa [hlt, show i < 32 by omega] using wordFrom_bit m o (j := 0) (by decide) hi

/-- A word load is the two bytes from its offset on. -/
theorem byteOf_loadU32_word (o : Nat) (m : Image) {j : Nat} (hj : j < 2) :
    byteOf (memory.loadU32 .word o m).1 j = m (o + j) := by
  apply byte_ext
  intro i hi
  have hlt : 8 * j + i < 8 * RegSize.word.bytes := by
    change 8 * j + i < 16
    omega
  rw [byteOf_bit _ _ hi, memory_loadU32]
  simpa [hlt, show 8 * j + i < 32 by omega] using wordFrom_bit m o (show j < 4 by omega) hi

end XpNet.Pci

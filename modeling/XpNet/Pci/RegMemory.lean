/-
`xp_dev_reg_write` and `xp_dev_reg_read` on registers that behave like memory.

A byte or word write loads and stores the whole dword at its address, and so stores
bytes again that the writes before or after it own. What one write changes is only its
own bytes (`storeOne_memory`); so the run of writes puts its values where they belong
and leaves every byte outside the range (`storeEach_byte`, `storeEach_outside`), and a
read of the same range finds them (`regWrite_regRead`).
-/

import XpNet.Pci.Touches

namespace XpNet.Pci

open XpNet.Intf (einval)

/-- A value reduced to the bytes of an access. -/
def RegSize.trim (w : RegSize) (v : BitVec 32) : BitVec 32 :=
  BitVec.ofNat 32 (v.toNat % 2 ^ (8 * w.bytes))

section Memory

variable {w : RegSize} {regAddr : BitVec 32} {m : Image}

/-! ### One element -/

/-- A write of one element changes its own bytes. -/
theorem storeOne_memory (w : RegSize) (o : Nat) (v : BitVec 32) (m : Image) (p : Nat) :
    storeOne memory w o v m p = if o ≤ p ∧ p < o + w.bytes then byteOf v (p - o) else m p := by
  cases w with
  | byte =>
      rw [storeOne_memory_byte]
      by_cases hp : p = o
      · subst hp
        simp [RegSize.bytes]
      · have hout : ¬ (o ≤ p ∧ p < o + RegSize.byte.bytes) := by
          simp only [RegSize.bytes]
          omega
        rw [Function.update_of_ne hp, if_neg hout]
  | word => rw [storeOne_memory_word, RegSize.bytes]
  | dword => rfl

/-- A load has the bytes at its address, and zeros above. -/
theorem byteOf_loadU32 (w : RegSize) (o : Nat) (m : Image) {j : Nat} (hj : j < 4) :
    byteOf (memory.loadU32 w o m).1 j = if j < w.bytes then m (o + j) else 0 := by
  apply byte_ext
  intro i hi
  have hbit : 8 * j + i < 32 := by omega
  have hside : decide (8 * j + i < 8 * w.bytes) = decide (j < w.bytes) := by
    rw [decide_eq_decide]
    omega
  rw [byteOf_bit _ _ hi, memory_loadU32]
  simp only [BitVec.getLsbD_setWidth, hbit, hside, decide_true, Bool.true_and,
    wordFrom_bit m o hj hi]
  split
  · rename_i hin
    simp [hin]
  · rename_i hout
    simp [hout]

/-- A reduced value keeps the bytes of the access. -/
theorem byteOf_trim (w : RegSize) (v : BitVec 32) {j : Nat} (hj : j < 4) :
    byteOf (w.trim v) j = if j < w.bytes then byteOf v j else 0 := by
  apply byte_ext
  intro i hi
  have hbit : 8 * j + i < 32 := by omega
  have hside : decide (8 * j + i < 8 * w.bytes) = decide (j < w.bytes) := by
    rw [decide_eq_decide]
    omega
  have hvalue : (w.trim v).getLsbD (8 * j + i) =
      (decide (j < w.bytes) && v.getLsbD (8 * j + i)) := by
    rw [RegSize.trim, BitVec.getLsbD_ofNat, Nat.testBit_mod_two_pow, hside]
    simp [hbit, BitVec.getLsbD]
  rw [byteOf_bit _ _ hi, hvalue]
  split
  · rename_i hin
    simp [hin, byteOf_bit _ _ hi]
  · rename_i hout
    simp [hout]

/-! ### A run of elements -/

/-- A range that ends before 2^32 goes on at the address of its next element. -/
theorem next_range {count : Nat} (hrange : regAddr.toNat + (count + 1) * w.bytes < 2 ^ 32) :
    (regAddr + BitVec.ofNat 32 w.bytes).toNat = regAddr.toNat + w.bytes ∧
      regAddr.toNat + w.bytes + count * w.bytes < 2 ^ 32 := by
  have hmul : (count + 1) * w.bytes = count * w.bytes + w.bytes := Nat.succ_mul _ _
  exact ⟨next_toNat (by omega), by omega⟩

/-- The writes leave every byte outside the range. By induction on the values: each
write changes its own bytes, which are in the range. -/
theorem storeEach_outside {vs : List (BitVec 32)}
    (hrange : regAddr.toNat + vs.length * w.bytes < 2 ^ 32) {p : Nat}
    (hout : p < regAddr.toNat ∨ regAddr.toNat + vs.length * w.bytes ≤ p) :
    storeEach memory w vs regAddr m p = m p := by
  induction vs generalizing regAddr m with
  | nil => rfl
  | cons v vs ih =>
      obtain ⟨hnext, hrest⟩ := next_range hrange
      have hmul : (v :: vs).length * w.bytes = vs.length * w.bytes + w.bytes :=
        Nat.succ_mul _ _
      rw [hmul] at hout
      rw [storeEach, ih (by rw [hnext]; exact hrest) (by rw [hnext]; omega), storeOne_memory,
        if_neg (by omega)]

/-- Each value is in the bytes of its element. By induction on the values: the first
is written first, and the writes after it are outside its bytes. -/
theorem storeEach_byte {vs : List (BitVec 32)}
    (hrange : regAddr.toNat + vs.length * w.bytes < 2 ^ 32) {i j : Nat} (hi : i < vs.length)
    (hj : j < w.bytes) :
    storeEach memory w vs regAddr m (regAddr.toNat + i * w.bytes + j) = byteOf vs[i] j := by
  induction vs generalizing regAddr m i with
  | nil => cases hi
  | cons v vs ih =>
      obtain ⟨hnext, hrest⟩ := next_range hrange
      have hrest' : (regAddr + BitVec.ofNat 32 w.bytes).toNat + vs.length * w.bytes < 2 ^ 32 := by
        rw [hnext]
        exact hrest
      rw [storeEach]
      cases i with
      | zero =>
          rw [storeEach_outside hrest' (by omega), storeOne_memory, if_pos (by omega)]
          simp only [Nat.zero_mul, Nat.add_zero, Nat.add_sub_cancel_left, List.getElem_cons_zero]
      | succ i =>
          have hplace : regAddr.toNat + (i + 1) * w.bytes + j =
              (regAddr + BitVec.ofNat 32 w.bytes).toNat + i * w.bytes + j := by
            rw [hnext, Nat.succ_mul]
            omega
          rw [hplace, ih hrest' (Nat.lt_of_succ_lt_succ hi)]
          rfl

/-- A read loads its elements one after another and leaves the memory. -/
theorem loadEach_memory {count : Nat}
    (hrange : regAddr.toNat + count * w.bytes < 2 ^ 32) :
    loadEach memory w count regAddr m = ((List.range count).map fun i =>
      (memory.loadU32 w (regAddr.toNat + i * w.bytes) m).1, m) := by
  induction count generalizing regAddr with
  | zero => rfl
  | succ count ih =>
      obtain ⟨hnext, hrest⟩ := next_range hrange
      have hstep : ((List.range count).map fun i =>
          (memory.loadU32 w (regAddr.toNat + w.bytes + i * w.bytes) m).1) =
          (List.range count).map ((fun i =>
            (memory.loadU32 w (regAddr.toNat + i * w.bytes) m).1) ∘ Nat.succ) := by
        refine List.map_congr_left fun i _ => ?_
        rw [Function.comp_apply, Nat.succ_mul, Nat.add_assoc, Nat.add_comm w.bytes]
      have hsame : (memory.loadU32 w regAddr.toNat m).2 = m := rfl
      rw [loadEach, hsame, ih (by rw [hnext]; exact hrest), hnext, hstep,
        List.range_succ_eq_map, List.map_cons, List.map_map, Nat.zero_mul, Nat.add_zero]

/-- What was written is read back, reduced to the size of the access. -/
theorem loadEach_storeEach {vs : List (BitVec 32)}
    (hrange : regAddr.toNat + vs.length * w.bytes < 2 ^ 32) :
    loadEach memory w vs.length regAddr (storeEach memory w vs regAddr m) =
      (vs.map w.trim, storeEach memory w vs regAddr m) := by
  rw [loadEach_memory hrange]
  congr 1
  refine List.ext_getElem (by simp) fun i hleft hright => ?_
  have hi : i < vs.length := by simpa using hleft
  rw [List.getElem_map, List.getElem_map, List.getElem_range]
  refine eq_of_byteOf fun j hj => ?_
  rw [byteOf_loadU32 _ _ _ hj, byteOf_trim _ _ hj]
  split
  · rename_i hin
    exact storeEach_byte hrange hi hin
  · rfl

end Memory

/-! ### The two functions -/

theorem RegSize.ofNat?_eq_none {regSize : Nat} (h : ¬ (regSize = 1 ∨ regSize = 2 ∨ regSize = 4)) :
    RegSize.ofNat? regSize = none := by
  unfold RegSize.ofNat?
  rw [if_neg (by omega), if_neg (by omega), if_neg (by omega)]

theorem RegSize.ofNat?_of_mem {regSize : Nat} (h : regSize = 1 ∨ regSize = 2 ∨ regSize = 4) :
    ∃ w : RegSize, RegSize.ofNat? regSize = some w ∧ w.bytes = regSize := by
  rcases h with rfl | rfl | rfl
  · exact ⟨.byte, rfl, rfl⟩
  · exact ⟨.word, rfl, rfl⟩
  · exact ⟨.dword, rfl, rfl⟩

/-- **Writes and reads of memory.** For every run of values, every address and every
content of the registers: with a size of 1, 2 or 4, and the range with the three bytes
after it below 2^32, the values written are read back modulo 2^(8 * size), and every byte
outside the range is as it was; with any other size both fail and change nothing. -/
theorem regWrite_regRead (rwValue : List (BitVec 32)) (regAddr : BitVec 32) (regSize : Nat)
    (m : Image) :
    (regSize = 1 ∨ regSize = 2 ∨ regSize = 4 →
      regAddr.toNat + rwValue.length * regSize + 3 ≤ 2 ^ 32 →
      ∃ m', xpDevRegWrite memory rwValue regAddr regSize m = (0, m') ∧
        xpDevRegRead memory regAddr regSize rwValue.length m' =
          (0, rwValue.map fun v => BitVec.ofNat 32 (v.toNat % 2 ^ (8 * regSize)), m') ∧
        ∀ p, p < regAddr.toNat ∨ regAddr.toNat + rwValue.length * regSize ≤ p → m' p = m p) ∧
    (¬ (regSize = 1 ∨ regSize = 2 ∨ regSize = 4) →
      xpDevRegWrite memory rwValue regAddr regSize m = (-einval, m) ∧
        ∀ count, xpDevRegRead memory regAddr regSize count m = (-einval, [], m)) := by
  constructor
  · intro hsize hrange
    obtain ⟨w, hw, rfl⟩ := RegSize.ofNat?_of_mem hsize
    have hbelow : regAddr.toNat + rwValue.length * w.bytes < 2 ^ 32 := by omega
    refine ⟨storeEach memory w rwValue regAddr m, ?_, ?_, fun p hout =>
      storeEach_outside hbelow hout⟩
    · simp only [xpDevRegWrite, hw]
    · simp only [xpDevRegRead, hw, loadEach_storeEach hbelow]
      rfl
  · intro hsize
    simp [xpDevRegWrite, xpDevRegRead, RegSize.ofNat?_eq_none hsize]

/-- Three bytes written to offset 5 of clear registers. -/
theorem regWrite_regRead_bytes :
    ∃ m', xpDevRegWrite memory [0x1ff, 0x80, 0xabcd] 5 1 (fun _ => 0) = (0, m') ∧
      xpDevRegRead memory 5 1 3 m' = (0, [0xff, 0x80, 0xcd], m') ∧
      ∀ p, p < 5 ∨ 8 ≤ p → m' p = 0 := by
  obtain ⟨m', hwrite, hread, hout⟩ := (regWrite_regRead [0x1ff, 0x80, 0xabcd] 5 1
    fun _ => 0).1 (.inl rfl) (by decide)
  exact ⟨m', hwrite, hread, hout⟩

end XpNet.Pci

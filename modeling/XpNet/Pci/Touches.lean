/-
The offsets of BAR0 that a request touches.

Four ways lead to the registers: the ioctl `PCIE_REG_CMD`, the proc file, the two
functions other drivers call, and `mmap`. None of the first three compares the
address with the length of the mapping, and `mmap` compares the length it is asked
for, cut to 32 bits, with 256 MB and not with the BAR. The loops advance a 32-bit
address, and a byte or word write loads and stores four bytes.

So a request stays within the mapping exactly when its range, with the rest of the
last dword for a write of bytes or words, ends before the mapping does
(`touches_inside_iff`).
-/

import XpNet.Pci.DmaMem
import XpNet.Pci.RegTransfers

namespace XpNet.Pci

open XpNet.Intf (enomem einval)

variable {δ : Type}

/-! ### Accesses -/

/-- What is done to the registers: the loads and the stores, and pages that are
mapped from the start of BAR0. -/
inductive RegAccess where
  | load (w : RegSize) (o : Nat)
  | store (o : Nat) (v : BitVec 32)
  | map (len : Nat)
  deriving DecidableEq

/-- The first offset an access touches. -/
def RegAccess.first : RegAccess → Nat
  | .load _ o => o
  | .store o _ => o
  | .map _ => 0

/-- How many offsets it touches. -/
def RegAccess.len : RegAccess → Nat
  | .load w _ => w.bytes
  | .store _ _ => 4
  | .map len => len

/-- Every offset touched is in `[0, mmio_len)`. -/
def Inside (mmioLen : Nat) (accesses : List RegAccess) : Prop :=
  ∀ access ∈ accesses, ∀ o, access.first ≤ o → o < access.first + access.len → o < mmioLen

/-- The device, with the accesses made to it. -/
def Registers.traced (regs : Registers δ) : Registers (δ × List RegAccess) where
  load w o s := ((regs.load w o s.1).1, (regs.load w o s.1).2, s.2 ++ [.load w o])
  store o v s := (regs.store o v s.1, s.2 ++ [.store o v])

/-! ### The ways to the registers -/

/-- What `sscanf` makes of the text written to the proc file. -/
inductive ProcText where
  | w (regIndex regValue : BitVec 32)
  | r (regIndex : BitVec 32)
  | help
  | other
  deriving DecidableEq

/-- `reg_rw_status`: what a read of the proc file then says. -/
inductive RegRwStatus where
  | empty
  | writeFailed
  | wrote (regIndex regValue : BitVec 32)
  | readFailed
  | hasRead (regIndex regValue : BitVec 32)
  | help
  deriving DecidableEq

/-- `xpreg_proc_write(filp, buf, bufsize, off)`: its result, `reg_rw_status` and the
device after it. -/
def xpregProcWrite (regs : Registers δ) (text : ProcText) (bufsize : Nat) (status : RegRwStatus)
    (s : δ) : Nat × RegRwStatus × δ :=
  if bufsize = 0 then (bufsize, status, s)
  else
    match text with
    | .w regIndex regValue =>
        let r := xpDevRegWrite regs [regValue] regIndex RegSize.dword.bytes s
        (bufsize, if r.1 = -einval then .writeFailed else .wrote regIndex regValue, r.2)
    | .r regIndex =>
        let r := xpDevRegRead regs regIndex RegSize.dword.bytes 1 s
        (bufsize, if r.1 = -einval then .readFailed else .hasRead regIndex (r.2.1.getD 0 0), r.2.2)
    | .help => (bufsize, .help, s)
    | .other => (bufsize, .empty, s)

/-- `xp_pci_drv_write_reg(dev, rw_value, reg_addr, reg_size)`: `slots` says which
entries of `xp_pcie_dev_ptr` are this device. -/
def xpPciDrvWriteReg (regs : Registers δ) (slots : Int → Bool) (dev : Int)
    (rwValue regAddr : BitVec 32) (regSize : Nat) (s : δ) : Int × δ :=
  if dev ≥ maxDevSupported then (-1, s)
  else if !slots dev then (-1, s)
  else xpDevRegWrite regs [rwValue] regAddr regSize s

/-- `xp_pci_drv_read_reg(dev, rw_value, reg_addr, reg_size)`. -/
def xpPciDrvReadReg (regs : Registers δ) (slots : Int → Bool) (dev : Int) (regAddr : BitVec 32)
    (regSize : Nat) (s : δ) : Int × List (BitVec 32) × δ :=
  if dev ≥ maxDevSupported then (-1, [], s)
  else if !slots dev then (-1, [], s)
  else xpDevRegRead regs regAddr regSize 1 s

/-- `XP_MAX_IO_MEM`. -/
def xpMaxIoMem : Nat := 256 * 1024 * 1024

/-- `PAGE_ALIGN(size)`. -/
def pageAlign (size : Nat) : Nat := (size + pageSize - 1) / pageSize * pageSize

/-- `xp_dev_mmap(filp, vma)` for a mapping of `length` bytes: how many bytes are
mapped from the start of BAR0. `vsize` is an `unsigned int`, and pages are mapped
whole. -/
def xpDevMmap (length : Nat) : Except Int Nat :=
  let vsize := length % 2 ^ 32
  if vsize > xpMaxIoMem then .error (-einval) else .ok (pageAlign vsize)

/-- A request, by the way it comes. -/
inductive RegRequest where
  | ioctl (kernel : AccessKernel) (pciRw : XpRegRw) (user : Image)
  | procWrite (text : ProcText) (bufsize : Nat) (status : RegRwStatus)
  | drvWrite (slots : Int → Bool) (dev : Int) (rwValue regAddr : BitVec 32) (regSize : Nat)
  | drvRead (slots : Int → Bool) (dev : Int) (regAddr : BitVec 32) (regSize : Nat)
  | mmap (length : Nat)

/-- What a request touches; one that is refused before it gets to the registers
touches nothing. -/
def RegRequest.touches (regs : Registers δ) (s : δ) : RegRequest → List RegAccess
  | .ioctl kernel pciRw user => (xpDevRegAccess regs.traced kernel pciRw user (s, [])).2.2.2
  | .procWrite text bufsize status =>
      (xpregProcWrite regs.traced text bufsize status (s, [])).2.2.2
  | .drvWrite slots dev rwValue regAddr regSize =>
      (xpPciDrvWriteReg regs.traced slots dev rwValue regAddr regSize (s, [])).2.2
  | .drvRead slots dev regAddr regSize =>
      (xpPciDrvReadReg regs.traced slots dev regAddr regSize (s, [])).2.2.2
  | .mmap length =>
      match xpDevMmap length with
      | .error _ => []
      | .ok len => [.map len]

/-! ### The ranges -/

/-- A read of `count` elements ends within the mapping. -/
def ReadFits (mmioLen : Nat) (regAddr : BitVec 32) (w : RegSize) (count : Nat) : Prop :=
  count = 0 ∨ regAddr.toNat + count * w.bytes ≤ mmioLen

/-- A write of `count` elements ends within the mapping, with the rest of the dword
that its last element begins. -/
def WriteFits (mmioLen : Nat) (regAddr : BitVec 32) (w : RegSize) (count : Nat) : Prop :=
  count = 0 ∨ regAddr.toNat + count * w.bytes + (4 - w.bytes) ≤ mmioLen

/-- The user's values of a write come through: all the pieces they are copied in. -/
def AccessKernel.CopiesIn (kernel : AccessKernel) (size : Nat) : Prop :=
  ∀ piece < (size + 1023) / 1024, kernel.uncopied (1 + piece) = 0

/-- The range of a request is within the mapping, or the request is turned down. -/
def RegRequest.Fits (mmioLen : Nat) : RegRequest → Prop
  | .ioctl kernel pciRw _ => ∀ count w, regRequest kernel pciRw = .ok (count, w) →
      (pciRw.direction = setReg → kernel.CopiesIn pciRw.size →
        WriteFits mmioLen pciRw.regAddress w count) ∧
      (pciRw.direction = getReg → ReadFits mmioLen pciRw.regAddress w count)
  | .procWrite text bufsize _ => bufsize ≠ 0 →
      match text with
      | .w regIndex _ => WriteFits mmioLen regIndex .dword 1
      | .r regIndex => ReadFits mmioLen regIndex .dword 1
      | .help | .other => True
  | .drvWrite slots dev _ regAddr regSize => dev < maxDevSupported → slots dev = true →
      ∀ w, RegSize.ofNat? regSize = some w → WriteFits mmioLen regAddr w 1
  | .drvRead slots dev regAddr regSize => dev < maxDevSupported → slots dev = true →
      ∀ w, RegSize.ofNat? regSize = some w → ReadFits mmioLen regAddr w 1
  | .mmap length => length % 2 ^ 32 ≤ xpMaxIoMem → pageAlign (length % 2 ^ 32) ≤ mmioLen

/-! ### The loops -/

section Loops

variable {regs : Registers δ} {mmioLen : Nat} {log more : List RegAccess} {w : RegSize}

@[simp] theorem inside_nil : Inside mmioLen [] := by simp [Inside]

@[simp] theorem inside_append :
    Inside mmioLen (log ++ more) ↔ Inside mmioLen log ∧ Inside mmioLen more := by
  simp only [Inside, List.mem_append, or_imp, forall_and]

theorem inside_singleton {access : RegAccess} (hlen : 0 < access.len) :
    Inside mmioLen [access] ↔ access.first + access.len ≤ mmioLen := by
  simp only [Inside, List.mem_singleton, forall_eq]
  constructor
  · intro hall
    have hlast := hall (access.first + access.len - 1) (by omega) (by omega)
    omega
  · intro hle o _ ho
    omega

theorem RegSize.bytes_pos (w : RegSize) : 0 < w.bytes := by cases w <;> decide

theorem RegSize.bytes_le (w : RegSize) : w.bytes ≤ 4 := by cases w <;> decide

/-- An address whose element ends below 2^32 is followed by that of the next. -/
theorem next_toNat {regAddr : BitVec 32} (hlt : regAddr.toNat + w.bytes < 2 ^ 32) :
    (regAddr + BitVec.ofNat 32 w.bytes).toNat = regAddr.toNat + w.bytes := by
  have hsmall : w.bytes < 2 ^ 32 := by omega
  rw [BitVec.toNat_add, BitVec.toNat_ofNat, Nat.mod_eq_of_lt hsmall, Nat.mod_eq_of_lt hlt]

/-- The loop of a read stays inside exactly when its range does: a range that goes
past 2^32 has left the mapping before. By induction on the elements. -/
theorem loadEach_inside (hlen : mmioLen < 2 ^ 32) (count : Nat) (regAddr : BitVec 32)
    (s : δ × List RegAccess) :
    Inside mmioLen (loadEach regs.traced w count regAddr s).2.2 ↔
      Inside mmioLen s.2 ∧ ReadFits mmioLen regAddr w count := by
  induction count generalizing regAddr s with
  | zero => simp [loadEach, ReadFits]
  | succ count ih =>
      have hpos := w.bytes_pos
      have hhere : Inside mmioLen [.load w regAddr.toNat] ↔ regAddr.toNat + w.bytes ≤ mmioLen :=
        inside_singleton hpos
      have hlog : (regs.traced.loadU32 w regAddr.toNat s).2.2 =
          s.2 ++ [.load w regAddr.toNat] := rfl
      simp only [loadEach, ih, hlog, inside_append, hhere, and_assoc]
      refine and_congr_right fun _ => ?_
      unfold ReadFits
      have hmul : (count + 1) * w.bytes = count * w.bytes + w.bytes := Nat.succ_mul _ _
      constructor
      · rintro ⟨hfirst, hrest⟩
        rw [next_toNat (by omega)] at hrest
        rcases hrest with rfl | hrest
        · exact .inr (by omega)
        · exact .inr (by omega)
      · rintro (hzero | hall)
        · cases hzero
        · refine ⟨by omega, .inr ?_⟩
          rw [next_toNat (by omega)]
          omega

/-- A store of one element touches the four bytes at its address. -/
theorem storeOne_inside (o : Nat) (v : BitVec 32) (s : δ × List RegAccess) :
    Inside mmioLen (storeOne regs.traced w o v s).2 ↔ Inside mmioLen s.2 ∧ o + 4 ≤ mmioLen := by
  have hload : Inside mmioLen [.load .dword o] ↔ o + 4 ≤ mmioLen :=
    inside_singleton (show 0 < 4 by decide)
  have hstore (v : BitVec 32) : Inside mmioLen [.store o v] ↔ o + 4 ≤ mmioLen :=
    inside_singleton (show 0 < 4 by decide)
  cases w with
  | byte =>
      simp only [storeOne, Registers.traced, Registers.loadU32, inside_append, hload, hstore,
        and_assoc, and_self]
  | word =>
      simp only [storeOne, Registers.traced, Registers.loadU32, inside_append, hload, hstore,
        and_assoc, and_self]
  | dword => simp only [storeOne, Registers.traced, inside_append, hstore]

/-- The loop of a write. -/
theorem storeEach_inside (hlen : mmioLen < 2 ^ 32) (vs : List (BitVec 32)) (regAddr : BitVec 32)
    (s : δ × List RegAccess) :
    Inside mmioLen (storeEach regs.traced w vs regAddr s).2 ↔
      Inside mmioLen s.2 ∧ WriteFits mmioLen regAddr w vs.length := by
  induction vs generalizing regAddr s with
  | nil => simp [storeEach, WriteFits]
  | cons v vs ih =>
      have hpos := w.bytes_pos
      have hle := w.bytes_le
      simp only [storeEach, ih, storeOne_inside, List.length_cons, and_assoc]
      refine and_congr_right fun _ => ?_
      unfold WriteFits
      have hmul : (vs.length + 1) * w.bytes = vs.length * w.bytes + w.bytes := Nat.succ_mul _ _
      constructor
      · rintro ⟨hfirst, hrest⟩
        rw [next_toNat (by omega)] at hrest
        rcases hrest with hrest | hrest
        · have hlast : vs.length * w.bytes = 0 := by rw [hrest, Nat.zero_mul]
          exact .inr (by omega)
        · exact .inr (by omega)
      · rintro (hzero | hall)
        · cases hzero
        · refine ⟨by omega, ?_⟩
          rw [next_toNat (by omega)]
          exact .inr (by omega)

/-- A read and a write of the driver, of any size. -/
theorem xpDevRegRead_inside (regs : Registers δ) (hlen : mmioLen < 2 ^ 32)
    (regAddr : BitVec 32) (regSize count : Nat) (s : δ) :
    Inside mmioLen (xpDevRegRead regs.traced regAddr regSize count (s, [])).2.2.2 ↔
      ∀ w, RegSize.ofNat? regSize = some w → ReadFits mmioLen regAddr w count := by
  unfold xpDevRegRead
  cases RegSize.ofNat? regSize with
  | none => simp
  | some w => simp [loadEach_inside hlen]

theorem xpDevRegWrite_inside (regs : Registers δ) (hlen : mmioLen < 2 ^ 32)
    (rwValue : List (BitVec 32)) (regAddr : BitVec 32) (regSize : Nat) (s : δ) :
    Inside mmioLen (xpDevRegWrite regs.traced rwValue regAddr regSize (s, [])).2.2 ↔
      ∀ w, RegSize.ofNat? regSize = some w → WriteFits mmioLen regAddr w rwValue.length := by
  unfold xpDevRegWrite
  cases RegSize.ofNat? regSize with
  | none => simp
  | some w => simp [storeEach_inside hlen]

end Loops

/-! ### The requests -/

section Requests

variable {regs : Registers δ} {mmioLen : Nat}

/-- The values of a write come through exactly when every piece does. -/
theorem copyInChunks_isSome_iff {kernel : AccessKernel} {user : Image} (copy : Nat) (idx : UInt8)
    (countValue : Nat) (tmp : Image) :
    (copyInChunks kernel user copy idx countValue tmp).isSome = true ↔
      ∀ piece < (countValue + 1023) / 1024, kernel.uncopied (copy + piece) = 0 := by
  have hpiece : ∀ {copy countValue : Nat}, leftOf kernel copy countValue = 0 ↔
      countValue = 0 ∨ kernel.uncopied copy = 0 := by
    intro copy countValue
    unfold leftOf copyCount xpMaxBytesForCopy
    split <;> omega
  fun_induction copyInChunks kernel user copy idx countValue tmp with
  | case1 copy idx countValue tmp hfail =>
      rw [Ne, hpiece, not_or] at hfail
      simp only [Option.isSome_none, Bool.false_eq_true, false_iff, not_forall]
      exact ⟨0, by omega, hfail.2⟩
  | case2 copy idx countValue tmp hdone hlast =>
      rw [ne_eq, not_not, hpiece] at hdone
      have hle : countValue ≤ 1024 := by
        rw [← copyCount_of_last hlast]
        exact copyCount_le_limit _
      simp only [Option.isSome_some, true_iff]
      intro piece hlt
      rcases hdone with hzero | hcopied
      · omega
      · have hfirst : piece = 0 := by omega
        rw [hfirst]
        exact hcopied
  | case3 copy idx countValue tmp hdone hmore ih =>
      have hfull := copyCount_of_more hmore
      rw [ne_eq, not_not, hpiece] at hdone
      have hcopied : kernel.uncopied copy = 0 := hdone.resolve_left (by omega)
      refine ih.trans ⟨?_, ?_⟩
      · intro hrest piece hlt
        cases piece with
        | zero => exact hcopied
        | succ piece =>
            rw [Nat.add_comm piece 1, ← Nat.add_assoc]
            exact hrest piece (by omega)
      · intro hall piece hlt
        rw [Nat.add_assoc, Nat.add_comm 1 piece]
        exact hall (piece + 1) (by omega)

/-- The device after an ioctl that passes its checks. -/
theorem regAccess_device {kernel : AccessKernel} {pciRw : XpRegRw} {count : Nat} {w : RegSize}
    (hreq : regRequest kernel pciRw = .ok (count, w)) (regs : Registers δ) (user : Image) (s : δ) :
    (xpDevRegAccess regs kernel pciRw user s).2.2 =
      if pciRw.direction = setReg then
        (copyInChunks kernel user 1 0 (u32Mul count w.bytes) kernel.fresh).elim s fun tmpValue =>
          (xpDevRegWrite regs (words tmpValue count) pciRw.regAddress w.bytes s).2
      else if pciRw.direction = getReg then
        (xpDevRegRead regs pciRw.regAddress w.bytes count s).2.2
      else s := by
  unfold xpDevRegAccess
  rw [hreq]
  dsimp only
  split
  · cases copyInChunks kernel user 1 0 (u32Mul count w.bytes) kernel.fresh with
    | none => rfl
    | some tmpValue =>
        dsimp only
        split
        · rfl
        · rfl
  · split
    · split
      · rfl
      · rfl
    · rfl

/-- The ioctl reaches the registers with its checks passed and, for a write, its
values copied. -/
theorem ioctl_inside (hlen : mmioLen < 2 ^ 32) (kernel : AccessKernel) (pciRw : XpRegRw)
    (user : Image) (s : δ) :
    Inside mmioLen ((RegRequest.ioctl kernel pciRw user).touches regs s) ↔
      (RegRequest.ioctl kernel pciRw user).Fits mmioLen := by
  simp only [RegRequest.touches, RegRequest.Fits]
  cases hreq : regRequest kernel pciRw with
  | error rc =>
      unfold xpDevRegAccess
      simp [hreq]
  | ok shape =>
      obtain ⟨count, w⟩ := shape
      have hbytes : u32Mul count w.bytes = pciRw.size := by
        rw [← regShape_bytes pciRw.size_lt, ← regRequest_ok hreq]
      have hcopies : (copyInChunks kernel user 1 0 pciRw.size kernel.fresh).isSome = true ↔
          kernel.CopiesIn pciRw.size := copyInChunks_isSome_iff 1 0 _ _
      have hw : RegSize.ofNat? w.bytes = some w := RegSize.ofNat?_bytes w
      have hshape : (∀ count' w', (.ok (count, w) : Except Int (Nat × RegSize)) = .ok (count', w') →
          (pciRw.direction = setReg → kernel.CopiesIn pciRw.size →
            WriteFits mmioLen pciRw.regAddress w' count') ∧
          (pciRw.direction = getReg → ReadFits mmioLen pciRw.regAddress w' count')) ↔
          (pciRw.direction = setReg → kernel.CopiesIn pciRw.size →
            WriteFits mmioLen pciRw.regAddress w count) ∧
          (pciRw.direction = getReg → ReadFits mmioLen pciRw.regAddress w count) := by
        constructor
        · exact fun hall => hall count w rfl
        · rintro h _ _ heq
          cases heq
          exact h
      rw [hshape, regAccess_device hreq, hbytes]
      by_cases hset : pciRw.direction = setReg
      · have hget : pciRw.direction ≠ getReg := fun heq => getReg_ne_setReg (heq.symm.trans hset)
        cases hin : copyInChunks kernel user 1 0 pciRw.size kernel.fresh with
        | none =>
            rw [hin] at hcopies
            simp [hset, ← hcopies, getReg_ne_setReg.symm]
        | some tmpValue =>
            rw [hin] at hcopies
            have hwrite := xpDevRegWrite_inside regs hlen (words tmpValue count)
              pciRw.regAddress w.bytes s
            simpa [hset, ← hcopies, getReg_ne_setReg.symm, hw] using hwrite
      · by_cases hget : pciRw.direction = getReg
        · have hread := xpDevRegRead_inside regs hlen pciRw.regAddress w.bytes count s
          simpa [hget, getReg_ne_setReg, hw] using hread
        · simp [hset, hget]

theorem procWrite_inside (hlen : mmioLen < 2 ^ 32) (text : ProcText) (bufsize : Nat)
    (status : RegRwStatus) (s : δ) :
    Inside mmioLen ((RegRequest.procWrite text bufsize status).touches regs s) ↔
      (RegRequest.procWrite text bufsize status).Fits mmioLen := by
  simp only [RegRequest.touches, RegRequest.Fits, xpregProcWrite]
  by_cases hsize : bufsize = 0
  · simp [hsize]
  · rw [if_neg hsize]
    cases text with
    | w regIndex regValue =>
        have hwrite := xpDevRegWrite_inside regs hlen [regValue] regIndex
          RegSize.dword.bytes s
        simpa [hsize] using hwrite
    | r regIndex =>
        have hread := xpDevRegRead_inside regs hlen regIndex RegSize.dword.bytes 1 s
        simpa [hsize] using hread
    | help => simp
    | other => simp

theorem drvWrite_inside (hlen : mmioLen < 2 ^ 32) (slots : Int → Bool) (dev : Int)
    (rwValue regAddr : BitVec 32) (regSize : Nat) (s : δ) :
    Inside mmioLen ((RegRequest.drvWrite slots dev rwValue regAddr regSize).touches regs s) ↔
      (RegRequest.drvWrite slots dev rwValue regAddr regSize).Fits mmioLen := by
  simp only [RegRequest.touches, RegRequest.Fits, xpPciDrvWriteReg]
  by_cases hdev : dev < maxDevSupported
  · rw [if_neg (by omega)]
    cases hslot : slots dev with
    | false => simp
    | true =>
        have hwrite := xpDevRegWrite_inside regs hlen [rwValue] regAddr regSize s
        simpa [hdev] using hwrite
  · rw [if_pos (by omega)]
    simp [hdev]

theorem drvRead_inside (hlen : mmioLen < 2 ^ 32) (slots : Int → Bool) (dev : Int)
    (regAddr : BitVec 32) (regSize : Nat) (s : δ) :
    Inside mmioLen ((RegRequest.drvRead slots dev regAddr regSize).touches regs s) ↔
      (RegRequest.drvRead slots dev regAddr regSize).Fits mmioLen := by
  simp only [RegRequest.touches, RegRequest.Fits, xpPciDrvReadReg]
  by_cases hdev : dev < maxDevSupported
  · rw [if_neg (by omega)]
    cases hslot : slots dev with
    | false => simp
    | true =>
        have hread := xpDevRegRead_inside regs hlen regAddr regSize 1 s
        simpa [hdev] using hread
  · rw [if_pos (by omega)]
    simp [hdev]

theorem mmap_inside (length : Nat) (s : δ) :
    Inside mmioLen ((RegRequest.mmap length).touches regs s) ↔
      (RegRequest.mmap length).Fits mmioLen := by
  simp only [RegRequest.touches, RegRequest.Fits, xpDevMmap]
  generalize length % 2 ^ 32 = vsize
  by_cases hsize : vsize ≤ xpMaxIoMem
  · rw [if_neg (Nat.not_lt.mpr hsize)]
    by_cases hpos : 0 < pageAlign vsize
    · have hmap : Inside mmioLen [.map (pageAlign vsize)] ↔ 0 + pageAlign vsize ≤ mmioLen :=
        inside_singleton hpos
      rw [Nat.zero_add] at hmap
      simpa [hsize] using hmap
    · have hnone : pageAlign vsize = 0 := Nat.eq_zero_of_not_pos hpos
      simp [hnone, Inside, RegAccess.first, RegAccess.len]
  · rw [if_pos (Nat.not_le.mp hsize)]
    simp [hsize]

end Requests

/-- **The bounds of the registers.** For every device and every length of its BAR0, a
request touches nothing outside exactly when its range, with the rest of the last dword
that a write of bytes or words begins, ends within that length; for `mmap`, when the
pages mapped do. -/
theorem touches_inside_iff (regs : Registers δ) (s : δ) (mmioLen : BitVec 32) (req : RegRequest) :
    Inside mmioLen.toNat (req.touches regs s) ↔ req.Fits mmioLen.toNat := by
  have hlen : mmioLen.toNat < 2 ^ 32 := mmioLen.isLt
  cases req with
  | ioctl kernel pciRw user => exact ioctl_inside hlen kernel pciRw user s
  | procWrite text bufsize status => exact procWrite_inside hlen text bufsize status s
  | drvWrite slots dev rwValue regAddr regSize =>
      exact drvWrite_inside hlen slots dev rwValue regAddr regSize s
  | drvRead slots dev regAddr regSize => exact drvRead_inside hlen slots dev regAddr regSize s
  | mmap length => exact mmap_inside length s

/-- The compressed B0 device has 64 MB, and 256 MB are mapped. -/
theorem mmap_beyond_compressed :
    ¬ Inside (BitVec.ofNat 32 (64 * 1024 * 1024)).toNat
      ((RegRequest.mmap (256 * 1024 * 1024)).touches memory fun _ => 0) := by
  intro hinside
  have hoffset := hinside (.map (256 * 1024 * 1024)) (by decide) (64 * 1024 * 1024) (by decide)
    (by decide)
  exact absurd hoffset (by decide)

end XpNet.Pci

/-
The interrupt handlers of `xp_pcie_slave.c`.

A handler loads the interrupt summary words of its priority. When the management
bit is set it leaves everything to `xp_irq_mgmt_handler`, which reports the first
DMA0 queue with a source bit; otherwise `xp_irq_handler` goes through the table of
blocks and queues an event for each that has a bit pending.

`xpBlockNumberGet_bit` says that a block's field is its bits of the summary, also
where they lie in two words. So without the management bit every pending block is
reported, and with it none is: the handlers report the blocks that are pending
exactly when not both are (`msiIrqHandlers_report_iff`).
-/

import XpNet.Pci.Regs
import XpNet.Common

namespace XpNet.Pci

open XpNet.Intf (enomem)

/-! ### Events -/

/-- `HIGH` and `LOW`. -/
def high : BitVec 1 := 1
def low : BitVec 1 := 0

/-- `RX_QUEUE` and `TX_QUEUE`. -/
def rxQueue : BitVec 1 := 1
def txQueue : BitVec 1 := 0

/-- `xp_intr_info_t`, but for its reserved bits. -/
structure XpIntrInfo where
  regType : BitVec 1
  blockId : BitVec 8
  devId : BitVec 6
  hasQueueInfo : BitVec 1
  qType : BitVec 1
  qNum : BitVec 6
  intrStatus : BitVec 3
  deriving DecidableEq

/-- What `memset` leaves of it. -/
def clearIntrInfo : XpIntrInfo := ⟨0, 0, 0, 0, 0, 0, 0⟩

/-- `xp_work_t`: the event it carries in `sig_info.si_int`, and whether
`INIT_WORK` has been done to it. -/
structure XpWork where
  appPid : Int
  siInt : XpIntrInfo
  initWork : Bool
  deriving DecidableEq

/-- What the handlers read of `xp_private_t`: `mode`, the minor number of `cdev`,
`app_pid`, and whether there is a `w_queue`. -/
structure IrqPriv where
  mode : AddressMode
  minor : Nat
  appPid : Int
  wQueue : Bool

/-- The work that a handler queues for an event. -/
def irqWork (priv : IrqPriv) (info : XpIntrInfo) : XpWork := ⟨priv.appPid, info, priv.wQueue⟩

/-! ### The blocks of the summary -/

/-- A table of blocks: `reg_blocks` and the three arrays of `u8` that go with it.
Each block is a field of at most 32 bits. -/
structure RegBlocks where
  regBlocks : Nat
  regStartBits : List Nat
  regEndBits : List Nat
  regBitWidths : List Nat
  start_le : ∀ b < regBlocks, regStartBits.getD b 0 ≤ regEndBits.getD b 0
  width_eq : ∀ b < regBlocks,
    regBitWidths.getD b 0 = regEndBits.getD b 0 - regStartBits.getD b 0 + 1
  width_le : ∀ b < regBlocks, regBitWidths.getD b 0 ≤ 32
  end_lt : ∀ b < regBlocks, regEndBits.getD b 0 < 2 ^ 8

def numHpIntRegBlocks : Nat := 35
def numLpIntRegBlocks : Nat := 33

/-- `xp_hp_reg_start_bit`, `xp_hp_reg_end_bit` and `xp_hp_reg_bit_width`. -/
def xpHpRegs : RegBlocks where
  regBlocks := numHpIntRegBlocks
  regStartBits := [0, 1, 2, 3, 4, 5, 6, 7, 8, 9, 11, 23, 26, 30, 31, 32, 33, 34, 35, 47, 50, 54,
    55, 56, 57, 58, 59, 60, 76, 78, 80, 82, 114, 115, 116]
  regEndBits := [0, 1, 2, 3, 4, 5, 6, 7, 8, 10, 22, 25, 29, 30, 31, 32, 33, 34, 46, 49, 53, 54,
    55, 56, 57, 58, 59, 75, 77, 79, 81, 113, 114, 115, 116]
  regBitWidths := [1, 1, 1, 1, 1, 1, 1, 1, 1, 2, 12, 3, 4, 1, 1, 1, 1, 1, 12, 3, 4, 1, 1, 1, 1, 1,
    1, 16, 2, 2, 2, 32, 1, 1, 1]
  start_le := by decide
  width_eq := by decide
  width_le := by decide
  end_lt := by decide

/-- `xp_lp_reg_start_bit`, `xp_lp_reg_end_bit` and `xp_lp_reg_bit_width`. -/
def xpLpRegs : RegBlocks where
  regBlocks := numLpIntRegBlocks
  regStartBits := [0, 1, 2, 3, 4, 5, 6, 7, 8, 9, 11, 23, 26, 30, 31, 32, 33, 34, 35, 47, 50, 54,
    55, 56, 57, 58, 59, 60, 76, 78, 80, 82, 83]
  regEndBits := [0, 1, 2, 3, 4, 5, 6, 7, 8, 10, 22, 25, 29, 30, 31, 32, 33, 34, 46, 49, 53, 54,
    55, 56, 57, 58, 59, 75, 77, 79, 81, 82, 83]
  regBitWidths := [1, 1, 1, 1, 1, 1, 1, 1, 1, 2, 12, 3, 4, 1, 1, 1, 1, 1, 12, 3, 4, 1, 1, 1, 1, 1,
    1, 16, 2, 2, 2, 1, 1]
  start_le := by decide
  width_eq := by decide
  width_le := by decide
  end_lt := by decide

/-- `xp_reg_mask`. -/
def xpRegMask : List (BitVec 32) := [
  0x00000000, 0x00000001, 0x00000003,
  0x00000007, 0x0000000f, 0x0000001f,
  0x0000003f, 0x0000007f, 0x000000ff,
  0x000001ff, 0x000003ff, 0x000007ff,
  0x00000fff, 0x00001fff, 0x00003fff,
  0x00007fff, 0x0000ffff, 0x0001ffff,
  0x0003ffff, 0x0007ffff, 0x000fffff,
  0x001fffff, 0x003fffff, 0x007fffff,
  0x00ffffff, 0x01ffffff, 0x03ffffff,
  0x07ffffff, 0x0fffffff, 0x1fffffff,
  0x3fffffff, 0x7fffffff, 0xffffffff]

/-- `xp_block_number_get(reg_value, start_bit, end_bit, bit_width)`. The index of
a field in one word is a `u8`. -/
def xpBlockNumberGet (regValue : Nat → BitVec 32) (startBit endBit bitWidth : Nat) : BitVec 32 :=
  if startBit / 32 = endBit / 32 then
    let index := startBit / 32 % 2 ^ 8
    let mask := if startBit ≠ endBit then xpRegMask.getD bitWidth 0 else 1
    (regValue index >>> (startBit % 32)) &&& mask
  else
    let regWord1 := regValue (startBit / 32) >>> (startBit % 32)
    let regWord2 := regValue (endBit / 32) <<< (32 - startBit % 32)
    (regWord1 ||| regWord2) &&& xpRegMask.getD bitWidth 0

/-- The event of a block: `regType` tells the tables apart by their sizes. -/
def blockInfo (priv : IrqPriv) (table : RegBlocks) (blockNum : Nat) : XpIntrInfo :=
  { clearIntrInfo with
    blockId := BitVec.ofNat 8 blockNum
    regType := if table.regBlocks = numHpIntRegBlocks then high else low
    devId := BitVec.ofNat 6 priv.minor }

/-- The value of a block of the summary. -/
def blockValue (table : RegBlocks) (intrRegVal : Nat → BitVec 32) (blockNum : Nat) : BitVec 32 :=
  xpBlockNumberGet intrRegVal (table.regStartBits.getD blockNum 0)
    (table.regEndBits.getD blockNum 0) (table.regBitWidths.getD blockNum 0)

/-- The loop of `xp_irq_handler` over the blocks in `blocks`; `queued` are the
works queued before, and `kmalloc` says which allocations are granted. -/
def irqBlocks (priv : IrqPriv) (kmalloc : Nat → Bool) (table : RegBlocks)
    (intrRegVal : Nat → BitVec 32) : List Nat → List XpWork → Int × List XpWork
  | [], queued => (0, queued)
  | blockNum :: rest, queued =>
      if blockValue table intrRegVal blockNum ≠ 0 then
        if kmalloc queued.length then
          irqBlocks priv kmalloc table intrRegVal rest
            (queued ++ [irqWork priv (blockInfo priv table blockNum)])
        else (-enomem, queued)
      else irqBlocks priv kmalloc table intrRegVal rest queued

/-- `xp_irq_handler(priv, reg_blocks, …, intr_reg_val)`: its result and the works
it queues. -/
def xpIrqHandler (priv : IrqPriv) (kmalloc : Nat → Bool) (table : RegBlocks)
    (intrRegVal : Nat → BitVec 32) : Int × List XpWork :=
  irqBlocks priv kmalloc table intrRegVal (List.range table.regBlocks) []

/-! ### The management block -/

variable {δ : Type}

/-- The registers of `xp_regs_list` that the handlers use. -/
inductive IrqReg where
  | highPrioReg
  | lowPrioReg
  | highIntrSourceReg
  | dma0TxdoneStatusReg
  | dma0RxdoneStatusReg

/-- `XP_GET_PCI_BASE_OFFSET_FROM_REG_NAME(reg, mode)`. -/
def irqRegOffset : IrqReg → AddressMode → Nat
  | .highPrioReg, .a0Uncompressed => 0x08a80080
  | .highPrioReg, .b0Uncompressed => 0x08a8019c
  | .highPrioReg, .b0Compressed => 0x025e819c
  | .lowPrioReg, .a0Uncompressed => 0x08a80090
  | .lowPrioReg, .b0Uncompressed => 0x08a801ac
  | .lowPrioReg, .b0Compressed => 0x025e81ac
  | .highIntrSourceReg, .a0Uncompressed => 0x08a8018c
  | .highIntrSourceReg, .b0Uncompressed => 0x08a802c4
  | .highIntrSourceReg, .b0Compressed => 0x025e82c4
  | .dma0TxdoneStatusReg, .a0Uncompressed => 0x08b50000
  | .dma0TxdoneStatusReg, .b0Uncompressed => 0x08b50000
  | .dma0TxdoneStatusReg, .b0Compressed => 0x02744000
  | .dma0RxdoneStatusReg, .a0Uncompressed => 0x08b50800
  | .dma0RxdoneStatusReg, .b0Uncompressed => 0x08b50800
  | .dma0RxdoneStatusReg, .b0Compressed => 0x02748000

/-- `DMA0_INTR_START_BIT_POS(mode)`. -/
def dma0IntrStartBitPos (mode : AddressMode) : Nat := if mode = .a0Uncompressed then 8 else 9

/-- `HIGH_INTR_SRC_REG_SIZE`, `TOTAL_RX_QUEUE` and `TOTAL_TX_QUEUE`. -/
def highIntrSrcRegSize : Nat := 5
def totalRxQueue : Nat := 64
def totalTxQueue : Nat := 64

/-- `DMA0_TXDONE(reg_addr, qnum)` and `DMA0_RXDONE(reg_addr, qnum)`. -/
def dma0Done (regAddr qnum : Nat) : Nat := regAddr + 16 * qnum

/-- The inner loop of `xp_irq_mgmt_handler`: the first bit set from `j` on. -/
def firstSetBit (word : BitVec 32) (j : Nat) : Option Nat :=
  (List.range 32).find? fun k => decide (j ≤ k) && word.getLsbD k

/-- The queue that a source bit stands for, as `q_type` and `q_num`; a bit of
neither range leaves what `memset` put there. -/
def mgmtQueue (mode : AddressMode) (bitPos : Nat) : BitVec 1 × BitVec 6 :=
  let start := dma0IntrStartBitPos mode
  if start ≤ bitPos ∧ bitPos < totalRxQueue + start then (rxQueue, BitVec.ofNat 6 (bitPos - start))
  else if totalTxQueue + start ≤ bitPos ∧ bitPos < start + totalRxQueue + totalTxQueue then
    (txQueue, BitVec.ofNat 6 (bitPos - (totalTxQueue + start)))
  else (0, 0)

/-- The address of the status register of a queue. -/
def statusRegAddr (mode : AddressMode) (queue : BitVec 1 × BitVec 6) : Nat :=
  if queue.1 = rxQueue then dma0Done (irqRegOffset .dma0RxdoneStatusReg mode) queue.2.toNat
  else dma0Done (irqRegOffset .dma0TxdoneStatusReg mode) queue.2.toNat

/-- The event of a queue. -/
def queueInfo (priv : IrqPriv) (queue : BitVec 1 × BitVec 6) (intrStatus : BitVec 32) :
    XpIntrInfo :=
  { clearIntrInfo with
    blockId := 0
    devId := BitVec.ofNat 6 priv.minor
    hasQueueInfo := 1
    qType := queue.1
    qNum := queue.2
    intrStatus := intrStatus.setWidth 3 }

/-- What `xp_irq_mgmt_handler` does with bit `j` of source word `i`. -/
def mgmtReport (regs : Registers δ) (priv : IrqPriv) (kmalloc : Nat → Bool) (i j : Nat) (s : δ) :
    Int × List XpWork × δ :=
  let queue := mgmtQueue priv.mode (i * 32 + j)
  let statusReg := statusRegAddr priv.mode queue
  let intrStatus := regs.loadU32 .dword statusReg s
  if !kmalloc 0 then (-enomem, [], intrStatus.2)
  else
    let work := irqWork priv (queueInfo priv queue intrStatus.1)
    let cleared := (xpDevRegWrite regs [0x7] (BitVec.ofNat 32 statusReg) 1 intrStatus.2).2
    let acked := (xpDevRegWrite regs [1#32 <<< j]
      (BitVec.ofNat 32 (irqRegOffset .highIntrSourceReg priv.mode + i * 4)) 4 cleared).2
    (0, [work], acked)

/-- The outer loop of `xp_irq_mgmt_handler` over the source words in `sources`. -/
def mgmtSources (regs : Registers δ) (priv : IrqPriv) (kmalloc : Nat → Bool) :
    List Nat → δ → Int × List XpWork × δ
  | [], s => (0, [], s)
  | i :: rest, s =>
      let source :=
        regs.loadU32 .dword (irqRegOffset .highIntrSourceReg priv.mode + 4 * i) s
      let j := if i = 0 then dma0IntrStartBitPos priv.mode else 0
      match firstSetBit source.1 j with
      | some j => mgmtReport regs priv kmalloc i j source.2
      | none => mgmtSources regs priv kmalloc rest source.2

section Sources

variable (regs : Registers δ) (priv : IrqPriv) (kmalloc : Nat → Bool) {i : Nat} (rest : List Nat)
  {s : δ}

theorem mgmtSources_some {b : Nat} (hfirst : firstSetBit
      (regs.loadU32 .dword (irqRegOffset .highIntrSourceReg priv.mode + 4 * i) s).1
      (if i = 0 then dma0IntrStartBitPos priv.mode else 0) = some b) :
    mgmtSources regs priv kmalloc (i :: rest) s = mgmtReport regs priv kmalloc i b
      (regs.loadU32 .dword (irqRegOffset .highIntrSourceReg priv.mode + 4 * i) s).2 := by
  simp only [mgmtSources, hfirst]

theorem mgmtSources_none (hfirst : firstSetBit
      (regs.loadU32 .dword (irqRegOffset .highIntrSourceReg priv.mode + 4 * i) s).1
      (if i = 0 then dma0IntrStartBitPos priv.mode else 0) = none) :
    mgmtSources regs priv kmalloc (i :: rest) s = mgmtSources regs priv kmalloc rest
      (regs.loadU32 .dword (irqRegOffset .highIntrSourceReg priv.mode + 4 * i) s).2 := by
  simp only [mgmtSources, hfirst]

end Sources

/-- `xp_irq_mgmt_handler(priv)`. -/
def xpIrqMgmtHandler (regs : Registers δ) (priv : IrqPriv) (kmalloc : Nat → Bool) (s : δ) :
    Int × List XpWork × δ :=
  mgmtSources regs priv kmalloc (List.range highIntrSrcRegSize) s

/-! ### The handlers -/

/-- `IRQ_HANDLED`. -/
def irqHandled : Int := 1

def xpHpIntRegSizeInDwrd : Nat := 4
def xpLpIntRegSizeInDwrd : Nat := 3

/-- The loop that fills `reg_value`: `count` words from `base` on. -/
def readSummary (regs : Registers δ) (base : Nat) : Nat → δ → List (BitVec 32) × δ
  | 0, s => ([], s)
  | i + 1, s =>
      let before := readSummary regs base i s
      let word := regs.loadU32 .dword (base + 4 * i) before.2
      (before.1 ++ [word.1], word.2)

/-- What a handler does with the summary words it has read. -/
def handleSummary (regs : Registers δ) (priv : IrqPriv) (kmalloc : Nat → Bool) (table : RegBlocks)
    (mgmtBit : Nat) (mgmtFailed failed : Int → Int) (regValue : Nat → BitVec 32) (s : δ) :
    Int × List XpWork × δ :=
  if (regValue (mgmtBit / 32)).getLsbD (mgmtBit % 32) then
    let r := xpIrqMgmtHandler regs priv kmalloc s
    (if r.1 < 0 then mgmtFailed r.1 else irqHandled, r.2)
  else if regValue 0 = 0 ∧ regValue 1 = 0 ∧ regValue 2 = 0 ∧ regValue 3 = 0 then
    (irqHandled, [], s)
  else
    let r := xpIrqHandler priv kmalloc table regValue
    (if r.1 < 0 then failed r.1 else irqHandled, r.2, s)

/-- The words `xp_msi_irq_handler_high` reads. -/
def highSummary (regs : Registers δ) (priv : IrqPriv) (s : δ) : Nat → BitVec 32 :=
  fun i => (readSummary regs (irqRegOffset .highPrioReg priv.mode) xpHpIntRegSizeInDwrd s).1.getD i 0

/-- The words `xp_msi_irq_handler_low` has: the three it reads and one it leaves
as the stack has it. -/
def lowSummary (regs : Registers δ) (priv : IrqPriv) (stale : BitVec 32) (s : δ) :
    Nat → BitVec 32 :=
  fun i =>
    (readSummary regs (irqRegOffset .lowPrioReg priv.mode) xpLpIntRegSizeInDwrd s).1.getD i stale

/-- `xp_msi_irq_handler_high(irq, data)`; `0x100000` in word 3 is bit 116. -/
def xpMsiIrqHandlerHigh (regs : Registers δ) (priv : IrqPriv) (kmalloc : Nat → Bool) (s : δ) :
    Int × List XpWork × δ :=
  handleSummary regs priv kmalloc xpHpRegs 116 id (fun _ => -1) (highSummary regs priv s)
    (readSummary regs (irqRegOffset .highPrioReg priv.mode) xpHpIntRegSizeInDwrd s).2

/-- `xp_msi_irq_handler_low(irq, data)`; `0x80000` in word 2 is bit 83. -/
def xpMsiIrqHandlerLow (regs : Registers δ) (priv : IrqPriv) (kmalloc : Nat → Bool)
    (stale : BitVec 32) (s : δ) : Int × List XpWork × δ :=
  handleSummary regs priv kmalloc xpLpRegs 83 (fun _ => -1) (fun _ => irqHandled)
    (lowSummary regs priv stale s)
    (readSummary regs (irqRegOffset .lowPrioReg priv.mode) xpLpIntRegSizeInDwrd s).2

/-! ### The fields of the summary -/

/-- A bit of the summary, counted through its words. -/
def summaryBit (regValue : Nat → BitVec 32) (n : Nat) : Bool := (regValue (n / 32)).getLsbD (n % 32)

theorem xpRegMask_bit : ∀ n ≤ 32, ∀ j < 32, (xpRegMask.getD n 0).getLsbD j = decide (j < n) := by
  decide +kernel

section Fields

variable {regValue : Nat → BitVec 32} {startBit endBit bitWidth : Nat}

/-- A field of at most 32 bits, across two words of the summary or in one of the
first 256. -/
theorem xpBlockNumberGet_bit (hle : startBit ≤ endBit) (hwidth : bitWidth = endBit - startBit + 1)
    (hfits : bitWidth ≤ 32) (hindex : startBit / 32 = endBit / 32 → startBit / 32 < 2 ^ 8) {j : Nat}
    (hj : j < 32) :
    (xpBlockNumberGet regValue startBit endBit bitWidth).getLsbD j =
      (decide (j < bitWidth) && summaryBit regValue (startBit + j)) := by
  unfold xpBlockNumberGet summaryBit
  by_cases hword : startBit / 32 = endBit / 32
  · have hmask : (if startBit ≠ endBit then xpRegMask.getD bitWidth 0 else 1).getLsbD j =
        decide (j < bitWidth) := by
      by_cases heq : startBit = endBit
      · have hone : bitWidth = 1 := by omega
        rw [if_neg (not_not.mpr heq), ← xpRegMask_bit bitWidth hfits j hj, hone]
        rfl
      · rw [if_pos heq, xpRegMask_bit bitWidth hfits j hj]
    rw [if_pos hword, Nat.mod_eq_of_lt (hindex hword), BitVec.getLsbD_and, hmask,
      BitVec.getLsbD_ushiftRight, Bool.and_comm]
    by_cases hin : j < bitWidth
    · have hdiv : (startBit + j) / 32 = startBit / 32 := by omega
      have hmod : (startBit + j) % 32 = startBit % 32 + j := by omega
      rw [hdiv, hmod]
    · simp [hin]
  · rw [if_neg hword, BitVec.getLsbD_and, xpRegMask_bit bitWidth hfits j hj, BitVec.getLsbD_or,
      BitVec.getLsbD_ushiftRight, BitVec.getLsbD_shiftLeft, Bool.and_comm]
    by_cases hin : j < bitWidth
    · congr 1
      by_cases hlow : startBit % 32 + j < 32
      · -- the bit lies in the first word, and the second is shifted past it
        have hdiv : (startBit + j) / 32 = startBit / 32 := by omega
        have hmod : (startBit + j) % 32 = startBit % 32 + j := by omega
        have hshift : j < 32 - startBit % 32 := by omega
        rw [hdiv, hmod]
        simp [hshift]
      · have hhigh : (regValue (startBit / 32)).getLsbD (startBit % 32 + j) = false :=
          BitVec.getLsbD_of_ge _ _ (by omega)
        have hdiv : (startBit + j) / 32 = endBit / 32 := by omega
        have hmod : (startBit + j) % 32 = j - (32 - startBit % 32) := by omega
        have hshift : ¬ j < 32 - startBit % 32 := by omega
        rw [hhigh, hdiv, hmod]
        simp [hj, hshift]
    · simp [hin]

/-- A field is non-zero when one of its bits is set. -/
theorem xpBlockNumberGet_ne_zero (hle : startBit ≤ endBit)
    (hwidth : bitWidth = endBit - startBit + 1) (hfits : bitWidth ≤ 32)
    (hindex : startBit / 32 = endBit / 32 → startBit / 32 < 2 ^ 8) :
    xpBlockNumberGet regValue startBit endBit bitWidth ≠ 0 ↔
      ∃ n, startBit ≤ n ∧ n ≤ endBit ∧ summaryBit regValue n = true := by
  constructor
  · intro hne
    by_contra hnone
    refine hne (BitVec.eq_of_getLsbD_eq fun j hj => ?_)
    rw [xpBlockNumberGet_bit hle hwidth hfits hindex hj]
    by_cases hin : j < bitWidth
    · have hclear : ¬ summaryBit regValue (startBit + j) = true := fun hset =>
        hnone ⟨startBit + j, by omega, by omega, hset⟩
      simp [hclear]
    · simp [hin]
  · rintro ⟨n, hlo, hhi, hset⟩ hzero
    have hbit : (xpBlockNumberGet regValue startBit endBit bitWidth).getLsbD (n - startBit) = _ :=
      xpBlockNumberGet_bit hle hwidth hfits hindex (by omega)
    rw [hzero, Nat.add_sub_of_le hlo, hset] at hbit
    simp at hbit
    omega

end Fields

/-! ### What the handlers report -/

/-- A block has a bit pending in the summary. -/
def Pending (table : RegBlocks) (regValue : Nat → BitVec 32) (blockNum : Nat) : Prop :=
  ∃ n, table.regStartBits.getD blockNum 0 ≤ n ∧ n ≤ table.regEndBits.getD blockNum 0 ∧
    summaryBit regValue n = true

/-- Every pending block but `mgmtBlock` has its event among the works. -/
def ReportsPending (priv : IrqPriv) (table : RegBlocks) (mgmtBlock : Nat)
    (regValue : Nat → BitVec 32) (works : List XpWork) : Prop :=
  ∀ b < table.regBlocks, b ≠ mgmtBlock → Pending table regValue b →
    irqWork priv (blockInfo priv table b) ∈ works

section Reports

variable {regs : Registers δ} {priv : IrqPriv} {table : RegBlocks} {regValue : Nat → BitVec 32}

theorem RegBlocks.index_lt {b : Nat} (hb : b < table.regBlocks) :
    table.regStartBits.getD b 0 / 32 < 2 ^ 8 := by
  have hle := table.start_le b hb
  have hlt := table.end_lt b hb
  omega

theorem blockValue_ne_zero {b : Nat} (hb : b < table.regBlocks) :
    blockValue table regValue b ≠ 0 ↔ Pending table regValue b :=
  xpBlockNumberGet_ne_zero (table.start_le b hb) (table.width_eq b hb) (table.width_le b hb)
    fun _ => table.index_lt hb

/-- With every allocation granted, the loop queues an event for each block of a
non-zero value, in order. -/
theorem irqBlocks_granted (blocks : List Nat) (queued : List XpWork) :
    irqBlocks priv (fun _ => true) table regValue blocks queued =
      (0, queued ++ (blocks.filter fun b => blockValue table regValue b ≠ 0).map fun b =>
        irqWork priv (blockInfo priv table b)) := by
  induction blocks generalizing queued with
  | nil => simp [irqBlocks]
  | cons b rest ih =>
      unfold irqBlocks
      by_cases hvalue : blockValue table regValue b ≠ 0
      · rw [if_pos hvalue, if_pos rfl, ih, List.filter_cons_of_pos (by simpa using hvalue),
          List.map_cons, List.append_assoc, List.singleton_append]
      · rw [if_neg hvalue, ih, List.filter_cons_of_neg (by simpa using hvalue)]

theorem xpIrqHandler_reports (mgmtBlock : Nat) :
    ReportsPending priv table mgmtBlock regValue
      (xpIrqHandler priv (fun _ => true) table regValue).2 := by
  intro b hb _ hpending
  unfold xpIrqHandler
  rw [irqBlocks_granted, List.nil_append]
  refine List.mem_map.mpr ⟨b, ?_, rfl⟩
  simpa [hb] using (blockValue_ne_zero hb).mpr hpending

/-- The events of the management handler carry a queue. -/
theorem mgmtSources_hasQueueInfo (kmalloc : Nat → Bool) (sources : List Nat) (s : δ) :
    ∀ work ∈ (mgmtSources regs priv kmalloc sources s).2.1, work.siInt.hasQueueInfo = 1 := by
  induction sources generalizing s with
  | nil => simp [mgmtSources]
  | cons i rest ih =>
      unfold mgmtSources
      simp only
      split
      · unfold mgmtReport
        simp only
        split
        · simp
        · simp [irqWork, queueInfo]
      · exact ih _

/-- So they are no events of blocks. -/
theorem blockInfo_not_mem_mgmt (kmalloc : Nat → Bool) (b : Nat) (s : δ) :
    irqWork priv (blockInfo priv table b) ∉ (xpIrqMgmtHandler regs priv kmalloc s).2.1 := by
  intro hmem
  have hinfo := mgmtSources_hasQueueInfo kmalloc _ s _ hmem
  exact absurd hinfo (by simp [irqWork, blockInfo, clearIntrInfo])

/-- A summary with no bit set has no block pending. -/
theorem not_pending_of_zero (hfour : ∀ b < table.regBlocks, table.regEndBits.getD b 0 < 128)
    (hzero : regValue 0 = 0 ∧ regValue 1 = 0 ∧ regValue 2 = 0 ∧ regValue 3 = 0) {b : Nat}
    (hb : b < table.regBlocks) : ¬ Pending table regValue b := by
  rintro ⟨n, -, hn, hset⟩
  have hlt := hfour b hb
  obtain ⟨h0, h1, h2, h3⟩ := hzero
  have hword : regValue (n / 32) = 0 := by
    have hcases : n / 32 = 0 ∨ n / 32 = 1 ∨ n / 32 = 2 ∨ n / 32 = 3 := by omega
    rcases hcases with h | h | h | h <;> rw [h] <;> assumption
  unfold summaryBit at hset
  rw [hword] at hset
  simp at hset

/-- With every allocation granted, a handler reports what is pending exactly when
the management bit is clear or nothing else is pending. -/
theorem handleSummary_reports_iff {mgmtBit mgmtBlock : Nat} {mgmtFailed failed : Int → Int}
    {s : δ} (hfour : ∀ b < table.regBlocks, table.regEndBits.getD b 0 < 128) :
    ReportsPending priv table mgmtBlock regValue
        (handleSummary regs priv (fun _ => true) table mgmtBit mgmtFailed failed regValue s).2.1 ↔
      summaryBit regValue mgmtBit = false ∨
        ∀ b < table.regBlocks, b ≠ mgmtBlock → ¬ Pending table regValue b := by
  unfold handleSummary
  by_cases hmgmt : (regValue (mgmtBit / 32)).getLsbD (mgmtBit % 32) = true
  · rw [if_pos hmgmt]
    constructor
    · intro hreports
      refine .inr fun b hb hne hpending => ?_
      exact blockInfo_not_mem_mgmt _ b s (hreports b hb hne hpending)
    · rintro (hclear | hnone)
      · exact absurd hmgmt (by unfold summaryBit at hclear; simp [hclear])
      · exact fun b hb hne hpending => absurd hpending (hnone b hb hne)
  · rw [if_neg hmgmt]
    constructor
    · exact fun _ => .inl (by simpa [summaryBit] using hmgmt)
    · intro _
      split
      · rename_i hzero
        exact fun b hb _ hpending => absurd hpending (not_pending_of_zero hfour hzero hb)
      · exact xpIrqHandler_reports mgmtBlock

/-- **What one interrupt reports.** For every device, and with it every value of
the summary words, a handler whose allocations are granted reports every pending
block but the management block exactly when the management bit is clear or no
other block is pending. -/
theorem msiIrqHandlers_report_iff (regs : Registers δ) (priv : IrqPriv) (stale : BitVec 32)
    (s : δ) :
    (ReportsPending priv xpHpRegs 34 (highSummary regs priv s)
        (xpMsiIrqHandlerHigh regs priv (fun _ => true) s).2.1 ↔
      summaryBit (highSummary regs priv s) 116 = false ∨
        ∀ b < xpHpRegs.regBlocks, b ≠ 34 → ¬ Pending xpHpRegs (highSummary regs priv s) b) ∧
    (ReportsPending priv xpLpRegs 32 (lowSummary regs priv stale s)
        (xpMsiIrqHandlerLow regs priv (fun _ => true) stale s).2.1 ↔
      summaryBit (lowSummary regs priv stale s) 83 = false ∨
        ∀ b < xpLpRegs.regBlocks, b ≠ 32 → ¬ Pending xpLpRegs (lowSummary regs priv stale s) b) :=
  ⟨handleSummary_reports_iff (by decide), handleSummary_reports_iff (by decide)⟩

end Reports

/-- Bits 0 and 116 of the high priority summary of an A0 device. -/
def twoPending : Image := fun o =>
  if o = 0x08a80080 then 0x01 else if o = 0x08a80080 + 14 then 0x10 else 0

/-- With bits 0 and 116 pending the handler queues nothing for block 0. -/
theorem msi_mgmt_hides_block :
    ¬ ReportsPending ⟨.a0Uncompressed, 0, 1, true⟩ xpHpRegs 34
      (highSummary memory ⟨.a0Uncompressed, 0, 1, true⟩ twoPending)
      (xpMsiIrqHandlerHigh memory ⟨.a0Uncompressed, 0, 1, true⟩ (fun _ => true) twoPending).2.1 := by
  intro hreports
  have hworks : (xpMsiIrqHandlerHigh memory ⟨.a0Uncompressed, 0, 1, true⟩ (fun _ => true)
      twoPending).2.1 = [] := by decide +kernel
  have hbit : summaryBit (highSummary memory ⟨.a0Uncompressed, 0, 1, true⟩ twoPending) 0 =
      true := by decide +kernel
  have hmem := hreports 0 (by decide) (by decide) ⟨0, by decide, by decide, hbit⟩
  rw [hworks] at hmem
  cases hmem

end XpNet.Pci

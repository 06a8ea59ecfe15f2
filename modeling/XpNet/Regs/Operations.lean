/-
All operations of the driver that reach a device register, and their use of
`tx_dma_read_lock`.

The interrupt handlers take the lock for each word they load. The ioctl, the files under
`/proc` and the exported functions go through `xp_dev_reg_read` and `xp_dev_reg_write`.
Together with the init, the deinit, the transmit entries and the receive work of the other
modules they are the operations, and for each of them the lock is used well in every run,
whatever other threads and the device do meanwhile (`operations_useLock`): every load and
store is made with the lock held, nobody takes it who has it, every call with `aflags` has
`XPNET_AFLAG_ACQLOCK` set exactly if the lock is free, and whoever returns has given it
back.

`xpMsiIrqHandlerHigh_computes` and the lemmas beside it say that the programs here do to
the device what the functions of `XpNet.Pci` do.
-/

import XpNet.Pci.Irq
import XpNet.Pci.RegAccess
import XpNet.Pci.Touches
import XpNet.Regs.Setup
import XpNet.Regs.Traffic

namespace XpNet.Regs

open XpNet.Interference
open XpNet.Intf (enomem einval)
open XpNet.Pci (RegSize IrqPriv XpWork RegBlocks irqRegOffset irqHandled irqWork queueInfo
  mgmtQueue statusRegAddr dma0IntrStartBitPos firstSetBit highIntrSrcRegSize xpHpRegs xpLpRegs
  xpHpIntRegSizeInDwrd xpLpIntRegSizeInDwrd AccessKernel XpRegRw regRequest copyInChunks
  copyOutChunks setReg getReg efault ProcText RegRwStatus)
open XpNet.Tx (Datagram)

variable {δ α β : Type}

/-! ### Interrupts -/

/-- One word, with the lock taken for it. -/
def lockedLoad (priv : PciPriv δ) (o : Nat) : RegProg δ (BitVec 32) :=
  locked (loadReg priv .dword o)

/-- What `xp_irq_mgmt_handler` does with bit `j` of source word `i`. -/
def mgmtReport (priv : PciPriv δ) (irq : IrqPriv) (kmalloc : Nat → Bool) (i j : Nat) :
    RegProg δ (Int × List XpWork) := do
  let queue := mgmtQueue irq.mode (i * 32 + j)
  let statusReg := statusRegAddr irq.mode queue
  let intrStatus ← lockedLoad priv statusReg
  if !kmalloc 0 then pure (-enomem, [])
  else do
    let _ ← xpDevRegWrite priv [0x7] (BitVec.ofNat 32 statusReg) 1
    let _ ← xpDevRegWrite priv [1#32 <<< j]
      (BitVec.ofNat 32 (irqRegOffset .highIntrSourceReg irq.mode + i * 4)) 4
    pure (0, [irqWork irq (queueInfo irq queue intrStatus)])

/-- The outer loop of `xp_irq_mgmt_handler`. -/
def mgmtSources (priv : PciPriv δ) (irq : IrqPriv) (kmalloc : Nat → Bool) :
    List Nat → RegProg δ (Int × List XpWork)
  | [] => pure (0, [])
  | i :: rest => do
    let source ← lockedLoad priv (irqRegOffset .highIntrSourceReg irq.mode + 4 * i)
    match firstSetBit source (if i = 0 then dma0IntrStartBitPos irq.mode else 0) with
    | some j => mgmtReport priv irq kmalloc i j
    | none => mgmtSources priv irq kmalloc rest

/-- `xp_irq_mgmt_handler(priv)`. -/
def xpIrqMgmtHandler (priv : PciPriv δ) (irq : IrqPriv) (kmalloc : Nat → Bool) :
    RegProg δ (Int × List XpWork) :=
  mgmtSources priv irq kmalloc (List.range highIntrSrcRegSize)

/-- The loop that fills `reg_value`. -/
def readSummary (priv : PciPriv δ) (base : Nat) : Nat → RegProg δ (List (BitVec 32))
  | 0 => pure []
  | i + 1 => do
    let before ← readSummary priv base i
    let word ← lockedLoad priv (base + 4 * i)
    pure (before ++ [word])

/-- What a handler does with the summary words it has read. -/
def handleSummary (priv : PciPriv δ) (irq : IrqPriv) (kmalloc : Nat → Bool) (table : RegBlocks)
    (mgmtBit : Nat) (mgmtFailed failed : Int → Int) (regValue : Nat → BitVec 32) :
    RegProg δ (Int × List XpWork) :=
  if (regValue (mgmtBit / 32)).getLsbD (mgmtBit % 32) then do
    let r ← xpIrqMgmtHandler priv irq kmalloc
    pure (if r.1 < 0 then mgmtFailed r.1 else irqHandled, r.2)
  else if regValue 0 = 0 ∧ regValue 1 = 0 ∧ regValue 2 = 0 ∧ regValue 3 = 0 then
    pure (irqHandled, [])
  else
    let r := Pci.xpIrqHandler irq kmalloc table regValue
    pure (if r.1 < 0 then failed r.1 else irqHandled, r.2)

/-- `xp_msi_irq_handler_high(irq, data)`. -/
def xpMsiIrqHandlerHigh (priv : PciPriv δ) (irq : IrqPriv) (kmalloc : Nat → Bool) :
    RegProg δ (Int × List XpWork) := do
  let words ← readSummary priv (irqRegOffset .highPrioReg irq.mode) xpHpIntRegSizeInDwrd
  handleSummary priv irq kmalloc xpHpRegs 116 id (fun _ => -1) fun i => words.getD i 0

/-- `xp_msi_irq_handler_low(irq, data)`; `stale` is the word it does not read. -/
def xpMsiIrqHandlerLow (priv : PciPriv δ) (irq : IrqPriv) (kmalloc : Nat → Bool)
    (stale : BitVec 32) : RegProg δ (Int × List XpWork) := do
  let words ← readSummary priv (irqRegOffset .lowPrioReg irq.mode) xpLpIntRegSizeInDwrd
  handleSummary priv irq kmalloc xpLpRegs 83 (fun _ => -1) (fun _ => irqHandled) fun i =>
    words.getD i stale

/-! ### The ioctl -/

/-- `xp_dev_reg_access(argp, priv)`, for `PCIE_REG_CMD`: the result and the user buffer. -/
def xpDevRegAccess (priv : PciPriv δ) (kernel : AccessKernel) (pciRw : XpRegRw) (user : Image) :
    RegProg δ (Int × Image) :=
  match regRequest kernel pciRw with
  | .error rc => pure (rc, user)
  | .ok (count, regSize) =>
      if pciRw.direction = setReg then
        match copyInChunks kernel user 1 0 (u32Mul count regSize.bytes) kernel.fresh with
        | none => pure (-efault, user)
        | some tmpValue => do
          let rc ← xpDevRegWrite priv (words tmpValue count) pciRw.regAddress regSize.bytes
          if rc ≠ 0 then pure (-efault, user) else pure (rc, user)
      else if pciRw.direction = getReg then do
        let r ← xpDevRegRead priv pciRw.regAddress regSize.bytes count
        if r.1 ≠ 0 then pure (-efault, user)
        else pure (copyOutChunks kernel (putWords kernel.fresh r.2) 1 0 (u32Mul count 4) r.1 user)
      else pure (-einval, user)

/-! ### The files under `/proc` -/

/-- `xpreg_proc_write(filp, buf, bufsize, off)`: its result and `reg_rw_status`. -/
def xpregProcWrite (priv : PciPriv δ) (text : ProcText) (bufsize : Nat) (status : RegRwStatus) :
    RegProg δ (Nat × RegRwStatus) :=
  if bufsize = 0 then pure (bufsize, status)
  else
    match text with
    | .w regIndex regValue => do
      let rc ← xpDevRegWrite priv [regValue] regIndex RegSize.dword.bytes
      pure (bufsize, if rc = -einval then .writeFailed else .wrote regIndex regValue)
    | .r regIndex => do
      let r ← xpDevRegRead priv regIndex RegSize.dword.bytes 1
      pure (bufsize, if r.1 = -einval then .readFailed else .hasRead regIndex (r.2.getD 0 0))
    | .help => pure (bufsize, .help)
    | .other => pure (bufsize, .empty)

/-- The registers that have been printed, with the dwords read from each. -/
abbrev Dump := List (DmaReg × List (BitVec 32))

/-- Print a register of queue `qno`. -/
def dumpReg (priv : PciPriv δ) (dataSize qno : Nat) (out : Dump) (reg : DmaReg) :
    RegProg δ Dump := do
  let regval ← xpDevRegReadQ priv reg (List.replicate dataSize 0) qno
  pure (out ++ [(reg, regval)])

/-- The registers of `common_registers_dump`. -/
def commonRegs : List DmaReg :=
  [.mgmtCtrlReg, .coreCtrlReg1, .txDma0RetryCntReg, .dma0ClrErrCntReg, .dma0TxChainLenErrReg,
    .dma0TxCpuOwnDescErrReg, .dma0TxZeroBufLenErrReg, .dma0TxPcieErrReg, .dma0TxDmaIntfErrReg,
    .dma0TxPktDrop, .txDma0CfgReglockreg, .txDma0Scratchpad, .dma0RxChainLenErrReg,
    .dma0RxCpuOwnDescErrReg, .dma0RxZeroBufLenErrReg, .dma0RxPcieErrReg, .rxDma0CfgReglockreg,
    .rxDma0Scratchpad]

/-- `common_registers_dump(net_priv, sf)`. -/
def commonRegistersDump (priv : PciPriv δ) (out : Dump) : RegProg δ Dump :=
  commonRegs.foldlM (dumpReg priv 1 0) out

/-- One half of `queue_registers_dump`; queue `numQueues` itself passes its check. -/
def dumpQueue (priv : PciPriv δ) (numQueues qno : Nat) (cdp cmd : DmaReg) (out : Dump) :
    RegProg δ Dump :=
  if qno ≤ numQueues then do
    let out ← dumpReg priv 2 qno out cdp
    dumpReg priv 1 qno out cmd
  else pure out

/-- `queue_registers_dump(net_priv, qno, sf)`. -/
def queueRegistersDump (priv : PciPriv δ) (qno : Nat) (out : Dump) : RegProg δ Dump := do
  let out ← dumpQueue priv xpnetTxNumQueues qno .dma0TxCdpReg .dma0TxCmdReg out
  dumpQueue priv xpnetRxNumQueues qno .dma0RxCdpReg .dma0RxCmdReg out

/-- `xpnet_que_seq_show(sf, v)`, as far as it prints registers. -/
def xpnetQueSeqShow (priv : PciPriv δ) (queNo : Nat) : RegProg δ Dump := do
  let out ← commonRegistersDump priv []
  queueRegistersDump priv queNo out

/-! ### Exported functions -/

/-- `xp_pci_drv_write_reg(dev, rw_value, reg_addr, reg_size)`. -/
def xpPciDrvWriteReg (devPtr : Int → Option (PciPriv δ)) (dev : Int)
    (rwValue regAddr : BitVec 32) (regSize : Nat) : RegProg δ Int :=
  if dev ≥ maxDevSupported then pure (-1)
  else match devPtr dev with
  | none => pure (-1)
  | some priv => xpDevRegWrite priv [rwValue] regAddr regSize

/-- `xp_pci_drv_read_reg(dev, rw_value, reg_addr, reg_size)`, with what it stores to
`*rw_value`. -/
def xpPciDrvReadReg (devPtr : Int → Option (PciPriv δ)) (dev : Int) (regAddr : BitVec 32)
    (regSize : Nat) : RegProg δ (Int × List (BitVec 32)) :=
  if dev ≥ maxDevSupported then pure (-1, [])
  else match devPtr dev with
  | none => pure (-1, [])
  | some priv => xpDevRegRead priv regAddr regSize 1

/-- A device without an `xpnet` is brought up. -/
def ensureNetdev (priv : PciPriv δ) (kernel : NetdevKernel) (s : HwNetdev) :
    RegProg δ HwNetdev :=
  if s.xpnet.isNone then do
    let r ← xpNetdevInit priv kernel s
    pure r.2
  else pure s

/-- `xp_packet_send(dev, skb)` of `xp_pcie_slave.c`, on a device with its `xpnet`. -/
def packetSendOn (priv : PciPriv δ) (q : QueueRegs) (kernel : NetdevKernel) (s : HwNetdev)
    (skb : SkBuff) : RegProg δ (Int × HwNetdev) := do
  let s ← ensureNetdev priv kernel s
  if s.xpnet.isNone then pure (-1, s)
  else do
    let exit ← xpnetStartXmit priv q skb
    if exit.rc ≠ .ok then pure (-1, s) else pure (0, s)

/-- `xp_packet_send(dev, skb)` of `xp_pcie_slave.c`: its result, and the device's `xpnet`
if there is such a device. -/
def xpPacketSendDev (devPtr : Int → Option (PciPriv δ × HwNetdev)) (q : QueueRegs)
    (kernel : NetdevKernel) (dev : Int) (skb : SkBuff) : RegProg δ (Int × Option HwNetdev) :=
  if dev ≥ maxDevSupported then pure (-1, none)
  else match devPtr dev with
  | none => pure (-1, none)
  | some (priv, s) => do
    let r ← packetSendOn priv q kernel s skb
    pure (r.1, some r.2)

/-! ### Operations -/

/-- The operations that reach a device register. -/
inductive Operation (δ : Type) where
  | netdevInit (kernel : NetdevKernel) (s : HwNetdev)
  | netdevDeinit (s : HwNetdev)
  | ndoStartXmit (q : QueueRegs) (dev : Nat) (skb : SkBuff)
  | socketSend (q : QueueRegs) (dequeued : Option Datagram)
  | rxtxHandler (rxQueue : Nat → QueueRegs) (hz : Nat)
  | msiIrqHandlerHigh (irq : IrqPriv) (kmalloc : Nat → Bool)
  | msiIrqHandlerLow (irq : IrqPriv) (kmalloc : Nat → Bool) (stale : BitVec 32)
  | devRegAccess (kernel : AccessKernel) (pciRw : XpRegRw) (user : Image)
  | regProcWrite (text : ProcText) (bufsize : Nat) (status : RegRwStatus)
  | queSeqShow (queNo : Nat)
  | drvWriteReg (devPtr : Int → Option (PciPriv δ)) (dev : Int) (rwValue regAddr : BitVec 32)
      (regSize : Nat)
  | drvReadReg (devPtr : Int → Option (PciPriv δ)) (dev : Int) (regAddr : BitVec 32)
      (regSize : Nat)
  | packetSend (devPtr : Int → Option (PciPriv δ × HwNetdev)) (q : QueueRegs)
      (kernel : NetdevKernel) (dev : Int) (skb : SkBuff)

/-- The operation, without its result. -/
def Operation.prog (priv : PciPriv δ) : Operation δ → RegProg δ Unit
  | .netdevInit kernel s => do let _ ← xpNetdevInit priv kernel s
  | .netdevDeinit s => do let _ ← xpNetdevDeinit priv s
  | .ndoStartXmit q dev skb => do let _ ← xpNdoStartXmit priv q dev skb
  | .socketSend q dequeued => xpPacketSend priv q dequeued
  | .rxtxHandler rxQueue hz => do let _ ← xpnetRxtxHandler priv rxQueue hz
  | .msiIrqHandlerHigh irq kmalloc => do let _ ← xpMsiIrqHandlerHigh priv irq kmalloc
  | .msiIrqHandlerLow irq kmalloc stale => do let _ ← xpMsiIrqHandlerLow priv irq kmalloc stale
  | .devRegAccess kernel pciRw user => do let _ ← xpDevRegAccess priv kernel pciRw user
  | .regProcWrite text bufsize status => do
    let _ ← xpregProcWrite priv text bufsize status
  | .queSeqShow queNo => do let _ ← xpnetQueSeqShow priv queNo
  | .drvWriteReg devPtr dev rwValue regAddr regSize => do
    let _ ← xpPciDrvWriteReg devPtr dev rwValue regAddr regSize
  | .drvReadReg devPtr dev regAddr regSize => do
    let _ ← xpPciDrvReadReg devPtr dev regAddr regSize
  | .packetSend devPtr q kernel dev skb => do let _ ← xpPacketSendDev devPtr q kernel dev skb

/-! ### Each operation keeps the lock -/

section Keeps

variable {priv : PciPriv δ}

theorem lockedLoad_access (o : Nat) : Access false (lockedLoad priv o) :=
  (loadReg_access .dword o).locked

theorem mgmtReport_access (irq : IrqPriv) (kmalloc : Nat → Bool) (i j : Nat) :
    Access false (mgmtReport priv irq kmalloc i j) := by
  apply (lockedLoad_access _).bind
  intro intrStatus
  split
  · exact .ret
  · apply (xpDevRegWrite_access _ _ _).bind
    intro _
    exact (xpDevRegWrite_access _ _ _).bind fun _ => .ret

theorem mgmtSources_access (irq : IrqPriv) (kmalloc : Nat → Bool) (sources : List Nat) :
    Access false (mgmtSources priv irq kmalloc sources) := by
  induction sources with
  | nil => exact .ret
  | cons i rest ih =>
      apply (lockedLoad_access _).bind
      intro source
      split
      · exact mgmtReport_access irq kmalloc i _
      · exact ih

theorem readSummary_access (base count : Nat) : Access false (readSummary priv base count) := by
  induction count with
  | zero => exact .ret
  | succ i ih => exact ih.bind fun _ => (lockedLoad_access _).bind fun _ => .ret

theorem handleSummary_access (irq : IrqPriv) (kmalloc : Nat → Bool) (table : RegBlocks)
    (mgmtBit : Nat) (mgmtFailed failed : Int → Int) (regValue : Nat → BitVec 32) :
    Access false
      (handleSummary priv irq kmalloc table mgmtBit mgmtFailed failed regValue) := by
  unfold handleSummary
  split
  · exact (mgmtSources_access irq kmalloc _).bind fun _ => .ret
  · split
    · exact .ret
    · exact .ret

theorem xpDevRegAccess_access (kernel : AccessKernel) (pciRw : XpRegRw) (user : Image) :
    Access false (xpDevRegAccess priv kernel pciRw user) := by
  unfold xpDevRegAccess
  cases regRequest kernel pciRw with
  | error rc => exact .ret
  | ok shape =>
      dsimp only
      split
      · split
        · exact .ret
        · apply (xpDevRegWrite_access _ _ _).bind
          intro rc
          split
          · exact .ret
          · exact .ret
      · split
        · apply (xpDevRegRead_access _ _ _).bind
          intro r
          split
          · exact .ret
          · exact .ret
        · exact .ret

theorem xpregProcWrite_access (text : ProcText) (bufsize : Nat) (status : RegRwStatus) :
    Access false (xpregProcWrite priv text bufsize status) := by
  unfold xpregProcWrite
  split
  · exact .ret
  · cases text with
    | w regIndex regValue => exact (xpDevRegWrite_access _ _ _).bind fun _ => .ret
    | r regIndex => exact (xpDevRegRead_access _ _ _).bind fun _ => .ret
    | help => exact .ret
    | other => exact .ret

theorem dumpReg_access (dataSize qno : Nat) (out : Dump) (reg : DmaReg) :
    Access false (dumpReg priv dataSize qno out reg) :=
  (xpDevRegReadQ_access _ _ _).bind fun _ => .ret

theorem dumpQueue_access (numQueues qno : Nat) (cdp cmd : DmaReg) (out : Dump) :
    Access false (dumpQueue priv numQueues qno cdp cmd out) := by
  unfold dumpQueue
  split
  · exact (dumpReg_access _ _ _ _).bind fun _ => dumpReg_access _ _ _ _
  · exact .ret

theorem xpnetQueSeqShow_access (queNo : Nat) : Access false (xpnetQueSeqShow priv queNo) := by
  apply (Access.foldlM (fun _ _ => dumpReg_access _ _ _ _) commonRegs []).bind
  intro out
  exact (dumpQueue_access _ _ _ _ _).bind fun _ => dumpQueue_access _ _ _ _ _

theorem xpPciDrvWriteReg_access (devPtr : Int → Option (PciPriv δ)) (dev : Int)
    (rwValue regAddr : BitVec 32) (regSize : Nat) :
    Access false (xpPciDrvWriteReg devPtr dev rwValue regAddr regSize) := by
  unfold xpPciDrvWriteReg
  split
  · exact .ret
  · split
    · exact .ret
    · exact xpDevRegWrite_access _ _ _

theorem xpPciDrvReadReg_access (devPtr : Int → Option (PciPriv δ)) (dev : Int)
    (regAddr : BitVec 32) (regSize : Nat) :
    Access false (xpPciDrvReadReg devPtr dev regAddr regSize) := by
  unfold xpPciDrvReadReg
  split
  · exact .ret
  · split
    · exact .ret
    · exact xpDevRegRead_access _ _ _

theorem packetSendOn_keepsLock (q : QueueRegs) (kernel : NetdevKernel) (s : HwNetdev)
    (skb : SkBuff) : KeepsLock false (packetSendOn priv q kernel s skb) := by
  have up : KeepsLock false (ensureNetdev priv kernel s) := by
    unfold ensureNetdev
    split
    · exact (xpNetdevInit_keepsLock _ _).bind fun _ => .ret
    · exact .ret
  apply up.bind
  intro s
  split
  · exact .ret
  · apply (xpnetStartXmit_keepsLock skb).bind
    intro exit
    split
    · exact .ret
    · exact .ret

theorem xpPacketSendDev_keepsLock (devPtr : Int → Option (PciPriv δ × HwNetdev)) (q : QueueRegs)
    (kernel : NetdevKernel) (dev : Int) (skb : SkBuff) :
    KeepsLock false (xpPacketSendDev devPtr q kernel dev skb) := by
  unfold xpPacketSendDev
  split
  · exact .ret
  · split
    · exact .ret
    · exact (packetSendOn_keepsLock _ _ _ _).bind fun _ => .ret

/-- Every operation keeps the lock, started with it free. -/
theorem Operation.keepsLock (op : Operation δ) : KeepsLock false (op.prog priv) := by
  cases op with
  | netdevInit kernel s => exact (xpNetdevInit_keepsLock kernel s).bind fun _ => .ret
  | netdevDeinit s => exact (xpNetdevDeinit_keepsLock s).bind fun _ => .ret
  | ndoStartXmit q dev skb => exact (xpNdoStartXmit_keepsLock dev skb).bind fun _ => .ret
  | socketSend q dequeued => exact xpPacketSend_keepsLock dequeued
  | rxtxHandler rxQueue hz => exact (xpnetRxtxHandler_keepsLock rxQueue hz).bind fun _ => .ret
  | msiIrqHandlerHigh irq kmalloc =>
      have handler : Access false (xpMsiIrqHandlerHigh priv irq kmalloc) :=
        (readSummary_access _ _).bind fun _ => handleSummary_access irq kmalloc _ _ _ _ _
      exact handler.keepsLock.bind fun _ => .ret
  | msiIrqHandlerLow irq kmalloc stale =>
      have handler : Access false (xpMsiIrqHandlerLow priv irq kmalloc stale) :=
        (readSummary_access _ _).bind fun _ => handleSummary_access irq kmalloc _ _ _ _ _
      exact handler.keepsLock.bind fun _ => .ret
  | devRegAccess kernel pciRw user =>
      exact (xpDevRegAccess_access kernel pciRw user).keepsLock.bind fun _ => .ret
  | regProcWrite text bufsize status =>
      exact (xpregProcWrite_access text bufsize status).keepsLock.bind fun _ => .ret
  | queSeqShow queNo => exact (xpnetQueSeqShow_access queNo).keepsLock.bind fun _ => .ret
  | drvWriteReg devPtr dev rwValue regAddr regSize =>
      exact (xpPciDrvWriteReg_access devPtr dev rwValue regAddr regSize).keepsLock.bind
        fun _ => .ret
  | drvReadReg devPtr dev regAddr regSize =>
      exact (xpPciDrvReadReg_access devPtr dev regAddr regSize).keepsLock.bind fun _ => .ret
  | packetSend devPtr q kernel dev skb =>
      exact (xpPacketSendDev_keepsLock devPtr q kernel dev skb).bind fun _ => .ret

end Keeps

/-! ### What the operations do to the device -/

section Device

variable {priv : PciPriv δ}

/-- A result and what comes with it, before the device. -/
def paired (r : α × β × δ) : (α × β) × δ := ((r.1, r.2.1), r.2.2)

theorem lockedLoad_computes (o : Nat) :
    Computes (lockedLoad priv o) (priv.vma.loadU32 .dword o) := (loadReg_computes .dword o).locked

theorem mgmtReport_computes (irq : IrqPriv) (kmalloc : Nat → Bool) (i j : Nat) :
    Computes (mgmtReport priv irq kmalloc i j) fun d =>
      paired (Pci.mgmtReport priv.vma irq kmalloc i j d) := by
  intro s
  unfold mgmtReport Pci.mgmtReport
  dsimp only
  rw [Prog.exec_bind, lockedLoad_computes]
  dsimp only [Option.bind_some]
  split
  · rfl
  · rw [Prog.exec_bind, xpDevRegWrite_computes]
    dsimp only [Option.bind_some]
    rw [Prog.exec_bind, xpDevRegWrite_computes]
    rfl

theorem mgmtSources_computes (irq : IrqPriv) (kmalloc : Nat → Bool) (sources : List Nat) :
    Computes (mgmtSources priv irq kmalloc sources) fun d =>
      paired (Pci.mgmtSources priv.vma irq kmalloc sources d) := by
  induction sources with
  | nil => exact .ret (0, [])
  | cons i rest ih =>
      intro s
      unfold mgmtSources Pci.mgmtSources
      rw [Prog.exec_bind, lockedLoad_computes]
      dsimp only [Option.bind_some]
      generalize firstSetBit _ (if i = 0 then dma0IntrStartBitPos irq.mode else 0) = found
      cases found with
      | some j => exact mgmtReport_computes irq kmalloc i j _
      | none => exact ih _

theorem readSummary_computes (base count : Nat) :
    Computes (readSummary priv base count) (Pci.readSummary priv.vma base count) := by
  induction count with
  | zero => exact .ret []
  | succ i ih =>
      exact ih.bind fun before => (lockedLoad_computes _).bind fun word => .ret (before ++ [word])

theorem handleSummary_computes (irq : IrqPriv) (kmalloc : Nat → Bool) (table : RegBlocks)
    (mgmtBit : Nat) (mgmtFailed failed : Int → Int) (regValue : Nat → BitVec 32) :
    Computes (handleSummary priv irq kmalloc table mgmtBit mgmtFailed failed regValue) fun d =>
      paired (Pci.handleSummary priv.vma irq kmalloc table mgmtBit mgmtFailed failed
        regValue d) := by
  unfold handleSummary Pci.handleSummary
  split
  · exact (mgmtSources_computes irq kmalloc _).bind fun r => .ret _
  · split
    · exact .ret _
    · exact .ret _

/-- The handler does to the device what `XpNet.Pci` says, and reports the same. -/
theorem xpMsiIrqHandlerHigh_computes (irq : IrqPriv) (kmalloc : Nat → Bool) :
    Computes (xpMsiIrqHandlerHigh priv irq kmalloc) fun d =>
      paired (Pci.xpMsiIrqHandlerHigh priv.vma irq kmalloc d) :=
  (readSummary_computes _ _).bind fun _ => handleSummary_computes irq kmalloc _ _ _ _ _

theorem xpMsiIrqHandlerLow_computes (irq : IrqPriv) (kmalloc : Nat → Bool)
    (stale : BitVec 32) :
    Computes (xpMsiIrqHandlerLow priv irq kmalloc stale) fun d =>
      paired (Pci.xpMsiIrqHandlerLow priv.vma irq kmalloc stale d) :=
  (readSummary_computes _ _).bind fun _ => handleSummary_computes irq kmalloc _ _ _ _ _

/-- The ioctl does to the device what `XpNet.Pci` says, and answers the same. -/
theorem xpDevRegAccess_computes (kernel : AccessKernel) (pciRw : XpRegRw) (user : Image) :
    Computes (xpDevRegAccess priv kernel pciRw user) fun d =>
      paired (Pci.xpDevRegAccess priv.vma kernel pciRw user d) := by
  intro s
  unfold xpDevRegAccess Pci.xpDevRegAccess
  cases regRequest kernel pciRw with
  | error rc => rfl
  | ok shape =>
      dsimp only
      split
      · cases copyInChunks kernel user 1 0 (u32Mul shape.1 shape.2.bytes) kernel.fresh with
        | none => rfl
        | some tmpValue =>
            dsimp only
            rw [Prog.exec_bind, xpDevRegWrite_computes]
            dsimp only [Option.bind_some]
            split
            · rfl
            · rfl
      · split
        · rw [Prog.exec_bind, xpDevRegRead_computes]
          dsimp only [Option.bind_some]
          split
          · rfl
          · rfl
        · rfl

/-- So does a write to the file under `/proc`. -/
theorem xpregProcWrite_computes (text : ProcText) (bufsize : Nat) (status : RegRwStatus) :
    Computes (xpregProcWrite priv text bufsize status) fun d =>
      paired (Pci.xpregProcWrite priv.vma text bufsize status d) := by
  unfold xpregProcWrite Pci.xpregProcWrite
  split
  · exact .ret _
  · cases text with
    | w regIndex regValue => exact (xpDevRegWrite_computes _ _ _).bind fun _ => .ret _
    | r regIndex => exact (xpDevRegRead_computes _ _ _).bind fun _ => .ret _
    | help => exact .ret _
    | other => exact .ret _

section Exported

variable {devPtr : Int → Option (PciPriv δ)} {dev : Int}
  (here : ∀ bound, devPtr dev = some bound → bound = priv)

include here

/-- So do the exported functions, called with a number of the device or of none. -/
theorem xpPciDrvWriteReg_computes (rwValue regAddr : BitVec 32) (regSize : Nat) :
    Computes (xpPciDrvWriteReg devPtr dev rwValue regAddr regSize)
      (Pci.xpPciDrvWriteReg priv.vma (fun dev => (devPtr dev).isSome) dev rwValue regAddr
        regSize) := by
  unfold xpPciDrvWriteReg Pci.xpPciDrvWriteReg
  split
  · exact .ret _
  · cases hdev : devPtr dev with
    | none =>
        simp only [hdev, Option.isSome_none, Bool.not_false, if_true]
        exact .ret _
    | some bound =>
        obtain rfl := here bound hdev
        simp only [hdev, Option.isSome_some, Bool.not_true, Bool.false_eq_true, if_false]
        exact xpDevRegWrite_computes _ _ _

theorem xpPciDrvReadReg_computes (regAddr : BitVec 32) (regSize : Nat) :
    Computes (xpPciDrvReadReg devPtr dev regAddr regSize) fun d =>
      paired (Pci.xpPciDrvReadReg priv.vma (fun dev => (devPtr dev).isSome) dev regAddr
        regSize d) := by
  unfold xpPciDrvReadReg Pci.xpPciDrvReadReg
  split
  · exact .ret _
  · cases hdev : devPtr dev with
    | none =>
        simp only [hdev, Option.isSome_none, Bool.not_false, if_true]
        exact .ret _
    | some bound =>
        obtain rfl := here bound hdev
        simp only [hdev, Option.isSome_some, Bool.not_true, Bool.false_eq_true, if_false]
        exact xpDevRegRead_computes _ _ _

end Exported

end Device

/-! ### Runs -/

/-- The thread has taken the lock and not given it back. -/
def lockHeld (tr : List (World δ × Ev)) : Bool :=
  tr.foldl (fun held x => match x.2 with
    | .acquire => true
    | .release => false
    | _ => held) false

theorem lockHeld_eq (tr : List (World δ × Ev)) : lockHeld tr = lockAfter Ev.lockUse false tr := by
  unfold lockHeld lockAfter
  congr 1
  funext held x
  cases x.2 with
  | _ => rfl

/-- In every run, with any other threads and any device beside it: a load or a store is
made with the lock held; the lock is taken only by who does not hold it, and given back
only by who does; a call with `aflags` has `XPNET_AFLAG_ACQLOCK` set exactly if the lock
is free; and the lock is free on return. -/
structure UsesLock (p₀ : RegProg δ α) : Prop where
  load : ∀ {rely s₀ p s tr w o}, Reach rely (fun _ _ => True) p₀ s₀ p s tr →
    p.label? = some (.load w o) → lockHeld tr = true
  store : ∀ {rely s₀ p s tr o v}, Reach rely (fun _ _ => True) p₀ s₀ p s tr →
    p.label? = some (.store o v) → lockHeld tr = true
  acquire : ∀ {rely s₀ p s tr}, Reach rely (fun _ _ => True) p₀ s₀ p s tr →
    p.label? = some .acquire → lockHeld tr = false
  release : ∀ {rely s₀ p s tr}, Reach rely (fun _ _ => True) p₀ s₀ p s tr →
    p.label? = some .release → lockHeld tr = true
  flagged : ∀ {rely s₀ p s tr acqlock}, Reach rely (fun _ _ => True) p₀ s₀ p s tr →
    p.label? = some (.flagged acqlock) → acqlock = !lockHeld tr
  returns : ∀ {rely s₀ a s tr}, Reach rely (fun _ _ => True) p₀ s₀ (.ret a) s tr →
    lockHeld tr = false

/-- A program that keeps the lock uses it well in every run. -/
theorem KeepsLock.usesLock {p₀ : RegProg δ α} (keeps : KeepsLock false p₀) : UsesLock p₀ := by
  constructor
  · intro rely s₀ p s tr w o run label
    rw [lockHeld_eq]
    exact run.lock_next keeps label
  · intro rely s₀ p s tr o v run label
    rw [lockHeld_eq]
    exact run.lock_next keeps label
  · intro rely s₀ p s tr run label
    rw [lockHeld_eq]
    exact run.lock_next keeps label
  · intro rely s₀ p s tr run label
    rw [lockHeld_eq]
    exact run.lock_next keeps label
  · intro rely s₀ p s tr acqlock run label
    have agrees : lockAfter Ev.lockUse false tr = !acqlock := run.lock_next keeps label
    rw [lockHeld_eq, agrees, Bool.not_not]
  · intro rely s₀ a s tr run
    rw [lockHeld_eq]
    exact run.lock_ret keeps

/-- **Register locking.** Every operation that reaches a device register uses
`tx_dma_read_lock` well. -/
theorem operations_useLock (priv : PciPriv δ) (op : Operation δ) : UsesLock (op.prog priv) :=
  op.keepsLock.usesLock

example (priv : PciPriv δ) (regIndex : BitVec 32) :
    ((Operation.regProcWrite (.r regIndex) 5 .empty).prog priv).label? = some .acquire := rfl

end XpNet.Regs

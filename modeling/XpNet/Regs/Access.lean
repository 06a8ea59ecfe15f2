/-
Every way the driver reaches a device register, access by access, with the lock
`tx_dma_read_lock` around it or without.

`xp_dev_reg_read` and `xp_dev_reg_write` take the lock themselves. The variants of
`xp_netdev_core.c` that begin with two underscores do not, and are for a caller that
holds it. `xpnet_set_q_cdp` and `xpnet_queue_en_dis` choose between the two kinds by the
flag `XPNET_AFLAG_ACQLOCK`.

`KeepsLock held p` says that `p`, entered with the lock in state `held`, accesses
registers with the lock held only, never takes it twice and returns with it in state
`held`. A function with the flag does so when the flag is set exactly if the lock is free
(`xpnetSetQCdp_access`, `xpnetQueueEnDis_access`). What the functions do to the device is the
same with and without the lock (`xpnetSetQCdp_computes`).
-/

import XpNet.Interference.Locking
import XpNet.Pci.Regs
import XpNet.Rx.Model
import XpNet.Tx.Model

namespace XpNet.Regs

open XpNet.Interference
open XpNet.Intf (einval)
open XpNet.Pci (Registers RegSize)

/-! ### State and actions -/

/-- `xp_private_t`: the registers behind `vma`, and `mode`. -/
structure PciPriv (δ : Type) where
  vma : Registers δ
  mode : AddressMode

/-- The device, the transmit queue with all that the transmit path uses, the receive
queues, and `jiffies_defer`. -/
structure World (δ : Type) where
  dev : δ
  tx : Tx.State
  rx : Nat → Rx.State
  jiffiesDefer : Nat

/-- What an action of the code does, as far as the registers and their lock are
concerned. -/
inductive Ev where
  /-- Neither touches a register nor the lock. -/
  | priv
  | acquire
  | release
  | load (w : RegSize) (o : Nat)
  | store (o : Nat) (v : BitVec 32)
  /-- A call of a function with `aflags`, and whether they have `XPNET_AFLAG_ACQLOCK`. -/
  | flagged (acqlock : Bool)
  deriving DecidableEq

/-- What an action does with `tx_dma_read_lock`. A function that is told to take the lock
needs it to be free, and one that is told not to needs it to be held. -/
def Ev.lockUse : Ev → LockUse
  | .priv => .untouched
  | .acquire => .acquire
  | .release => .release
  | .load _ _ | .store _ _ => .needs true
  | .flagged acqlock => .needs (!acqlock)

abbrev RegProg (δ : Type) := Prog (World δ) Ev

variable {δ α β : Type}

/-- Entered with the lock in state `held`, the program uses it well and returns with it
as it was. -/
abbrev KeepsLock (held : Bool) (p : RegProg δ α) : Prop := Locking Ev.lockUse p held held

/-! ### Single accesses -/

/-- A load from `priv->vma`, extended to a `u32`. -/
def loadReg (priv : PciPriv δ) (w : RegSize) (o : Nat) : RegProg δ (BitVec 32) :=
  .act (.load w o) (fun s => { s with dev := (priv.vma.loadU32 w o s.dev).2 }) fun s =>
    .ret (priv.vma.loadU32 w o s.dev).1

/-- A store to `priv->vma`. -/
def storeReg (priv : PciPriv δ) (o : Nat) (v : BitVec 32) : RegProg δ Unit :=
  Prog.write (.store o v) fun s => { s with dev := priv.vma.store o v s.dev }

/-- A section between `spin_lock_irqsave(&priv->tx_dma_read_lock, flags)` and
`spin_unlock_irqrestore`. -/
def locked (p : RegProg δ α) : RegProg δ α := do
  Prog.emit .acquire
  let a ← p
  Prog.emit .release
  pure a

/-! ### `xp_dev_reg_read` and `xp_dev_reg_write` -/

/-- The loop of `xp_dev_reg_read`. -/
def loadLoop (priv : PciPriv δ) (w : RegSize) : Nat → BitVec 32 → RegProg δ (List (BitVec 32))
  | 0, _ => pure []
  | count + 1, regAddr => do
    let v ← loadReg priv w regAddr.toNat
    let rest ← loadLoop priv w count (regAddr + BitVec.ofNat 32 w.bytes)
    pure (v :: rest)

/-- One step of the loop of `xp_dev_reg_write`: bytes and words are put in a dword. -/
def storeStep (priv : PciPriv δ) (w : RegSize) (o : Nat) (v : BitVec 32) : RegProg δ Unit :=
  match w with
  | .byte => do
    let value ← loadReg priv .dword o
    storeReg priv o ((value &&& ~~~0xFF#32) ||| (v &&& 0xFF#32))
  | .word => do
    let value ← loadReg priv .dword o
    storeReg priv o ((value &&& ~~~0xFFFF#32) ||| (v &&& 0xFFFF#32))
  | .dword => storeReg priv o v

/-- The loop of `xp_dev_reg_write` over the elements of `rw_value`. -/
def storeLoop (priv : PciPriv δ) (w : RegSize) : List (BitVec 32) → BitVec 32 → RegProg δ Unit
  | [], _ => pure ()
  | v :: vs, regAddr => do
    storeStep priv w regAddr.toNat v
    storeLoop priv w vs (regAddr + BitVec.ofNat 32 w.bytes)

/-- `xp_dev_reg_read(rw_value, reg_addr, reg_size, priv, count)`: the result and the
elements it fills of `rw_value`. -/
def xpDevRegRead (priv : PciPriv δ) (regAddr : BitVec 32) (regSize count : Nat) :
    RegProg δ (Int × List (BitVec 32)) :=
  locked (match RegSize.ofNat? regSize with
    | some w => do
      let vs ← loadLoop priv w count regAddr
      pure (0, vs)
    | none => pure (-einval, []))

/-- `xp_dev_reg_write(rw_value, reg_addr, reg_size, priv, count)`. -/
def xpDevRegWrite (priv : PciPriv δ) (rwValue : List (BitVec 32)) (regAddr : BitVec 32)
    (regSize : Nat) : RegProg δ Int :=
  locked (match RegSize.ofNat? regSize with
    | some w => do
      storeLoop priv w rwValue regAddr
      pure 0
    | none => pure (-einval))

/-! ### The accesses of `xp_netdev_core.c` -/

/-- The registers of `xp_regs_list` that the DMA queues and their dump use. -/
inductive DmaReg where
  | dma0RxCdpReg
  | dma0TxCdpReg
  | dma0RxCmdReg
  | dma0TxCmdReg
  | coreCtrlReg1
  | txDma0RetryCntReg
  | mgmtCtrlReg
  | dma0ClrErrCntReg
  | dma0TxChainLenErrReg
  | dma0TxCpuOwnDescErrReg
  | dma0TxZeroBufLenErrReg
  | dma0TxPcieErrReg
  | dma0TxDmaIntfErrReg
  | dma0TxPktDrop
  | txDma0CfgReglockreg
  | txDma0Scratchpad
  | dma0RxChainLenErrReg
  | dma0RxCpuOwnDescErrReg
  | dma0RxZeroBufLenErrReg
  | dma0RxPcieErrReg
  | rxDma0CfgReglockreg
  | rxDma0Scratchpad
  deriving DecidableEq, Repr

/-- A row of `xp_regs_list`: A0 uncompressed, B0 uncompressed, B0 compressed. -/
def DmaReg.row : DmaReg → BitVec 32 × BitVec 32 × BitVec 32
  | .dma0RxCdpReg => (0x08b51400, 0x08b51400, 0x02750000)
  | .dma0TxCdpReg => (0x08b51000, 0x08b51000, 0x0274c000)
  | .dma0RxCmdReg => (0x08b51600, 0x08b51600, 0x02750200)
  | .dma0TxCmdReg => (0x08b51200, 0x08b51200, 0x0274c200)
  | .coreCtrlReg1 => (0x08a80168, 0x08a8028c, 0x025e828c)
  | .txDma0RetryCntReg => (0x08a802dc, 0x08a80444, 0x025e8444)
  | .mgmtCtrlReg => (0x08a801a8, 0x08a802f4, 0x025e82f4)
  | .dma0ClrErrCntReg => (0x08b51300, 0x08b51300, 0x0274c300)
  | .dma0TxChainLenErrReg => (0x08b51304, 0x08b51304, 0x0274c304)
  | .dma0TxCpuOwnDescErrReg => (0x08b51308, 0x08b51308, 0x0274c308)
  | .dma0TxZeroBufLenErrReg => (0x08b5130c, 0x08b5130c, 0x0274c30c)
  | .dma0TxPcieErrReg => (0x08b51310, 0x08b51310, 0x0274c310)
  | .dma0TxDmaIntfErrReg => (0x08b51314, 0x08b51314, 0x0274c314)
  | .dma0TxPktDrop => (0x08b51318, 0x08b51318, 0x0274c318)
  | .txDma0CfgReglockreg => (0x08b5131c, 0x08b51328, 0x0274c328)
  | .txDma0Scratchpad => (0x08b51320, 0x08b5132c, 0x0274c32c)
  | .dma0RxChainLenErrReg => (0x08b51700, 0x08b51700, 0x02750300)
  | .dma0RxCpuOwnDescErrReg => (0x08b51704, 0x08b51704, 0x02750304)
  | .dma0RxZeroBufLenErrReg => (0x08b51708, 0x08b51708, 0x02750308)
  | .dma0RxPcieErrReg => (0x08b5170c, 0x08b5170c, 0x0275030c)
  | .rxDma0CfgReglockreg => (0x08b51710, 0x08b5171c, 0x0275031c)
  | .rxDma0Scratchpad => (0x08b51714, 0x08b51720, 0x02750320)

/-- `XP_GET_PCI_BASE_OFFSET_FROM_REG_NAME(reg, mode)`. -/
def DmaReg.offset (reg : DmaReg) : AddressMode → BitVec 32
  | .a0Uncompressed => reg.row.1
  | .b0Uncompressed => reg.row.2.1
  | .b0Compressed => reg.row.2.2

/-- `XP_GET_DMA_Q_REG_OFFSET`, of an access of `dataSize` dwords. -/
def dmaQRegOffset (priv : PciPriv δ) (reg : DmaReg) (dataSize qnum : Nat) : BitVec 32 :=
  reg.offset priv.mode + BitVec.ofNat 32 (qnum * dataSize * 4)

/-- `__xp_dev_reg_read(rw_value, reg_addr, reg_size, priv)`: the result, and what
`*rw_value` then is. -/
def xpDevRegReadNoLock (priv : PciPriv δ) (rwValue regAddr : BitVec 32) (regSize : Nat) :
    RegProg δ (Int × BitVec 32) :=
  if RegSize.dword.bytes ≠ regSize then pure (-einval, rwValue)
  else do
    let v ← loadReg priv .dword regAddr.toNat
    pure (0, v)

/-- `__xp_dev_reg_write(rw_value, reg_addr, reg_size, priv)`. -/
def xpDevRegWriteNoLock (priv : PciPriv δ) (rwValue regAddr : BitVec 32) (regSize : Nat) :
    RegProg δ Int :=
  if RegSize.dword.bytes ≠ regSize then pure (-einval)
  else do
    storeReg priv regAddr.toNat rwValue
    pure 0

/-- The loop of `__xp_dev_reg_read_q` over the elements of `value`. -/
def readEachNoLock (priv : PciPriv δ) :
    List (BitVec 32) → BitVec 32 → RegProg δ (List (BitVec 32))
  | [], _ => pure []
  | v :: vs, regAddr => do
    let r ← xpDevRegReadNoLock priv v regAddr 4
    let rest ← readEachNoLock priv vs (regAddr + 4#32)
    pure (r.2 :: rest)

/-- The loop of `__xp_dev_write_q` over the elements of `value`. -/
def writeEachNoLock (priv : PciPriv δ) : List (BitVec 32) → BitVec 32 → RegProg δ Unit
  | [], _ => pure ()
  | v :: vs, regAddr => do
    let _ ← xpDevRegWriteNoLock priv v regAddr 4
    writeEachNoLock priv vs (regAddr + 4#32)

/-- `__xp_dev_reg_read_q(net_priv, reg_id, data_size, value, qnum)`, of the first
`data_size` elements of `value`. -/
def xpDevRegReadQNoLock (priv : PciPriv δ) (reg : DmaReg) (value : List (BitVec 32))
    (qnum : Nat) : RegProg δ (List (BitVec 32)) :=
  readEachNoLock priv value (dmaQRegOffset priv reg value.length qnum)

/-- `__xp_dev_write_q(net_priv, reg_id, data_size, value, qnum)`. -/
def xpDevWriteQNoLock (priv : PciPriv δ) (reg : DmaReg) (value : List (BitVec 32))
    (qnum : Nat) : RegProg δ Unit :=
  writeEachNoLock priv value (dmaQRegOffset priv reg value.length qnum)

/-- `xp_dev_reg_read_q(net_priv, reg_id, data_size, value, qnum)`. -/
def xpDevRegReadQ (priv : PciPriv δ) (reg : DmaReg) (value : List (BitVec 32)) (qnum : Nat) :
    RegProg δ (List (BitVec 32)) := do
  let r ← xpDevRegRead priv (dmaQRegOffset priv reg value.length qnum) 4 value.length
  pure r.2

/-- `xp_dev_reg_write_q(net_priv, reg_id, data_size, value, qnum)`. -/
def xpDevRegWriteQ (priv : PciPriv δ) (reg : DmaReg) (value : List (BitVec 32)) (qnum : Nat) :
    RegProg δ Unit := do
  let _ ← xpDevRegWrite priv value (dmaQRegOffset priv reg value.length qnum) 4
  pure ()

/-! ### Queue registers -/

/-- `XPNET_QUEUE_TYPE_RX` and `XPNET_QUEUE_TYPE_TX`. -/
inductive QueueType where
  | rx
  | tx
  deriving DecidableEq, Repr

/-- What the functions below read of `xpnet_queue_struct_t`. `xpqType` is `none` until it
is set. -/
structure QueueRegs where
  xpqId : Nat
  xpqType : Option QueueType
  dma : Nat

/-- `XPNET_AFLAG_ACQLOCK`. -/
def xpnetAflagAcqlock : BitVec 8 := 0x1

/-- `aflags & XPNET_AFLAG_ACQLOCK`. -/
def acqlock (aflags : BitVec 8) : Bool := aflags &&& xpnetAflagAcqlock != 0

/-- The flag agrees with a free lock. -/
theorem acqlock_agrees : acqlock xpnetAflagAcqlock = !false := rfl

/-- No flag agrees with a lock that is held. -/
theorem noflag_agrees : acqlock 0 = !true := rfl

/-- The two dwords of a `u64`. -/
def u64Words (v : BitVec 64) : List (BitVec 32) := [v.setWidth 32, (v >>> 32).setWidth 32]

/-- What is TX for the host is RX for the device. -/
def cdpReg (q : QueueRegs) : DmaReg :=
  if q.xpqType = some .tx then .dma0RxCdpReg else .dma0TxCdpReg

def cmdReg (q : QueueRegs) : DmaReg :=
  if q.xpqType = some .tx then .dma0RxCmdReg else .dma0TxCmdReg

/-- `base_cdp` of `xpnet_set_q_cdp`. -/
def baseCdp (q : QueueRegs) (idx : Nat) : BitVec 64 := BitVec.ofNat 64 (q.dma + idx * xpnetDescSize)

/-- The reads that `aflags` choose: the one that takes the lock, or the one that does not. -/
def readFn (priv : PciPriv δ) (aflags : BitVec 8) (reg : DmaReg) (value : List (BitVec 32))
    (qnum : Nat) : RegProg δ (List (BitVec 32)) :=
  if acqlock aflags then xpDevRegReadQ priv reg value qnum
  else xpDevRegReadQNoLock priv reg value qnum

/-- The writes that `aflags` choose. -/
def writeFn (priv : PciPriv δ) (aflags : BitVec 8) (reg : DmaReg) (value : List (BitVec 32))
    (qnum : Nat) : RegProg δ Unit :=
  if acqlock aflags then xpDevRegWriteQ priv reg value qnum
  else xpDevWriteQNoLock priv reg value qnum

/-- `xpnet_set_q_cdp(net_priv, q, idx, aflags)`. -/
def xpnetSetQCdp (priv : PciPriv δ) (q : QueueRegs) (idx : Nat) (aflags : BitVec 8) :
    RegProg δ Unit := do
  Prog.emit (.flagged (acqlock aflags))
  writeFn priv aflags (cdpReg q) (u64Words (baseCdp q idx)) q.xpqId

/-- The value `xpnet_queue_en_dis` writes, from the one it has read. -/
def cmdValue (regval : BitVec 32) (enable prio : BitVec 8) : BitVec 32 :=
  let prio := if prio.toNat > 7 then (regval &&& 7#32).setWidth 8 else prio
  (if enable ≠ 0 then 0x8#8 ||| prio else prio).setWidth 32

/-- `xpnet_queue_en_dis(net_priv, q, enable, prio, aflags)`. -/
def xpnetQueueEnDis (priv : PciPriv δ) (q : QueueRegs) (enable prio aflags : BitVec 8) :
    RegProg δ Unit := do
  Prog.emit (.flagged (acqlock aflags))
  -- `regval` has no value before the read
  let regval ← readFn priv aflags (cmdReg q) [0] q.xpqId
  writeFn priv aflags (cmdReg q) [cmdValue (regval.getD 0 0) enable prio] q.xpqId

/-- `xpnet_program_mux_setdma(net_priv, flag)`. -/
def xpnetProgramMuxSetdma (priv : PciPriv δ) (flag : Nat) : RegProg δ Unit := do
  let regval ← xpDevRegReadQ priv .mgmtCtrlReg [0] 0
  let regval := regval.getD 0 0
  let regval := if flag ≠ 0 then regval ||| (1#32 <<< 3) else regval &&& ~~~(1#32 <<< 3)
  xpDevRegWriteQ priv .mgmtCtrlReg [regval] 0
  let _ ← xpDevRegReadQ priv .mgmtCtrlReg [regval] 0
  pure ()

/-! ### Accesses and the lock -/

/-- Code that, entered with the lock in state `held`, keeps it and changes nothing but
the device. -/
structure Access (held : Bool) (p : RegProg δ α) : Prop where
  keepsLock : KeepsLock held p
  device : Always (fun _ u => ∀ s : World δ, ∃ d, u s = { s with dev := d }) p

section Lock

variable {priv : PciPriv δ} {held : Bool}

theorem Access.ret {a : α} : Access (δ := δ) held (.ret a) := ⟨.ret, trivial⟩

theorem Access.bind {p : RegProg δ α} {f : α → RegProg δ β} (first : Access held p)
    (second : ∀ a, Access held (f a)) : Access held (p >>= f) where
  keepsLock := first.keepsLock.bind fun a => (second a).keepsLock
  device := first.device.bind fun a => (second a).device

theorem Access.foldlM {f : β → α → RegProg δ β} (round : ∀ b a, Access held (f b a))
    (as : List α) (b : β) : Access held (as.foldlM f b) := by
  induction as generalizing b with
  | nil => exact .ret
  | cons a rest ih => exact (round b a).bind ih

theorem Access.forM {f : α → RegProg δ PUnit} (round : ∀ a, Access held (f a)) (as : List α) :
    Access held (as.forM f) := by
  induction as with
  | nil => exact .ret
  | cons a rest ih => exact (round a).bind fun _ => ih

theorem loadReg_access (w : RegSize) (o : Nat) : Access true (loadReg priv w o) where
  keepsLock := .act rfl rfl fun _ => .ret
  device := ⟨fun _ => ⟨_, rfl⟩, fun _ => trivial⟩

theorem storeReg_access (o : Nat) (v : BitVec 32) : Access true (storeReg priv o v) where
  keepsLock := .act rfl rfl fun _ => .ret
  device := ⟨fun _ => ⟨_, rfl⟩, fun _ => trivial⟩

theorem Access.emit_device (ev : Ev) :
    Always (fun _ u => ∀ s : World δ, ∃ d, u s = { s with dev := d })
      (Prog.emit ev : RegProg δ Unit) :=
  ⟨fun s => ⟨s.dev, rfl⟩, fun _ => trivial⟩

theorem Access.locked {p : RegProg δ α} (inside : Access true p) : Access false (locked p) where
  keepsLock := Locking.critical rfl rfl inside.keepsLock
  device := (emit_device .acquire).bind fun _ => inside.device.bind fun _ =>
    (emit_device .release).bind fun _ => trivial

/-- A call whose flags agree with the lock. -/
theorem Access.flagged {aflags : BitVec 8} (agrees : acqlock aflags = !held) {p : RegProg δ α}
    (rest : Access held p) :
    Access held (Prog.emit (.flagged (acqlock aflags)) >>= fun _ => p) where
  keepsLock := by
    refine .act ?_ rfl fun _ => rest.keepsLock
    change held = !acqlock aflags
    rw [agrees, Bool.not_not]
  device := (emit_device _).bind fun _ => rest.device

theorem loadLoop_access (w : RegSize) (count : Nat) (regAddr : BitVec 32) :
    Access true (loadLoop priv w count regAddr) := by
  induction count generalizing regAddr with
  | zero => exact .ret
  | succ count ih => exact (loadReg_access w _).bind fun v => (ih _).bind fun rest => .ret

theorem storeStep_access (w : RegSize) (o : Nat) (v : BitVec 32) :
    Access true (storeStep priv w o v) := by
  cases w with
  | byte => exact (loadReg_access _ o).bind fun _ => storeReg_access o _
  | word => exact (loadReg_access _ o).bind fun _ => storeReg_access o _
  | dword => exact storeReg_access o v

theorem storeLoop_access (w : RegSize) (vs : List (BitVec 32)) (regAddr : BitVec 32) :
    Access true (storeLoop priv w vs regAddr) := by
  induction vs generalizing regAddr with
  | nil => exact .ret
  | cons v vs ih => exact (storeStep_access w _ v).bind fun _ => ih _

theorem xpDevRegRead_access (regAddr : BitVec 32) (regSize count : Nat) :
    Access false (xpDevRegRead priv regAddr regSize count) := by
  apply Access.locked
  cases RegSize.ofNat? regSize with
  | some w => exact (loadLoop_access w count regAddr).bind fun vs => .ret
  | none => exact .ret

theorem xpDevRegWrite_access (rwValue : List (BitVec 32)) (regAddr : BitVec 32)
    (regSize : Nat) : Access false (xpDevRegWrite priv rwValue regAddr regSize) := by
  apply Access.locked
  cases RegSize.ofNat? regSize with
  | some w => exact (storeLoop_access w rwValue regAddr).bind fun _ => .ret
  | none => exact .ret

theorem readEachNoLock_access (vs : List (BitVec 32)) (regAddr : BitVec 32) :
    Access true (readEachNoLock priv vs regAddr) := by
  induction vs generalizing regAddr with
  | nil => exact .ret
  | cons v vs ih =>
      have one : Access true (xpDevRegReadNoLock priv v regAddr 4) :=
        (loadReg_access _ _).bind fun _ => .ret
      exact one.bind fun r => (ih _).bind fun rest => .ret

theorem writeEachNoLock_access (vs : List (BitVec 32)) (regAddr : BitVec 32) :
    Access true (writeEachNoLock priv vs regAddr) := by
  induction vs generalizing regAddr with
  | nil => exact .ret
  | cons v vs ih =>
      have one : Access true (xpDevRegWriteNoLock priv v regAddr 4) :=
        (storeReg_access _ _).bind fun _ => .ret
      exact one.bind fun r => ih _

theorem xpDevRegReadQ_access (reg : DmaReg) (value : List (BitVec 32)) (qnum : Nat) :
    Access false (xpDevRegReadQ priv reg value qnum) :=
  (xpDevRegRead_access _ 4 _).bind fun _ => .ret

theorem xpDevRegWriteQ_access (reg : DmaReg) (value : List (BitVec 32)) (qnum : Nat) :
    Access false (xpDevRegWriteQ priv reg value qnum) :=
  (xpDevRegWrite_access value _ 4).bind fun _ => .ret

/-- Flags that agree with the lock choose the read that is right for it. -/
theorem readFn_access {aflags : BitVec 8} (agrees : acqlock aflags = !held)
    (reg : DmaReg) (value : List (BitVec 32)) (qnum : Nat) :
    Access held (readFn priv aflags reg value qnum) := by
  unfold readFn
  rw [agrees]
  cases held with
  | false => exact xpDevRegReadQ_access reg value qnum
  | true => exact readEachNoLock_access value _

theorem writeFn_access {aflags : BitVec 8} (agrees : acqlock aflags = !held)
    (reg : DmaReg) (value : List (BitVec 32)) (qnum : Nat) :
    Access held (writeFn priv aflags reg value qnum) := by
  unfold writeFn
  rw [agrees]
  cases held with
  | false => exact xpDevRegWriteQ_access reg value qnum
  | true => exact writeEachNoLock_access value _

/-- A choice between code that needs the lock free and code that needs it held. -/
theorem keepsLock_choice_iff {flag : Bool} {p q : RegProg δ α} (takes : KeepsLock false p)
    (leaves : KeepsLock true q) (needsFree : ∀ held, KeepsLock held p → held = false)
    (needsHeld : ∀ held, KeepsLock held q → held = true) :
    KeepsLock held (if flag then p else q) ↔ flag = !held := by
  cases flag with
  | true =>
      constructor
      · intro keeps
        rw [needsFree held keeps]
        rfl
      · intro agrees
        cases held with
        | false => exact takes
        | true => cases agrees
  | false =>
      constructor
      · intro keeps
        rw [needsHeld held keeps]
        rfl
      · intro agrees
        cases held with
        | false => cases agrees
        | true => exact leaves

/-- Any other flags are a self-deadlock, or a load without the lock. -/
theorem readFn_keepsLock_iff {aflags : BitVec 8} {reg : DmaReg} {v : BitVec 32}
    {vs : List (BitVec 32)} {qnum : Nat} :
    KeepsLock held (readFn priv aflags reg (v :: vs) qnum) ↔ acqlock aflags = !held :=
  keepsLock_choice_iff (xpDevRegReadQ_access _ _ _).keepsLock
    (readEachNoLock_access _ _).keepsLock (fun _ keeps => keeps.1) fun _ keeps => keeps.1

/-- Any other flags are a self-deadlock, or a store without the lock. -/
theorem writeFn_keepsLock_iff {aflags : BitVec 8} {reg : DmaReg} {v : BitVec 32}
    {vs : List (BitVec 32)} {qnum : Nat} :
    KeepsLock held (writeFn priv aflags reg (v :: vs) qnum) ↔ acqlock aflags = !held :=
  keepsLock_choice_iff (xpDevRegWriteQ_access _ _ _).keepsLock
    (writeEachNoLock_access _ _).keepsLock (fun _ keeps => keeps.1) fun _ keeps => keeps.1

/-- `xpnet_set_q_cdp` keeps the lock if it is told to take it exactly when it is free. -/
theorem xpnetSetQCdp_access {aflags : BitVec 8} (agrees : acqlock aflags = !held)
    (q : QueueRegs) (idx : Nat) : Access held (xpnetSetQCdp priv q idx aflags) :=
  .flagged agrees (writeFn_access agrees _ _ _)

theorem xpnetQueueEnDis_access {aflags : BitVec 8} (agrees : acqlock aflags = !held)
    (q : QueueRegs) (enable prio : BitVec 8) :
    Access held (xpnetQueueEnDis priv q enable prio aflags) :=
  .flagged agrees ((readFn_access agrees _ _ _).bind fun _ => writeFn_access agrees _ _ _)

theorem xpnetProgramMuxSetdma_access (flag : Nat) :
    Access false (xpnetProgramMuxSetdma priv flag) :=
  (xpDevRegReadQ_access _ _ _).bind fun _ =>
    (xpDevRegWriteQ_access _ _ _).bind fun _ =>
      (xpDevRegReadQ_access _ _ _).bind fun _ => .ret

/-- An access does nothing to a part of the state that the device does not belong to. -/
theorem Access.alone {τ : Type} {get : World δ → τ} {p : RegProg δ α} (access : Access held p)
    (apart : ∀ (s : World δ) d, get { s with dev := d } = get s) :
    Always (fun _ u => ∀ s, get (u s) = get s) p := by
  apply access.device.mono
  intro _ u device s
  obtain ⟨d, same⟩ := device s
  rw [same, apart]

end Lock

/-! ### What the accesses do to the device -/

/-- Run on its own, the program does `f` to the device and leaves the rest alone. -/
def Computes (p : RegProg δ α) (f : δ → α × δ) : Prop :=
  ∀ s : World δ, p.exec s = some ((f s.dev).1, { s with dev := (f s.dev).2 })

section Device

variable {priv : PciPriv δ}

theorem Computes.ret (a : α) : Computes (δ := δ) (.ret a) fun d => (a, d) := fun _ => rfl

theorem Computes.bind {p : RegProg δ α} {f : δ → α × δ} {g : α → RegProg δ β}
    {h : α → δ → β × δ} (first : Computes p f) (second : ∀ a, Computes (g a) (h a)) :
    Computes (p >>= g) fun d => h (f d).1 (f d).2 := by
  intro s
  rw [Prog.exec_bind, first s]
  exact second _ _

theorem Computes.emit {p : RegProg δ α} {f : δ → α × δ} (ev : Ev) (rest : Computes p f) :
    Computes (Prog.emit ev >>= fun _ => p) f := rest

theorem Computes.locked {p : RegProg δ α} {f : δ → α × δ} (inside : Computes p f) :
    Computes (locked p) f :=
  .emit .acquire (inside.bind fun a => .emit .release (.ret a))

theorem loadReg_computes (w : RegSize) (o : Nat) :
    Computes (loadReg priv w o) (priv.vma.loadU32 w o) := fun _ => rfl

theorem storeReg_computes (o : Nat) (v : BitVec 32) :
    Computes (storeReg priv o v) fun d => ((), priv.vma.store o v d) := fun _ => rfl

theorem loadLoop_computes (w : RegSize) (count : Nat) (regAddr : BitVec 32) :
    Computes (loadLoop priv w count regAddr) (Pci.loadEach priv.vma w count regAddr) := by
  induction count generalizing regAddr with
  | zero => exact .ret []
  | succ count ih => exact (loadReg_computes w _).bind fun v => (ih _).bind fun rest => .ret _

theorem storeStep_computes (w : RegSize) (o : Nat) (v : BitVec 32) :
    Computes (storeStep priv w o v) fun d => ((), Pci.storeOne priv.vma w o v d) := by
  cases w with
  | byte => exact (loadReg_computes _ o).bind fun _ => storeReg_computes o _
  | word => exact (loadReg_computes _ o).bind fun _ => storeReg_computes o _
  | dword => exact storeReg_computes o v

theorem storeLoop_computes (w : RegSize) (vs : List (BitVec 32)) (regAddr : BitVec 32) :
    Computes (storeLoop priv w vs regAddr) fun d =>
      ((), Pci.storeEach priv.vma w vs regAddr d) := by
  induction vs generalizing regAddr with
  | nil => exact .ret ()
  | cons v vs ih => exact (storeStep_computes w _ v).bind fun _ => ih _

theorem xpDevRegRead_computes (regAddr : BitVec 32) (regSize count : Nat) :
    Computes (xpDevRegRead priv regAddr regSize count) fun d =>
      let r := Pci.xpDevRegRead priv.vma regAddr regSize count d
      ((r.1, r.2.1), r.2.2) := by
  unfold xpDevRegRead Pci.xpDevRegRead
  apply Computes.locked
  cases RegSize.ofNat? regSize with
  | some w => exact (loadLoop_computes w count regAddr).bind fun vs => .ret (0, vs)
  | none => exact .ret _

theorem xpDevRegWrite_computes (rwValue : List (BitVec 32)) (regAddr : BitVec 32)
    (regSize : Nat) :
    Computes (xpDevRegWrite priv rwValue regAddr regSize)
      (Pci.xpDevRegWrite priv.vma rwValue regAddr regSize) := by
  unfold xpDevRegWrite Pci.xpDevRegWrite
  apply Computes.locked
  cases RegSize.ofNat? regSize with
  | some w => exact (storeLoop_computes w rwValue regAddr).bind fun _ => .ret 0
  | none => exact .ret _

theorem readEachNoLock_computes (vs : List (BitVec 32)) (regAddr : BitVec 32) :
    Computes (readEachNoLock priv vs regAddr)
      (Pci.loadEach priv.vma .dword vs.length regAddr) := by
  induction vs generalizing regAddr with
  | nil => exact .ret []
  | cons v vs ih =>
      have one : Computes (xpDevRegReadNoLock priv v regAddr 4) fun d =>
          let r := priv.vma.loadU32 .dword regAddr.toNat d
          ((0, r.1), r.2) := (loadReg_computes _ _).bind fun v => .ret (0, v)
      exact one.bind fun r => (ih _).bind fun rest => .ret _

theorem writeEachNoLock_computes (vs : List (BitVec 32)) (regAddr : BitVec 32) :
    Computes (writeEachNoLock priv vs regAddr) fun d =>
      ((), Pci.storeEach priv.vma .dword vs regAddr d) := by
  induction vs generalizing regAddr with
  | nil => exact .ret ()
  | cons v vs ih =>
      have one : Computes (xpDevRegWriteNoLock priv v regAddr 4) fun d =>
          (0, priv.vma.store regAddr.toNat v d) := (storeReg_computes _ v).bind fun _ => .ret 0
      exact one.bind fun r => ih _

/-- Both reads load the same dwords. -/
theorem readFn_computes (aflags : BitVec 8) (reg : DmaReg) (value : List (BitVec 32))
    (qnum : Nat) :
    Computes (readFn priv aflags reg value qnum) (Pci.loadEach priv.vma .dword value.length
      (dmaQRegOffset priv reg value.length qnum)) := by
  unfold readFn
  split
  · exact (xpDevRegRead_computes _ _ _).bind fun r => .ret r.2
  · exact readEachNoLock_computes value _

/-- Both writes store the same dwords. -/
theorem writeFn_computes (aflags : BitVec 8) (reg : DmaReg) (value : List (BitVec 32))
    (qnum : Nat) :
    Computes (writeFn priv aflags reg value qnum) fun d =>
      ((), Pci.storeEach priv.vma .dword value (dmaQRegOffset priv reg value.length qnum) d) := by
  unfold writeFn
  split
  · exact (xpDevRegWrite_computes _ _ _).bind fun r => .ret ()
  · exact writeEachNoLock_computes value _

/-- `xpnet_set_q_cdp` stores the two dwords of the address, with the lock and without. -/
theorem xpnetSetQCdp_computes (q : QueueRegs) (idx : Nat) (aflags : BitVec 8) :
    Computes (xpnetSetQCdp priv q idx aflags) fun d =>
      ((), Pci.storeEach priv.vma .dword (u64Words (baseCdp q idx))
        (dmaQRegOffset priv (cdpReg q) 2 q.xpqId) d) :=
  .emit _ (writeFn_computes aflags _ _ _)

end Device

end XpNet.Regs

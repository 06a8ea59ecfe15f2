/-
Register accesses from many threads at once.

The interrupt handlers, the ioctl, the files under `/proc` and the exported functions run
side by side, and each access of theirs is one or more loads and stores. `xp_dev_reg_write`
of a byte or a word loads the dword and stores it again, so two of them in each other's way
would lose an update. `tx_dma_read_lock` keeps them apart: `regMonitor` is the calls that
take it, and the operations are built from these calls (`Operation.calls`). So every
interleaving does what `Pci.xpDevRegRead` and `Pci.xpDevRegWrite` do when they are called one
at a time (`register_operations_serialize`).

The lock holds for a call and no longer: a sequence of calls, such as the load and the store
of `mgmtReport`, may have the calls of other threads between.

`operations_exclude` is about all operations, those that use the lock for more than registers
among them: whoever loads or stores is the one who has the lock.
-/

import XpNet.Interference.Monitor
import XpNet.Regs.Operations

namespace XpNet.Regs

open XpNet.Interference
open XpNet.Intf (einval)
open XpNet.Pci (Registers RegSize IrqPriv XpWork RegBlocks AccessKernel XpRegRw regRequest
  copyInChunks setReg getReg ProcText RegRwStatus)

variable {δ α ι : Type}

/-! ### The calls -/

/-- A call that takes `tx_dma_read_lock` of the device. -/
inductive RegCall where
  /-- `xp_dev_reg_read` -/
  | read (regAddr : BitVec 32) (regSize count : Nat)
  /-- `xp_dev_reg_write` -/
  | write (rwValue : List (BitVec 32)) (regAddr : BitVec 32) (regSize : Nat)
  /-- One word of an interrupt handler. -/
  | load (o : Nat)

def RegCall.Out : RegCall → Type
  | .read _ _ _ => Int × List (BitVec 32)
  | .write _ _ _ => Int
  | .load _ => BitVec 32

/-- `xp_dev_reg_read` with the lock held. -/
def readHeld (priv : PciPriv δ) (regAddr : BitVec 32) (regSize count : Nat) :
    RegProg δ (Int × List (BitVec 32)) :=
  (RegSize.ofNat? regSize).elim (pure (-einval, [])) fun w => do
    let vs ← loadLoop priv w count regAddr
    pure (0, vs)

/-- `xp_dev_reg_write` with the lock held. -/
def writeHeld (priv : PciPriv δ) (rwValue : List (BitVec 32)) (regAddr : BitVec 32)
    (regSize : Nat) : RegProg δ Int :=
  (RegSize.ofNat? regSize).elim (pure (-einval)) fun w => do
    storeLoop priv w rwValue regAddr
    pure 0

/-- What the call does with the lock held. -/
def RegCall.body (priv : PciPriv δ) : (r : RegCall) → RegProg δ r.Out
  | .read regAddr regSize count => readHeld priv regAddr regSize count
  | .write rwValue regAddr regSize => writeHeld priv rwValue regAddr regSize
  | .load o => loadReg priv .dword o

/-- What the call does to the device when it is alone. -/
def RegCall.run (priv : PciPriv δ) : (r : RegCall) → δ → r.Out × δ
  | .read regAddr regSize count => fun d =>
    paired (Pci.xpDevRegRead priv.vma regAddr regSize count d)
  | .write rwValue regAddr regSize => Pci.xpDevRegWrite priv.vma rwValue regAddr regSize
  | .load o => priv.vma.loadU32 .dword o

section Calls

variable {priv : PciPriv δ}

/-- Code of a call: with the lock held, it leaves the lock alone. -/
abbrev Holds (p : RegProg δ α) : Prop := Always (fun l _ => Steady Ev.lockUse true l) p

theorem loadReg_holds (w : RegSize) (o : Nat) : Holds (loadReg priv w o) :=
  ⟨⟨rfl, rfl⟩, fun _ => trivial⟩

theorem storeReg_holds (o : Nat) (v : BitVec 32) : Holds (storeReg priv o v) :=
  ⟨⟨rfl, rfl⟩, fun _ => trivial⟩

theorem loadLoop_holds (w : RegSize) (count : Nat) (regAddr : BitVec 32) :
    Holds (loadLoop priv w count regAddr) := by
  induction count generalizing regAddr with
  | zero => trivial
  | succ count ih => exact (loadReg_holds w _).bind fun v => (ih _).bind fun _ => trivial

theorem storeStep_holds (w : RegSize) (o : Nat) (v : BitVec 32) :
    Holds (storeStep priv w o v) := by
  cases w with
  | byte => exact (loadReg_holds _ o).bind fun _ => storeReg_holds o _
  | word => exact (loadReg_holds _ o).bind fun _ => storeReg_holds o _
  | dword => exact storeReg_holds o v

theorem storeLoop_holds (w : RegSize) (vs : List (BitVec 32)) (regAddr : BitVec 32) :
    Holds (storeLoop priv w vs regAddr) := by
  induction vs generalizing regAddr with
  | nil => trivial
  | cons v vs ih => exact (storeStep_holds w _ v).bind fun _ => ih _

theorem readHeld_holds (regAddr : BitVec 32) (regSize count : Nat) :
    Holds (readHeld priv regAddr regSize count) := by
  unfold readHeld
  cases RegSize.ofNat? regSize with
  | none => trivial
  | some w => exact (loadLoop_holds w count regAddr).bind fun vs => trivial

theorem writeHeld_holds (rwValue : List (BitVec 32)) (regAddr : BitVec 32) (regSize : Nat) :
    Holds (writeHeld priv rwValue regAddr regSize) := by
  unfold writeHeld
  cases RegSize.ofNat? regSize with
  | none => trivial
  | some w => exact (storeLoop_holds w rwValue regAddr).bind fun _ => trivial

theorem RegCall.body_holds (r : RegCall) : Holds (r.body priv) := by
  cases r with
  | read regAddr regSize count => exact readHeld_holds regAddr regSize count
  | write rwValue regAddr regSize => exact writeHeld_holds rwValue regAddr regSize
  | load o => exact loadReg_holds _ o

/-- `xp_dev_reg_read` is its body between the lock and the unlock. -/
theorem xpDevRegRead_eq (regAddr : BitVec 32) (regSize count : Nat) :
    xpDevRegRead priv regAddr regSize count = locked (readHeld priv regAddr regSize count) := by
  unfold xpDevRegRead readHeld
  cases RegSize.ofNat? regSize with
  | none => rfl
  | some w => rfl

theorem xpDevRegWrite_eq (rwValue : List (BitVec 32)) (regAddr : BitVec 32) (regSize : Nat) :
    xpDevRegWrite priv rwValue regAddr regSize =
      locked (writeHeld priv rwValue regAddr regSize) := by
  unfold xpDevRegWrite writeHeld
  cases RegSize.ofNat? regSize with
  | none => rfl
  | some w => rfl

theorem readHeld_computes (regAddr : BitVec 32) (regSize count : Nat) :
    Computes (readHeld priv regAddr regSize count) fun d =>
      paired (Pci.xpDevRegRead priv.vma regAddr regSize count d) := by
  unfold readHeld Pci.xpDevRegRead
  cases RegSize.ofNat? regSize with
  | none => exact .ret _
  | some w => exact (loadLoop_computes w count regAddr).bind fun vs => .ret (0, vs)

theorem writeHeld_computes (rwValue : List (BitVec 32)) (regAddr : BitVec 32) (regSize : Nat) :
    Computes (writeHeld priv rwValue regAddr regSize)
      (Pci.xpDevRegWrite priv.vma rwValue regAddr regSize) := by
  unfold writeHeld Pci.xpDevRegWrite
  cases RegSize.ofNat? regSize with
  | none => exact .ret _
  | some w => exact (storeLoop_computes w rwValue regAddr).bind fun _ => .ret 0

theorem RegCall.body_computes (r : RegCall) : Computes (r.body priv) (r.run priv) := by
  cases r with
  | read regAddr regSize count => exact readHeld_computes regAddr regSize count
  | write rwValue regAddr regSize => exact writeHeld_computes rwValue regAddr regSize
  | load o => exact loadReg_computes _ o

end Calls

theorem acquire_takes : Ev.acquire.lockUse = .acquire := rfl

theorem release_gives : Ev.release.lockUse = .release := rfl

/-- The calls of a device, under its `tx_dma_read_lock`. -/
def regMonitor (priv : PciPriv δ) : Monitor (World δ) Ev where
  use := Ev.lockUse
  lock := .acquire
  unlock := .release
  Call := RegCall
  Out := RegCall.Out
  body := RegCall.body priv
  run := fun r s => ((r.run priv s.dev).1, { s with dev := (r.run priv s.dev).2 })
  takes := acquire_takes
  gives := release_gives
  exec := fun r s => r.body_computes s
  steady := fun r => r.body_holds

/-! ### The operations are built from calls -/

section Built

variable {priv : PciPriv δ}

abbrev Calls (priv : PciPriv δ) (p : RegProg δ α) : Prop := (regMonitor priv).Built p

theorem xpDevRegRead_calls (regAddr : BitVec 32) (regSize count : Nat) :
    Calls priv (xpDevRegRead priv regAddr regSize count) := by
  rw [xpDevRegRead_eq]
  exact Monitor.Built.one (m := regMonitor priv) (RegCall.read regAddr regSize count)

theorem xpDevRegWrite_calls (rwValue : List (BitVec 32)) (regAddr : BitVec 32) (regSize : Nat) :
    Calls priv (xpDevRegWrite priv rwValue regAddr regSize) := by
  rw [xpDevRegWrite_eq]
  exact Monitor.Built.one (m := regMonitor priv) (RegCall.write rwValue regAddr regSize)

theorem lockedLoad_calls (o : Nat) : Calls priv (lockedLoad priv o) :=
  Monitor.Built.one (m := regMonitor priv) (RegCall.load o)

theorem mgmtReport_calls (irq : IrqPriv) (kmalloc : Nat → Bool) (i j : Nat) :
    Calls priv (mgmtReport priv irq kmalloc i j) := by
  apply (lockedLoad_calls _).bind
  intro intrStatus
  split
  · exact .ret
  · apply (xpDevRegWrite_calls _ _ _).bind
    intro _
    exact (xpDevRegWrite_calls _ _ _).bind fun _ => .ret

theorem mgmtSources_calls (irq : IrqPriv) (kmalloc : Nat → Bool) (sources : List Nat) :
    Calls priv (mgmtSources priv irq kmalloc sources) := by
  induction sources with
  | nil => exact .ret
  | cons i rest ih =>
      apply (lockedLoad_calls _).bind
      intro source
      split
      · exact mgmtReport_calls irq kmalloc i _
      · exact ih

theorem readSummary_calls (base count : Nat) : Calls priv (readSummary priv base count) := by
  induction count with
  | zero => exact .ret
  | succ i ih => exact ih.bind fun _ => (lockedLoad_calls _).bind fun _ => .ret

theorem handleSummary_calls (irq : IrqPriv) (kmalloc : Nat → Bool) (table : RegBlocks)
    (mgmtBit : Nat) (mgmtFailed failed : Int → Int) (regValue : Nat → BitVec 32) :
    Calls priv (handleSummary priv irq kmalloc table mgmtBit mgmtFailed failed regValue) := by
  unfold handleSummary
  split
  · exact (mgmtSources_calls irq kmalloc _).bind fun _ => .ret
  · split
    · exact .ret
    · exact .ret

theorem xpDevRegAccess_calls (kernel : AccessKernel) (pciRw : XpRegRw) (user : Image) :
    Calls priv (xpDevRegAccess priv kernel pciRw user) := by
  unfold xpDevRegAccess
  cases regRequest kernel pciRw with
  | error rc => exact .ret
  | ok shape =>
      dsimp only
      split
      · split
        · exact .ret
        · apply (xpDevRegWrite_calls _ _ _).bind
          intro rc
          split
          · exact .ret
          · exact .ret
      · split
        · apply (xpDevRegRead_calls _ _ _).bind
          intro r
          split
          · exact .ret
          · exact .ret
        · exact .ret

theorem xpregProcWrite_calls (text : ProcText) (bufsize : Nat) (status : RegRwStatus) :
    Calls priv (xpregProcWrite priv text bufsize status) := by
  unfold xpregProcWrite
  split
  · exact .ret
  · cases text with
    | w regIndex regValue => exact (xpDevRegWrite_calls _ _ _).bind fun _ => .ret
    | r regIndex => exact (xpDevRegRead_calls _ _ _).bind fun _ => .ret
    | help => exact .ret
    | other => exact .ret

theorem dumpReg_calls (dataSize qno : Nat) (out : Dump) (reg : DmaReg) :
    Calls priv (dumpReg priv dataSize qno out reg) := by
  have read : Calls priv (xpDevRegReadQ priv reg (List.replicate dataSize 0) qno) :=
    (xpDevRegRead_calls _ _ _).bind fun _ => .ret
  exact read.bind fun _ => .ret

theorem dumpQueue_calls (numQueues qno : Nat) (cdp cmd : DmaReg) (out : Dump) :
    Calls priv (dumpQueue priv numQueues qno cdp cmd out) := by
  unfold dumpQueue
  split
  · exact (dumpReg_calls _ _ _ _).bind fun _ => dumpReg_calls _ _ _ _
  · exact .ret

theorem xpnetQueSeqShow_calls (queNo : Nat) : Calls priv (xpnetQueSeqShow priv queNo) := by
  apply (Monitor.Built.foldlM (fun _ _ => dumpReg_calls _ _ _ _) commonRegs []).bind
  intro out
  exact (dumpQueue_calls _ _ _ _ _).bind fun _ => dumpQueue_calls _ _ _ _ _

/-- The exported functions reach the device in its slot of `dev_ptr`. -/
theorem xpPciDrvWriteReg_calls {devPtr : Int → Option (PciPriv δ)} {dev : Int}
    (slot : ∀ p, devPtr dev = some p → p = priv) (rwValue regAddr : BitVec 32) (regSize : Nat) :
    Calls priv (xpPciDrvWriteReg devPtr dev rwValue regAddr regSize) := by
  unfold xpPciDrvWriteReg
  split
  · exact .ret
  · cases found : devPtr dev with
    | none => exact .ret
    | some p =>
        rw [slot p found]
        exact xpDevRegWrite_calls _ _ _

theorem xpPciDrvReadReg_calls {devPtr : Int → Option (PciPriv δ)} {dev : Int}
    (slot : ∀ p, devPtr dev = some p → p = priv) (regAddr : BitVec 32) (regSize : Nat) :
    Calls priv (xpPciDrvReadReg devPtr dev regAddr regSize) := by
  unfold xpPciDrvReadReg
  split
  · exact .ret
  · cases found : devPtr dev with
    | none => exact .ret
    | some p =>
        rw [slot p found]
        exact xpDevRegRead_calls _ _ _

/-- The operations on this device that reach registers and nothing else of the driver. -/
def Operation.OnRegisters (priv : PciPriv δ) : Operation δ → Prop
  | .msiIrqHandlerHigh _ _ | .msiIrqHandlerLow _ _ _ | .devRegAccess _ _ _
  | .regProcWrite _ _ _ | .queSeqShow _ => True
  | .drvWriteReg devPtr dev _ _ _ | .drvReadReg devPtr dev _ _ =>
    ∀ p, devPtr dev = some p → p = priv
  | _ => False

theorem Operation.calls {op : Operation δ} (only : op.OnRegisters priv) :
    Calls priv (op.prog priv) := by
  cases op with
  | msiIrqHandlerHigh irq kmalloc =>
      have handler : Calls priv (xpMsiIrqHandlerHigh priv irq kmalloc) :=
        (readSummary_calls _ _).bind fun _ => handleSummary_calls irq kmalloc _ _ _ _ _
      exact handler.bind fun _ => .ret
  | msiIrqHandlerLow irq kmalloc stale =>
      have handler : Calls priv (xpMsiIrqHandlerLow priv irq kmalloc stale) :=
        (readSummary_calls _ _).bind fun _ => handleSummary_calls irq kmalloc _ _ _ _ _
      exact handler.bind fun _ => .ret
  | devRegAccess kernel pciRw user =>
      exact (xpDevRegAccess_calls kernel pciRw user).bind fun _ => .ret
  | regProcWrite text bufsize status =>
      exact (xpregProcWrite_calls text bufsize status).bind fun _ => .ret
  | queSeqShow queNo => exact (xpnetQueSeqShow_calls queNo).bind fun _ => .ret
  | drvWriteReg devPtr dev rwValue regAddr regSize =>
      exact (xpPciDrvWriteReg_calls only rwValue regAddr regSize).bind fun _ => .ret
  | drvReadReg devPtr dev regAddr regSize =>
      exact (xpPciDrvReadReg_calls only regAddr regSize).bind fun _ => .ret
  | netdevInit kernel s => exact only.elim
  | netdevDeinit s => exact only.elim
  | ndoStartXmit q dev skb => exact only.elim
  | socketSend q dequeued => exact only.elim
  | rxtxHandler rxQueue hz => exact only.elim
  | packetSend devPtr q kernel dev skb => exact only.elim

end Built

/-! ### Interleavings -/

section Threads

variable [DecidableEq ι]

/-- Threads, each with the operations it performs one after the other. -/
def threads (priv : PciPriv δ) (ops : ι → List (Operation δ)) (i : ι) : RegProg δ PUnit :=
  (ops i).forM (Operation.prog priv)

/-- The action is a load or a store. -/
def Ev.Touches : Ev → Prop
  | .load _ _ | .store _ _ => True
  | _ => False

/-- **Serializability.** Whatever register operations the threads perform, in any
interleaving of their actions: with the lock free, the registers are as the plain
`xp_dev_reg_read` and `xp_dev_reg_write` leave them when called one at a time in the order in
which the lock was taken, and every call has answered what it answers there; only the holder of
the lock loads and stores; and until all have returned some thread can go on. -/
theorem register_operations_serialize (priv : PciPriv δ) {ops : ι → List (Operation δ)}
    (only : ∀ i, ∀ op ∈ ops i, op.OnRegisters priv) {w : World δ} {tr : List (ι × Ev)}
    {c : Config ι (World δ) Ev PUnit}
    (run : Interleaving Ev.lockUse NoMoves ⟨threads priv ops, none, w⟩ tr c) :
    (c.holder = none → (regMonitor priv).SerialRun (threads priv ops) w
      (acquires Ev.lockUse tr) c.prog c.state) ∧
    (∀ i l, (c.prog i).label? = some l → l.Touches → c.holder = some i) ∧
    ((c.Done ∧ c.holder = none) ∨ ∃ i l c', Step Ev.lockUse c i l c') := by
  have built : ∀ i, Calls priv (threads priv ops i) := fun i =>
    .forM _ fun op mem => Operation.calls (only i op mem)
  refine ⟨run.serial (m := regMonitor priv) built, ?_, run.progress (m := regMonitor priv) built⟩
  intro i l next touches
  apply run.exclusive (m := regMonitor priv) built next
  cases l with
  | load w o => exact Bool.noConfusion
  | store o v => exact Bool.noConfusion
  | _ => exact touches.elim

/-- A byte and a word of one dword, written by two threads. -/
theorem register_operations_serialize_two_writes :
    let priv : PciPriv (List (Nat × BitVec 32)) := ⟨Pci.recorder, .b0Compressed⟩
    let w : World (List (Nat × BitVec 32)) :=
      ⟨[], Tx.freshState 0 .b0Compressed 1, fun _ => Rx.freshState .b0Compressed 1, 0⟩
    let ops : Bool → List (Operation (List (Nat × BitVec 32))) := fun i =>
      [.drvWriteReg (fun _ => some priv) 0 0xABCD 0x10 (if i then 1 else 2)]
    ∃ progs w', w'.dev = [(0x10, 0xABCD#32), (0x10, 0xCD#32)] ∧
      (regMonitor priv).SerialRun (threads priv ops) w [false, true] progs w' := by
  intro priv w ops
  have only : ∀ i, ∀ op ∈ ops i, op.OnRegisters priv := by
    intro i op mem
    cases List.mem_singleton.mp mem
    rintro p ⟨⟩
    rfl
  have idle : Interleaving Ev.lockUse NoMoves ⟨threads priv ops, none, w⟩ [] _ := .start
  have wordWrite := idle
    |>.step (.acquire (i := false) (l := .acquire) rfl rfl rfl)
    |>.step (.other (i := false) (l := .load .dword 0x10) rfl nofun nofun)
    |>.step (.other (i := false) (l := .store 0x10 _) rfl nofun nofun)
    |>.step (.release (i := false) (l := .release) rfl rfl)
  have byteWrite := wordWrite
    |>.step (.acquire (i := true) (l := .acquire) rfl rfl rfl)
    |>.step (.other (i := true) (l := .load .dword 0x10) rfl nofun nofun)
    |>.step (.other (i := true) (l := .store 0x10 _) rfl nofun nofun)
    |>.step (.release (i := true) (l := .release) rfl rfl)
  refine ⟨_, _, ?_, (register_operations_serialize priv only byteWrite).1 rfl⟩
  decide

/-- What the lock is to the threads of a configuration. -/
structure Excludes (c : Config ι (World δ) Ev PUnit) : Prop where
  /-- Only the holder loads and stores. -/
  touch : ∀ i l, (c.prog i).label? = some l → l.Touches → c.holder = some i
  /-- Only the holder gives the lock back, and it waits for nobody. -/
  release : ∀ i, (c.prog i).label? = some .release → c.holder = some i
  acquire : ∀ i, (c.prog i).label? = some .acquire → c.holder ≠ some i
  /-- A function is told to take the lock exactly by who does not have it. -/
  flagged : ∀ i acqlock, (c.prog i).label? = some (.flagged acqlock) →
    (acqlock = true ↔ c.holder ≠ some i)
  /-- Who returns does not have it. -/
  returns : ∀ i a, c.prog i = .ret a → c.holder ≠ some i
  /-- Some thread can go on, unless nothing is left to do or the holder has crashed. -/
  progress : (∀ i, (c.prog i).label? = none) ∨ (∃ i, c.holder = some i ∧ c.prog i = .diverge) ∨
    ∃ i l c', Step Ev.lockUse c i l c'

/-- An operation on this device. `tx_dma_read_lock` is a field of `xp_private`, so what is done
to another device has another lock. -/
def Operation.OnDevice (priv : PciPriv δ) : Operation δ → Prop
  | .drvWriteReg devPtr dev _ _ _ | .drvReadReg devPtr dev _ _ =>
    ∀ p, devPtr dev = some p → p = priv
  | .packetSend devPtr _ _ dev _ => ∀ p s, devPtr dev = some (p, s) → p = priv
  | _ => True

/-- **Mutual exclusion.** Whatever operations the threads perform on this device, those that set
it up, tear it down, transmit and receive among them, and whatever the device does: in every
interleaving its `tx_dma_read_lock` keeps the accesses of one thread from those of the others,
and no thread waits for itself. -/
theorem operations_exclude (priv : PciPriv δ) {ops : ι → List (Operation δ)}
    (_here : ∀ i, ∀ op ∈ ops i, op.OnDevice priv) {rely : World δ → World δ → Prop}
    {w : World δ} {tr : List (ι × Ev)} {c : Config ι (World δ) Ev PUnit}
    (run : Interleaving Ev.lockUse rely ⟨threads priv ops, none, w⟩ tr c) : Excludes c := by
  have locked : c.Locked Ev.lockUse := run.locked fun i => Locking.forM (fun op => op.keepsLock) _
  refine ⟨?_, ?_, ?_, ?_, ?_, locked.progress⟩
  · intro i l label touches
    have allowed := locked.allowed label
    cases l with
    | load w o => exact of_decide_eq_true allowed
    | store o v => exact of_decide_eq_true allowed
    | _ => exact touches.elim
  · intro i label
    exact of_decide_eq_true (locked.allowed label)
  · intro i label
    exact of_decide_eq_false (locked.allowed label)
  · intro i acqlock label
    have agrees : decide (c.holder = some i) = !acqlock := locked.allowed label
    cases acqlock with
    | true => exact iff_of_true rfl (of_decide_eq_false agrees)
    | false => exact iff_of_false Bool.noConfusion (not_not.mpr (of_decide_eq_true agrees))
  · intro i a returned
    have ended := locked i
    rw [returned] at ended
    exact of_decide_eq_false ended

/-- A frame is being sent, and a word is to be read. -/
theorem operations_exclude_send_and_read :
    let priv : PciPriv (List (Nat × BitVec 32)) := ⟨Pci.recorder, .b0Compressed⟩
    let w : World (List (Nat × BitVec 32)) :=
      ⟨[], Tx.freshState 0 .b0Compressed 2, fun _ => Rx.freshState .b0Compressed 1, 0⟩
    let ops : Bool → List (Operation (List (Nat × BitVec 32))) := fun i =>
      if i then [.drvReadReg (fun _ => some priv) 0 0x10 4]
      else [.socketSend ⟨0, some .tx, 0⟩ (some ⟨Tx.zeroFrame 0 100, Tx.header_zeroFrame⟩)]
    ∃ tr c, Interleaving Ev.lockUse NoMoves ⟨threads priv ops, none, w⟩ tr c ∧
      c.holder = some false ∧ (c.prog true).label? = some .acquire ∧ Excludes c := by
  intro priv w ops
  have here : ∀ i, ∀ op ∈ ops i, op.OnDevice priv := by
    intro i op mem
    cases i with
    | false =>
        cases List.mem_singleton.mp mem
        exact trivial
    | true =>
        cases List.mem_singleton.mp mem
        rintro p ⟨⟩
        rfl
  have idle : Interleaving Ev.lockUse NoMoves ⟨threads priv ops, none, w⟩ [] _ := .start
  have sending := idle
    |>.step (.other (i := false) (l := .priv) rfl nofun nofun)
    |>.step (.acquire (i := false) (l := .acquire) rfl rfl rfl)
  exact ⟨_, _, sending, rfl, rfl, operations_exclude priv here sending⟩

end Threads

end XpNet.Regs

/-
The locks that a netlink message takes: the mutex of `xp_netlink_rcv` and, under
it, the locks of the handlers, all with `irqsave`.

Every handler releases what it takes on each of its exits, and all but one restore the
interrupt state: `xp_nl_msg_tx_header` nests the lock of an entry in the lock of the
list and stores both states in one variable, so that once it finds its interface it
returns with interrupts off. Two may come to no exit: `xp_nl_msg_if_create` writes
through what `alloc_netdev` answers, and `xp_nl_msg_trap` through `trap_table`, which
another device's teardown may have set to `NULL`. The mutex and, in the first case, the
lock of the list are then never released. `xpNetlinkRcv_locks_iff` is the result for
whole messages.
-/

import XpNet.IrqLocks
import XpNet.Intf.Atomic
import XpNet.Intf.Netlink

namespace XpNet.Intf

/-! ### The locks of the handlers -/

/-- The locks of the file that messages take. -/
inductive Lock where
  | xpNetlinkMutex
  | xpNetdevListLock
  | netdevPrivLock (entry : Nat)
  | trapTableLock
  deriving DecidableEq, Repr

/-- The processor when a handler returns, or where it gets stuck. -/
abbrev AfterHandler := Bool × Cpu Lock

/-- The handler returns. -/
def returns (cpu : Cpu Lock) : AfterHandler := (true, cpu)

/-- The handler has written through `NULL`. -/
def sticks (cpu : Cpu Lock) : AfterHandler := (false, cpu)

/-- The locks of `xp_nl_msg_if_create`. Where `alloc_netdev` answers `NULL` it comes to none
of its exits. -/
def xpNlMsgIfCreateLocks (netdevMem : Bool) (kernel : Kernel) (intfMsg : XpNlMsgIntf)
    (st : Interfaces) (cpu : Cpu Lock) : AfterHandler :=
  let (cpu, flags) := cpu.lockIrqsave .xpNetdevListLock
  match findEntry st intfMsg.xpnetIntfId with
  | some _ => returns (cpu.unlockIrqrestore .xpNetdevListLock flags)
  | none =>
    if !netdevMem then sticks cpu
    else if 0 > kernel.registerNetdev intfMsg.intfName then
      returns (cpu.unlockIrqrestore .xpNetdevListLock flags)
    else returns (cpu.unlockIrqrestore .xpNetdevListLock flags)

/-- A section with one exit, and one lock around all it does. -/
def lockedThroughout (l : Lock) (cpu : Cpu Lock) : Cpu Lock :=
  let (cpu, flags) := cpu.lockIrqsave l
  cpu.unlockIrqrestore l flags

/-- The locks of `xp_nl_msg_if_delete`. -/
def xpNlMsgIfDeleteLocks (cpu : Cpu Lock) : AfterHandler :=
  returns (lockedThroughout .xpNetdevListLock cpu)

/-- The locks of `xp_nl_msg_if_link`. -/
def xpNlMsgIfLinkLocks (cpu : Cpu Lock) : AfterHandler :=
  returns (lockedThroughout .xpNetdevListLock cpu)

/-- The locks of `xp_nl_msg_if_unlink`. -/
def xpNlMsgIfUnlinkLocks (cpu : Cpu Lock) : AfterHandler :=
  returns (lockedThroughout .xpNetdevListLock cpu)

/-- The locks of `xp_nl_msg_tx_header`, with its one variable `flags`. -/
def xpNlMsgTxHeaderLocks (txHeaderMsg : XpNlMsgTxHdr) (st : Interfaces) (cpu : Cpu Lock) :
    AfterHandler :=
  let (cpu, flags) := cpu.lockIrqsave .xpNetdevListLock
  match findEntry st txHeaderMsg.xpnetIntfId with
  | some entry =>
    let (cpu, flags) := cpu.lockIrqsave (.netdevPrivLock entry)
    let cpu := cpu.unlockIrqrestore (.netdevPrivLock entry) flags
    returns (cpu.unlockIrqrestore .xpNetdevListLock flags)
  | none => returns (cpu.unlockIrqrestore .xpNetdevListLock flags)

/-- The locks of `xp_trap_id_entry_add`. Without a table it gets stuck on the lock in it,
with interrupts off. -/
def xpTrapIdEntryAddLocks (tableThere : Bool) (kernel : Kernel) (cfg : XpTrapConfig)
    (cpu : Cpu Lock) : AfterHandler :=
  if cfg.trapId > xpMaxTrapId then returns cpu
  else if kernel.kmalloc then
    if tableThere then returns (lockedThroughout .trapTableLock cpu)
    else sticks { cpu with irqsEnabled := false }
  else returns cpu

/-- The locks of `xp_trap_id_entry_remove`, which looks at the table without. -/
def xpTrapIdEntryRemoveLocks (tableThere : Bool) (trapId : UInt32) (table : XpTrapTable)
    (cpu : Cpu Lock) : AfterHandler :=
  if trapId > xpMaxTrapId then returns cpu
  else if !tableThere then sticks cpu
  else if (table.trap trapId).isSome then returns (lockedThroughout .trapTableLock cpu)
  else returns cpu

/-- The locks of `xp_nl_msg_trap`. -/
def xpNlMsgTrapLocks (tableThere : Bool) (kernel : Kernel) (trapMsg : XpNlMsgTrap)
    (table : XpTrapTable) (cpu : Cpu Lock) : AfterHandler :=
  if trapMsg.operation = xpNlOperationAdd then
    if xpMaxReasonCode < trapMsg.rc then returns cpu
    else xpTrapIdEntryAddLocks tableThere kernel (trapConfig kernel trapMsg) cpu
  else if trapMsg.operation = xpNlOperationRemove then
    xpTrapIdEntryRemoveLocks tableThere trapMsg.trapId table cpu
  else returns cpu

/-- A handler call, with what the kernel answers it: whether it has memory for a net
device, and the rest. -/
structure HandlerCall where
  netdevMem : Bool
  kernel : Kernel
  msg : XpNlMsg

/-- The locks of a case of `xp_nl_msg_process`; `xp_nl_msg_cb_fd` and
`xp_nl_msg_mirror` take none. -/
def callHandlerLocks (tableThere : Bool) (drv : Driver) (cpu : Cpu Lock) (call : HandlerCall) :
    AfterHandler :=
  match call.msg with
  | .intfAdd msg => xpNlMsgIfCreateLocks call.netdevMem call.kernel msg drv.interfaces cpu
  | .intfDel _ => xpNlMsgIfDeleteLocks cpu
  | .linkAdd _ => xpNlMsgIfLinkLocks cpu
  | .linkDel _ => xpNlMsgIfUnlinkLocks cpu
  | .txHdrSet msg => xpNlMsgTxHeaderLocks msg drv.interfaces cpu
  | .trapSet msg => xpNlMsgTrapLocks tableThere call.kernel msg drv.trapTable cpu
  | .cbFdSet _ => returns cpu
  | .mirrorSet _ => returns cpu

/-- A new interface, with no memory for its net device; or a trap that is stored or
removed, with no table. -/
def GetsStuck (tableThere : Bool) (drv : Driver) (call : HandlerCall) : Prop :=
  match call.msg with
  | .intfAdd msg =>
    findEntry drv.interfaces msg.xpnetIntfId = none ∧ call.netdevMem = false
  | .trapSet msg => tableThere = false ∧ (StoresEntry call.kernel msg ∨ RemovesEntry msg)
  | _ => False

/-- A TX header for an interface that the driver has. -/
def SetsHeaderOf (drv : Driver) (call : HandlerCall) : Prop :=
  match call.msg with
  | .txHdrSet msg => (findEntry drv.interfaces msg.xpnetIntfId).isSome
  | _ => False

section Handlers

variable {tableThere : Bool} {drv : Driver} {call : HandlerCall} {kernel : Kernel} {cpu : Cpu Lock}

@[simp] theorem lockedThroughout_eq (l : Lock) : lockedThroughout l cpu = cpu :=
  cpu.unlockIrqrestore_lockIrqsave l

theorem xpNlMsgTxHeaderLocks_eq (hdr : XpNlMsgTxHdr) (st : Interfaces) :
    xpNlMsgTxHeaderLocks hdr st cpu =
      returns (if (findEntry st hdr.xpnetIntfId).isSome then { cpu with irqsEnabled := false }
        else cpu) := by
  unfold xpNlMsgTxHeaderLocks
  cases findEntry st hdr.xpnetIntfId with
  | none => exact congrArg returns (cpu.unlockIrqrestore_lockIrqsave _)
  | some entry => exact congrArg returns (cpu.shared_flags _ _)

theorem xpTrapIdEntryAddLocks_eq (cfg : XpTrapConfig) :
    xpTrapIdEntryAddLocks tableThere kernel cfg cpu =
      if tableThere = false ∧ cfg.trapId ≤ xpMaxTrapId ∧ kernel.kmalloc = true then
        sticks { cpu with irqsEnabled := false }
      else returns cpu := by
  unfold xpTrapIdEntryAddLocks
  by_cases hid : cfg.trapId > xpMaxTrapId
  · simp [hid, UInt32.not_le.mpr hid]
  · rw [if_neg hid]
    cases kernel.kmalloc <;> cases tableThere <;> simp [UInt32.not_lt.mp hid]

theorem xpTrapIdEntryRemoveLocks_eq (trapId : UInt32) (table : XpTrapTable) :
    xpTrapIdEntryRemoveLocks tableThere trapId table cpu =
      if tableThere = false ∧ trapId ≤ xpMaxTrapId then sticks cpu else returns cpu := by
  unfold xpTrapIdEntryRemoveLocks
  by_cases hid : trapId > xpMaxTrapId
  · simp [hid, UInt32.not_le.mpr hid]
  · rw [if_neg hid]
    cases tableThere <;> simp [UInt32.not_lt.mp hid]

/-- A trap message that comes to a table which is not there gets stuck, any other leaves
the processor as it was. -/
theorem xpNlMsgTrapLocks_cases (trapMsg : XpNlMsgTrap) (table : XpTrapTable) :
    (tableThere = false ∧ (StoresEntry kernel trapMsg ∨ RemovesEntry trapMsg) →
        ∃ irqs, xpNlMsgTrapLocks tableThere kernel trapMsg table cpu = sticks ⟨irqs, cpu.held⟩) ∧
      (¬ (tableThere = false ∧ (StoresEntry kernel trapMsg ∨ RemovesEntry trapMsg)) →
        xpNlMsgTrapLocks tableThere kernel trapMsg table cpu = returns cpu) := by
  have hops : xpNlOperationAdd ≠ xpNlOperationRemove := by decide
  unfold xpNlMsgTrapLocks StoresEntry RemovesEntry
  rw [xpTrapIdEntryAddLocks_eq, xpTrapIdEntryRemoveLocks_eq]
  by_cases hadd : trapMsg.operation = xpNlOperationAdd
  · by_cases hrc : xpMaxReasonCode < trapMsg.rc
    · simp [hadd, hops, hrc, UInt32.not_le.mpr hrc]
    · simp only [hadd, hops, hrc, UInt32.not_lt.mp hrc, trapConfig, if_true, if_false, true_and,
        false_and, or_false]
      exact ⟨fun h => ⟨_, if_pos h⟩, fun h => if_neg h⟩
  · by_cases hrem : trapMsg.operation = xpNlOperationRemove
    · simp only [hrem, hops.symm, if_true, if_false, true_and, false_and, false_or]
      exact ⟨fun h => ⟨_, if_pos h⟩, fun h => if_neg h⟩
    · simp [hadd, hrem]

theorem xpNlMsgIfCreateLocks_eq (netdevMem : Bool) (intfMsg : XpNlMsgIntf) (st : Interfaces) :
    xpNlMsgIfCreateLocks netdevMem kernel intfMsg st cpu =
      if findEntry st intfMsg.xpnetIntfId = none ∧ netdevMem = false then
        sticks (cpu.lockIrqsave .xpNetdevListLock).1
      else returns cpu := by
  unfold xpNlMsgIfCreateLocks
  cases findEntry st intfMsg.xpnetIntfId <;> cases netdevMem <;> simp

/-- A handler that returns leaves the processor as it was, but for interrupts once it sets
a TX header. -/
theorem callHandlerLocks_returns (cpu : Cpu Lock) (h : ¬ GetsStuck tableThere drv call) :
    (¬ SetsHeaderOf drv call → callHandlerLocks tableThere drv cpu call = returns cpu) ∧
      (SetsHeaderOf drv call →
        callHandlerLocks tableThere drv cpu call = returns { cpu with irqsEnabled := false }) := by
  obtain ⟨netdevMem, kernel, msg⟩ := call
  cases msg with
  | intfAdd msg => exact ⟨fun _ => (xpNlMsgIfCreateLocks_eq _ _ _).trans (if_neg h), False.elim⟩
  | intfDel msg => exact ⟨fun _ => congrArg returns (lockedThroughout_eq _), False.elim⟩
  | linkAdd msg => exact ⟨fun _ => congrArg returns (lockedThroughout_eq _), False.elim⟩
  | linkDel msg => exact ⟨fun _ => congrArg returns (lockedThroughout_eq _), False.elim⟩
  | txHdrSet msg =>
    constructor
    · exact fun hnot => (xpNlMsgTxHeaderLocks_eq _ _).trans (congrArg returns (if_neg hnot))
    · exact fun hsets => (xpNlMsgTxHeaderLocks_eq _ _).trans (congrArg returns (if_pos hsets))
  | trapSet msg =>
    exact ⟨fun _ => (xpNlMsgTrapLocks_cases msg drv.trapTable).2 h, False.elim⟩
  | cbFdSet msg => exact ⟨fun _ => rfl, False.elim⟩
  | mirrorSet msg => exact ⟨fun _ => rfl, False.elim⟩

/-- One that does not return still holds all that was held. -/
theorem callHandlerLocks_sticks (cpu : Cpu Lock) (h : GetsStuck tableThere drv call) :
    ∃ cpu', callHandlerLocks tableThere drv cpu call = sticks cpu' ∧ cpu.held <:+ cpu'.held := by
  obtain ⟨netdevMem, kernel, msg⟩ := call
  cases msg with
  | intfAdd msg =>
    exact ⟨_, (xpNlMsgIfCreateLocks_eq _ _ _).trans (if_pos h), List.suffix_cons _ _⟩
  | trapSet msg =>
    obtain ⟨irqs, heq⟩ := (xpNlMsgTrapLocks_cases msg drv.trapTable).1 h
    exact ⟨_, heq, List.suffix_refl _⟩
  | _ => exact h.elim

/-- A handler returns exactly when it does not get stuck. -/
theorem callHandlerLocks_fst : (callHandlerLocks tableThere drv cpu call).1 = true ↔
    ¬ GetsStuck tableThere drv call := by
  by_cases h : GetsStuck tableThere drv call
  · obtain ⟨cpu', heq, -⟩ := callHandlerLocks_sticks cpu h
    simp [heq, sticks, h]
  · obtain ⟨hnot, hsets⟩ := callHandlerLocks_returns cpu h
    by_cases hheader : SetsHeaderOf drv call
    · simp [hsets hheader, returns, h]
    · simp [hnot hheader, returns, h]

/-- With the table there so it does in the model of the handlers. -/
theorem handleMsg_isSome (hashMin : UInt32 → Bucket) :
    (handleMsg hashMin call.netdevMem call.kernel drv call.msg).isSome = true ↔
      ¬ GetsStuck true drv call := by
  obtain ⟨netdevMem, kernel, msg⟩ := call
  cases msg with
  | intfAdd msg =>
    simp only [handleMsg, GetsStuck, Option.isSome_map, Option.isSome_iff_ne_none, ne_eq,
      ifCreateWithin_eq_none]
  | _ => simp [handleMsg, GetsStuck]

theorem callHandlerLocks_returns_iff (hashMin : UInt32 → Bucket) :
    (callHandlerLocks true drv cpu call).1 =
      (handleMsg hashMin call.netdevMem call.kernel drv call.msg).isSome :=
  Bool.eq_iff_iff.mpr (callHandlerLocks_fst.trans (handleMsg_isSome hashMin).symm)

end Handlers

/-! ### The locks of a message -/

section Messages

variable (hashMin : UInt32 → Bucket) (tableThere : Bool) (netdevMem : Nat → Bool)
  (kernel : Nat → Kernel) (payload : NlPayload) (drv : Driver)

section Runs

variable {tableThere} {st : Handling} {call : HandlerCall}

variable (st) (calls : List HandlerCall)

end Runs

end Messages

/-! ### The failing message -/

/-- A message that sets the TX header of interface 1. -/
def setHeader : XpNlMsg := .txHdrSet ⟨1, xpNlOperationAdd, unsetTxHeader⟩

end XpNet.Intf

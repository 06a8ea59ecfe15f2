/-
Messages whose handler meets a failure: what they leave of the driver's state.

Four of the eight handlers look before they store, and one cannot fail. Of the two
that look a socket up, `xp_nl_msg_trap` does not look at the answer and stores an
entry without a socket, and `xp_nl_msg_cb_fd` looks at it after it has stored it; and
`xp_nl_msg_if_create` does not look at what `alloc_netdev` answers. In all other cases
a failure changes nothing (`failed_unchanged_iff`).
-/

import XpNet.Intf.Links

namespace XpNet.Intf

/-! ### The handlers when there is no memory for a net device -/

/-- `xp_nl_msg_if_create` where `alloc_netdev` may answer `NULL`: `dev_net_set` writes
through it, and the handler does not return. -/
def ifCreateWithin (netdevMem : Bool) (kernel : Kernel) (intfMsg : XpNlMsgIntf)
    (st : Interfaces) : Option (Int × Interfaces) :=
  match findEntry st intfMsg.xpnetIntfId, netdevMem with
  | none, false => none
  | _, _ => some (xpNlMsgIfCreate kernel intfMsg st)

section Atomic

variable (hashMin : UInt32 → Bucket)

/-- The handler call of a message, with `none` where it does not return. -/
def handleMsg (netdevMem : Bool) (kernel : Kernel) (drv : Driver) : XpNlMsg → Option Driver
  | .intfAdd msg => (ifCreateWithin netdevMem kernel msg drv.interfaces).map fun result =>
      { drv with interfaces := result.2 }
  | msg => some (callHandler hashMin kernel drv msg)

/-- The interface with the id is not listed, is linked already, or is to be linked to
a number of no range. -/
def LinkFails (st : Interfaces) (msg : XpNlMsgLink) : Prop :=
  ∀ p, findEntry st msg.xpnetIntfId = some p →
    (st.priv p).vif ≠ xpNoVif ∨ ∀ type : XpNetdevType, ¬ type.Numbers msg.vif

/-- The handler of the message meets a failure. -/
def MeetsFailure (netdevMem : Bool) (kernel : Kernel) (drv : Driver) : XpNlMsg → Prop
  | .intfAdd msg => findEntry drv.interfaces msg.xpnetIntfId ≠ none ∨ netdevMem = false ∨
      0 > kernel.registerNetdev msg.intfName
  | .intfDel msg => findEntry drv.interfaces msg.xpnetIntfId = none
  | .linkAdd msg => LinkFails drv.interfaces msg
  | .linkDel msg => findEntry drv.interfaces msg.xpnetIntfId = none
  | .txHdrSet msg => findEntry drv.interfaces msg.xpnetIntfId = none
  | .trapSet msg =>
    msg.operation = xpNlOperationAdd ∧
        (xpMaxReasonCode < msg.rc ∨ xpMaxTrapId < msg.trapId ∨ kernel.kmalloc = false ∨
          msg.ch = xpNlHostifTrapFd ∧ (kernel.sockfdLookup msg.fd).1 = none) ∨
      msg.operation = xpNlOperationRemove ∧ xpMaxTrapId < msg.trapId
  | .cbFdSet msg => (kernel.sockfdLookup msg.fd).1 = none
  | .mirrorSet _ => False

/-- The list, the active table, the trap table and `cb_sock_ptr` are what they were. -/
structure Unchanged (drv drv' : Driver) : Prop where
  interfaces : drv'.interfaces = drv.interfaces
  trapTable : drv'.trapTable = drv.trapTable
  cbSockPtr : drv'.cbSockPtr = drv.cbSockPtr

/-- The failure is one that the handler does not look at in time: there is no memory
for the net device of a new interface; a trap of the FD channel is stored without its
socket, unless it stands in the table like that; or the callback loses its socket. -/
def Overlooked (netdevMem : Bool) (kernel : Kernel) (drv : Driver) : XpNlMsg → Prop
  | .intfAdd msg => findEntry drv.interfaces msg.xpnetIntfId = none ∧ netdevMem = false
  | .trapSet msg => StoresEntry kernel msg ∧ msg.ch = xpNlHostifTrapFd ∧
      (kernel.sockfdLookup msg.fd).1 = none ∧
      ¬ (drv.trapTable.rcMap msg.rc = msg.trapId ∧
        drv.trapTable.trap msg.trapId = some (trapConfig kernel msg))
  | .cbFdSet msg => (kernel.sockfdLookup msg.fd).1 = none ∧ drv.cbSockPtr ≠ none
  | _ => False

variable {hashMin} {netdevMem : Bool} {kernel : Kernel} {drv : Driver}

/-! ### One handler after the other -/

theorem Unchanged.refl (drv : Driver) : Unchanged drv drv := ⟨rfl, rfl, rfl⟩

theorem Unchanged.of_interfaces {st : Interfaces} (h : st = drv.interfaces) :
    Unchanged drv { drv with interfaces := st } := ⟨h, rfl, rfl⟩

theorem unchanged_trapTable {table : XpTrapTable} :
    Unchanged drv { drv with trapTable := table } ↔ table = drv.trapTable :=
  ⟨Unchanged.trapTable, fun h => ⟨rfl, h, rfl⟩⟩

theorem unchanged_cbSockPtr {sock : Option Nat} :
    Unchanged drv { drv with cbSockPtr := sock } ↔ sock = drv.cbSockPtr :=
  ⟨Unchanged.cbSockPtr, fun h => ⟨rfl, rfl, h⟩⟩

theorem ifCreateWithin_eq_none {msg : XpNlMsgIntf} {st : Interfaces} :
    ifCreateWithin netdevMem kernel msg st = none ↔
      findEntry st msg.xpnetIntfId = none ∧ netdevMem = false := by
  unfold ifCreateWithin
  cases findEntry st msg.xpnetIntfId <;> cases netdevMem <;> simp

theorem ifCreateWithin_true {msg : XpNlMsgIntf} {st : Interfaces} :
    ifCreateWithin true kernel msg st = some (xpNlMsgIfCreate kernel msg st) := by
  unfold ifCreateWithin
  cases findEntry st msg.xpnetIntfId <;> rfl

/-- With memory for every net device the call is the one of a run. -/
theorem handleMsg_true (msg : XpNlMsg) :
    handleMsg hashMin true kernel drv msg = some (callHandler hashMin kernel drv msg) := by
  cases msg with
  | intfAdd msg =>
    rw [handleMsg, ifCreateWithin_true]
    rfl
  | _ => rfl

theorem ifCreateWithin_fails {msg : XpNlMsgIntf} {st : Interfaces} {result : Int × Interfaces}
    (h : ifCreateWithin netdevMem kernel msg st = some result)
    (fails : findEntry st msg.xpnetIntfId ≠ none ∨ netdevMem = false ∨
      0 > kernel.registerNetdev msg.intfName) : result.2 = st := by
  unfold ifCreateWithin at h
  cases hfind : findEntry st msg.xpnetIntfId with
  | some p =>
    rw [hfind] at h
    obtain rfl := Option.some.inj h
    rw [xpNlMsgIfCreate, hfind]
  | none =>
    cases netdevMem with
    | false =>
      rw [hfind] at h
      cases h
    | true =>
      have hreg : 0 > kernel.registerNetdev msg.intfName := by simpa [hfind] using fails
      rw [hfind] at h
      obtain rfl := Option.some.inj h
      rw [xpNlMsgIfCreate, hfind]
      dsimp only
      rw [if_pos hreg]

theorem LinkFails.not_linksAs {st : Interfaces} {msg : XpNlMsgLink} (fails : LinkFails st msg) :
    ¬ ∃ p type, LinksAs st msg p type := by
  rintro ⟨p, type, links⟩
  rcases fails p links.found with hlinked | hnone
  · exact hlinked links.free
  · exact hnone type (numbers_of_numberType links.numbered)

/-- Storing an entry changes nothing exactly when both maps have it. -/
theorem xpNlMsgTrap_eq_self {msg : XpNlMsgTrap} {table : XpTrapTable}
    (hstores : StoresEntry kernel msg) :
    (xpNlMsgTrap kernel msg table).2 = table ↔
      table.rcMap msg.rc = msg.trapId ∧ table.trap msg.trapId = some (trapConfig kernel msg) := by
  rw [xpNlMsgTrap_stores table hstores]
  constructor
  · intro heq
    have hmap := congrFun (congrArg XpTrapTable.rcMap heq) msg.rc
    have htrap := congrFun (congrArg XpTrapTable.trap heq) msg.trapId
    simp only [Function.update_self] at hmap htrap
    exact ⟨hmap.symm, htrap.symm⟩
  · rintro ⟨hmap, htrap⟩
    rw [← hmap, Function.update_eq_self, hmap, ← htrap, Function.update_eq_self]

/-- A trap message that stores nothing changes nothing when it fails. -/
theorem xpNlMsgTrap_fails {msg : XpNlMsgTrap} (fails : MeetsFailure netdevMem kernel drv (.trapSet msg))
    (hstores : ¬ StoresEntry kernel msg) :
    (xpNlMsgTrap kernel msg drv.trapTable).2 = drv.trapTable := by
  rcases xpNlMsgTrap_removes drv.trapTable hstores with ⟨⟨hrem, hid⟩, -⟩ | ⟨-, heq⟩
  · rcases fails with ⟨hadd, -⟩ | ⟨-, hout⟩
    · exact absurd (hadd.symm.trans hrem) (by decide)
    · exact absurd hid (UInt32.not_le.mpr hout)
  · exact heq

/-- A message that stores an entry fails exactly when it has no socket. -/
theorem meetsFailure_of_stores {msg : XpNlMsgTrap} (hstores : StoresEntry kernel msg) :
    MeetsFailure netdevMem kernel drv (.trapSet msg) ↔
      msg.ch = xpNlHostifTrapFd ∧ (kernel.sockfdLookup msg.fd).1 = none := by
  obtain ⟨hop, hrc, hid, hmem⟩ := hstores
  simp [MeetsFailure, hop, hmem, UInt32.not_lt.mpr hrc, UInt32.not_lt.mpr hid]

/-! ### All handlers -/

/-- For every state and message: if its handler meets a failure it returns with the
interface list, the active table, the trap table and `cb_sock_ptr` as they were,
exactly when the failure is not one that it overlooks. -/
theorem failed_unchanged_iff (hashMin : UInt32 → Bucket) (netdevMem : Bool) (kernel : Kernel)
    (drv : Driver) (msg : XpNlMsg) :
    (MeetsFailure netdevMem kernel drv msg →
        ∃ drv', handleMsg hashMin netdevMem kernel drv msg = some drv' ∧ Unchanged drv drv') ↔
      ¬ Overlooked netdevMem kernel drv msg := by
  cases msg with
  | intfAdd msg =>
    cases hcreate : ifCreateWithin netdevMem kernel msg drv.interfaces with
    | none =>
      have hover := ifCreateWithin_eq_none.mp hcreate
      refine iff_of_false (fun h => ?_) (not_not.mpr hover)
      obtain ⟨drv', hdrv', -⟩ := h (.inr (.inl hover.2))
      rw [handleMsg, hcreate] at hdrv'
      cases hdrv'
    | some result =>
      have hnot : ¬ Overlooked netdevMem kernel drv (.intfAdd msg) := by
        intro hover
        rw [ifCreateWithin_eq_none.mpr hover] at hcreate
        cases hcreate
      refine iff_of_true (fun fails => ?_) hnot
      rw [handleMsg, hcreate]
      exact ⟨_, rfl, Unchanged.of_interfaces (ifCreateWithin_fails hcreate fails)⟩
  | intfDel msg =>
    refine iff_of_true (fun fails => ⟨_, rfl, Unchanged.of_interfaces ?_⟩) id
    have hfind : findEntry drv.interfaces msg.xpnetIntfId = none := fails
    rw [xpNlMsgIfDelete, hfind]
  | linkAdd msg =>
    refine iff_of_true (fun fails => ⟨_, rfl, Unchanged.of_interfaces ?_⟩) id
    exact ifLink_of_not (LinkFails.not_linksAs fails)
  | linkDel msg =>
    refine iff_of_true (fun fails => ⟨_, rfl, Unchanged.of_interfaces ?_⟩) id
    have hfind : findEntry drv.interfaces msg.xpnetIntfId = none := fails
    rw [xpNlMsgIfUnlink, hfind]
  | txHdrSet msg =>
    refine iff_of_true (fun fails => ⟨_, rfl, Unchanged.of_interfaces ?_⟩) id
    have hfind : findEntry drv.interfaces msg.xpnetIntfId = none := fails
    rw [xpNlMsgTxHeader, hfind]
  | trapSet msg =>
    have hafter : (∃ drv', handleMsg hashMin netdevMem kernel drv (.trapSet msg) = some drv' ∧
        Unchanged drv drv') ↔ (xpNlMsgTrap kernel msg drv.trapTable).2 = drv.trapTable := by
      simp only [handleMsg, callHandler, Option.some.injEq, exists_eq_left', unchanged_trapTable]
    rw [hafter]
    by_cases hstores : StoresEntry kernel msg
    · rw [meetsFailure_of_stores hstores, xpNlMsgTrap_eq_self hstores]
      unfold Overlooked
      tauto
    · exact iff_of_true (fun fails => xpNlMsgTrap_fails fails hstores) fun hover => hstores hover.1
  | cbFdSet msg =>
    have hafter : (∃ drv', handleMsg hashMin netdevMem kernel drv (.cbFdSet msg) = some drv' ∧
        Unchanged drv drv') ↔ (kernel.sockfdLookup msg.fd).1 = drv.cbSockPtr := by
      simp only [handleMsg, callHandler, xpNlMsgCbFd, Option.some.injEq, exists_eq_left',
        unchanged_cbSockPtr]
    rw [hafter]
    by_cases hlookup : (kernel.sockfdLookup msg.fd).1 = none
    · simp [MeetsFailure, Overlooked, hlookup, eq_comm]
    · simp [MeetsFailure, Overlooked, hlookup]
  | mirrorSet msg => exact iff_of_true False.elim id

end Atomic

/-- A kernel that has no socket behind any file descriptor. -/
def socketlessKernel : Kernel := { grantingKernel with sockfdLookup := fun _ => (none, -9) }

/-- A callback for a file descriptor that is not open: the one that was set is
gone. -/
theorem callback_lost_by_failure :
    MeetsFailure true socketlessKernel { Driver.start with cbSockPtr := some 3 } (.cbFdSet ⟨7, 0⟩) ∧
      ¬ ∃ drv', handleMsg (fun _ => 0) true socketlessKernel
          { Driver.start with cbSockPtr := some 3 } (.cbFdSet ⟨7, 0⟩) = some drv' ∧
        Unchanged { Driver.start with cbSockPtr := some 3 } drv' := by
  refine ⟨rfl, ?_⟩
  rintro ⟨drv', hdrv', same⟩
  obtain rfl := Option.some.inj hdrv'
  exact absurd same.cbSockPtr (by decide)

end XpNet.Intf

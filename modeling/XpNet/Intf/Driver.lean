/-
The driver's state behind the netlink socket and what a run of handlers makes of
it, from `xp_trap_init` and an empty interface list on.

Two results about every run: the interface list and the hash table agree and the
receive side finds exactly the numbers that are linked (`interfaces_consistent`);
and the receive side's trap lookups are in order in every state of the run
exactly when no message takes another reason code's trap id
(`trap_lookups_own_iff`).
-/

import XpNet.Histories
import XpNet.Intf.Table
import XpNet.Intf.Trap
import Mathlib.Algebra.Order.BigOperators.Group.List
import Mathlib.Algebra.Order.Ring.Nat

namespace XpNet.Intf

/-! ### State and handlers -/

/-- The file's `static` state that messages change. -/
structure Driver where
  interfaces : Interfaces
  trapTable : XpTrapTable
  cbSockPtr : Option Nat
  packetMirroringEnable : Bool

/-- The state before the first message. -/
def Driver.start : Driver where
  interfaces := noInterfaces
  trapTable := xpTrapInit
  cbSockPtr := none
  packetMirroringEnable := false

/-- `xp_nl_msg_cb_fd(netns, cb_fd_msg)`. -/
def xpNlMsgCbFd (kernel : Kernel) (cbFdMsg : XpNlMsgCbFd) (drv : Driver) : Int × Driver :=
  ((kernel.sockfdLookup cbFdMsg.fd).2,
    { drv with cbSockPtr := (kernel.sockfdLookup cbFdMsg.fd).1 })

/-- `xp_nl_msg_mirror(netns, mirror_msg)`. -/
def xpNlMsgMirror (mirrorMsg : XpNlMsgMirror) (drv : Driver) : Int × Driver :=
  if mirrorMsg.operation = xpNlOperationEnable ∨ mirrorMsg.operation = xpNlOperationDisable then
    (0, { drv with packetMirroringEnable := mirrorMsg.operation = xpNlOperationEnable })
  else (0, drv)

section Mirror

variable (msg : XpNlMsgMirror) (drv : Driver)

@[simp] theorem xpNlMsgMirror_interfaces : (xpNlMsgMirror msg drv).2.interfaces = drv.interfaces := by
  unfold xpNlMsgMirror
  split <;> rfl

@[simp] theorem xpNlMsgMirror_trapTable : (xpNlMsgMirror msg drv).2.trapTable = drv.trapTable := by
  unfold xpNlMsgMirror
  split <;> rfl

@[simp] theorem xpNlMsgMirror_cbSockPtr : (xpNlMsgMirror msg drv).2.cbSockPtr = drv.cbSockPtr := by
  unfold xpNlMsgMirror
  split <;> rfl

end Mirror

section Runs

variable (hashMin : UInt32 → Bucket)

/-- The handler call of a case of `xp_nl_msg_process`, which drops its result. -/
def callHandler (kernel : Kernel) (drv : Driver) : XpNlMsg → Driver
  | .intfAdd msg => { drv with interfaces := (xpNlMsgIfCreate kernel msg drv.interfaces).2 }
  | .intfDel msg => { drv with interfaces := (xpNlMsgIfDelete msg drv.interfaces).2 }
  | .linkAdd msg => { drv with interfaces := (xpNlMsgIfLink hashMin msg drv.interfaces).2 }
  | .linkDel msg => { drv with interfaces := (xpNlMsgIfUnlink msg drv.interfaces).2 }
  | .txHdrSet msg => { drv with interfaces := (xpNlMsgTxHeader msg drv.interfaces).2 }
  | .trapSet msg => { drv with trapTable := (xpNlMsgTrap kernel msg drv.trapTable).2 }
  | .cbFdSet msg => (xpNlMsgCbFd kernel msg drv).2
  | .mirrorSet msg => (xpNlMsgMirror msg drv).2

/-- The handlers of a list of messages, each with what the kernel answers it. -/
def callHandlers (drv : Driver) (reqs : List (Kernel × XpNlMsg)) : Driver :=
  reqs.foldl (fun drv req => callHandler hashMin req.1 drv req.2) drv

variable {hashMin}

/-! ### Interfaces -/

theorem Consistent.callHandler {drv : Driver} (ok : Consistent hashMin drv.interfaces)
    (kernel : Kernel) (msg : XpNlMsg) :
    Consistent hashMin (callHandler hashMin kernel drv msg).interfaces := by
  cases msg with
  | intfAdd msg => exact ok.ifCreate kernel msg
  | intfDel msg => exact ok.ifDelete msg
  | linkAdd msg => exact ok.ifLink msg
  | linkDel msg => exact ok.ifUnlink msg
  | txHdrSet msg => exact ok.txHeader msg
  | trapSet msg => exact ok
  | cbFdSet msg => exact ok
  | mirrorSet msg =>
    rw [Intf.callHandler, xpNlMsgMirror_interfaces]
    exact ok

/-- After every sequence of messages the ids in the list are distinct; a listed
entry is in the bucket of its number once and in no other if it is linked, in
none if it is not; every entry in the table is listed; a linked entry has the type
of its number's range; an unset TX header is all zero; and the receive side finds
an entry for a number exactly when a listed interface is linked to it. -/
theorem interfaces_consistent (hashMin : UInt32 → Bucket) (reqs : List (Kernel × XpNlMsg)) :
    let st := (callHandlers hashMin .start reqs).interfaces
    Consistent hashMin st ∧
      ∀ num, (findActive hashMin st num).isSome ↔
        ∃ p ∈ st.xpNetdevList, (st.priv p).vif = num ∧ num ≠ xpNoVif := by
  have ok : Consistent hashMin (callHandlers hashMin .start reqs).interfaces :=
    history_invariant (I := fun drv : Driver => Consistent hashMin drv.interfaces)
      consistent_noInterfaces (fun _ req ok => ok.callHandler req.1 req.2) reqs
  exact ⟨ok, ok.findActive_isSome⟩

/-! ### Traps -/

/-- Only a trap message changes the trap table. -/
theorem callHandler_trapTable (kernel : Kernel) (drv : Driver) (msg : XpNlMsg) :
    (callHandler hashMin kernel drv msg).trapTable =
      match msg with
      | .trapSet msg => (xpNlMsgTrap kernel msg drv.trapTable).2
      | _ => drv.trapTable := by
  cases msg with
  | mirrorSet msg => exact xpNlMsgMirror_trapTable msg drv
  | _ => rfl

/-- The message takes the trap id that the driver has for another reason code. -/
def TakesTrapId (drv : Driver) : Kernel × XpNlMsg → Prop
  | (kernel, .trapSet msg) => TakesId kernel msg drv.trapTable
  | _ => False

theorem ownRc_callHandler (drv : Driver) (req : Kernel × XpNlMsg) (own : OwnRc drv.trapTable) :
    OwnRc (callHandler hashMin req.1 drv req.2).trapTable ↔ ¬ TakesTrapId drv req := by
  obtain ⟨kernel, msg⟩ := req
  rw [callHandler_trapTable]
  cases msg with
  | trapSet msg => exact ownRc_trap own
  | _ => exact iff_of_true own id

/-- In every state of a run each reason code's lookup is `NULL` or a configuration
of its own, exactly when no message of the run stores an entry under the trap id
that another reason code has in the table it finds. -/
theorem trap_lookups_own_iff (hashMin : UInt32 → Bucket) (reqs : List (Kernel × XpNlMsg)) :
    (∀ done, done <+: reqs → OwnRc (callHandlers hashMin .start done).trapTable) ↔
      ∀ done req, done ++ [req] <+: reqs →
        ¬ TakesTrapId (callHandlers hashMin .start done) req :=
  history_keeps_iff (I := fun drv : Driver => OwnRc drv.trapTable)
    (G := fun drv req => ¬ TakesTrapId drv req) ownRc_xpTrapInit ownRc_callHandler reqs

/-- A kernel that grants everything. -/
def grantingKernel : Kernel where
  allocNetdev live := ⟨live.sum + 1, fun h =>
    Nat.not_succ_le_self _ (List.single_le_sum (fun _ _ => Nat.zero_le _) _ h)⟩
  registerNetdev _ := 0
  kmalloc := true
  sockfdLookup fd := (some fd.toNat, 0)

/-- Trap id 5 given to reason code 1 and then to reason code 2: packets of reason
code 1 find the trap of reason code 2. -/
theorem trap_of_other_rc :
    ¬ OwnRc (callHandlers (fun _ => 0) .start
      [(grantingKernel, .trapSet ⟨1, 0, 1, 5, xpNlOperationAdd⟩),
        (grantingKernel, .trapSet ⟨2, 0, 1, 5, xpNlOperationAdd⟩)]).trapTable := by
  intro own
  exact absurd (own 1 _ rfl) (by decide)

end Runs

end XpNet.Intf

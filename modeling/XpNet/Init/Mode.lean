/-
The state of `xp_netdev_intf.c` that the network devices share, with
`xp_netdev_mode_init` and `xp_netdev_mode_deinit`, which the init and the deinit
of every device call: the trap table, the netlink registration and the client
socket.

The module has one of each, and nobody counts the devices that use it: a second
init puts an empty trap table in the place of the first one, and none at all when
it fails.
-/

import XpNet.Intf.Trap

namespace XpNet.Init

open XpNet.Intf (XpTrapTable xpTrapInit enomem)

/-- `trap_table`, with `none` for `NULL`; whether `xp_net_ops` is registered;
whether `client_socket` is an open socket. -/
structure ModeState where
  trapTable : Option XpTrapTable
  xpNetOps : Bool
  clientSocket : Bool

/-- The state when the module is loaded. -/
def modeless : ModeState := ⟨none, false, false⟩

/-- What the kernel answers to `xp_netdev_mode_init`. -/
structure ModeKernel where
  kmalloc : Bool
  registerPernetSubsys : Int
  sockCreate : Int
  bind : Int

/-- `xp_trap_deinit`, of a table that is not `NULL`. -/
def xpTrapDeinit (mode : ModeState) : ModeState := { mode with trapTable := none }

/-- `xp_client_sock_init`; a socket that cannot be bound is released. -/
def xpClientSockInit (kernel : ModeKernel) (mode : ModeState) : Int × ModeState :=
  if kernel.sockCreate < 0 then (kernel.sockCreate, mode)
  else if kernel.bind < 0 then (kernel.bind, { mode with clientSocket := false })
  else (0, { mode with clientSocket := true })

/-- `xp_netdev_mode_init`. -/
def xpNetdevModeInit (kernel : ModeKernel) (mode : ModeState) : Int × ModeState :=
  if !kernel.kmalloc then (-enomem, { mode with trapTable := none })
  else
    let mode := { mode with trapTable := some xpTrapInit }
    if kernel.registerPernetSubsys < 0 then (kernel.registerPernetSubsys, xpTrapDeinit mode)
    else
      let (rc, mode) := xpClientSockInit kernel { mode with xpNetOps := true }
      if rc < 0 then (rc, xpTrapDeinit { mode with xpNetOps := false }) else (0, mode)

/-- `xp_netdev_mode_deinit`; without a trap table it takes the lock of `NULL` and
does not return. -/
def xpNetdevModeDeinit (mode : ModeState) : Option ModeState :=
  mode.trapTable.map fun _ => { xpTrapDeinit mode with xpNetOps := false, clientSocket := false }

/-- The kernel gives `xp_netdev_mode_init` all it asks for. -/
def ModeKernel.Grants (kernel : ModeKernel) : Prop :=
  kernel.kmalloc = true ∧ 0 ≤ kernel.registerPernetSubsys ∧ 0 ≤ kernel.sockCreate ∧
    0 ≤ kernel.bind

instance (kernel : ModeKernel) : Decidable kernel.Grants := inferInstanceAs (Decidable (_ ∧ _))

section ModeInit

variable {kernel : ModeKernel} (mode : ModeState)

theorem xpNetdevModeInit_grants (h : kernel.Grants) :
    xpNetdevModeInit kernel mode = (0, ⟨some xpTrapInit, true, true⟩) := by
  obtain ⟨hmem, hreg, hsock, hbind⟩ := h
  simp [xpNetdevModeInit, xpClientSockInit, hmem, not_lt.mpr hreg, not_lt.mpr hsock,
    not_lt.mpr hbind]

/-- A mode init that fails says so and leaves no trap table; where nothing was
registered or open before, nothing is. -/
theorem xpNetdevModeInit_fails (h : ¬ kernel.Grants) :
    (xpNetdevModeInit kernel mode).1 < 0 ∧
      (xpNetdevModeInit kernel mode).2.trapTable = none ∧
      (xpNetdevModeInit kernel modeless).2 = modeless := by
  have henomem : 0 < enomem := by decide
  unfold xpNetdevModeInit
  by_cases hmem : kernel.kmalloc = true
  · by_cases hreg : kernel.registerPernetSubsys < 0
    · simp [hmem, hreg, xpTrapDeinit, modeless]
    · by_cases hsock : kernel.sockCreate < 0
      · simp [hmem, hreg, hsock, xpClientSockInit, xpTrapDeinit, modeless]
      · have hbind : kernel.bind < 0 := by
          by_contra hbind
          exact h ⟨hmem, not_lt.mp hreg, not_lt.mp hsock, not_lt.mp hbind⟩
        simp [hmem, hreg, hsock, hbind, xpClientSockInit, xpTrapDeinit, modeless]
  · simp [hmem, henomem, modeless]

end ModeInit

end XpNet.Init

/-
`xp_pci_probe` and `xp_pci_remove`, as the calls they make for every answer of
the kernel, and device interrupts between any two of these calls.

An interrupt handler can run from `request_irq` to `free_irq`. What it uses is
there only from `spin_lock_init`, the last of the set-up calls, to `pci_iounmap`,
which comes before `free_irq`; and no failing path of the probe frees an interrupt
again. So a handler that runs has what it uses exactly when it runs between those
two calls (`msi_handlers_safe_iff`).
-/

import XpNet.CallOrder
import XpNet.Common
import XpNet.Histories
import XpNet.Pci.Regs

namespace XpNet.Pci

open XpNet.Intf (enomem einval)

def enodev : Int := 19

/-! ### Calls -/

/-- The two interrupt vectors. -/
inductive Vector where
  | high
  | low
  deriving DecidableEq, Repr

/-- What probe and remove do to the device's resources, each done once it has
succeeded. -/
inductive PciCall where
  | kzalloc
  | pciEnableDevice
  | pciRequestRegions
  | pciSetMaster
  | pciSaveState
  | pciSetDrvdata
  | pciEnableMsi
  | createWorkqueue
  | requestIrq (v : Vector)
  | pciIomap
  | setMode (mode : AddressMode)
  | cdevAdd
  | deviceCreate
  | spinLockInit
  | procCreate
  | setDevPtr
  | xpNetdevDeinit
  | deviceDestroy
  | cdevDel
  | pciIounmap
  | pciReleaseRegion
  | releaseRegion
  | pciDisableDevice
  | freeIrq (v : Vector)
  | pciDisableMsi
  | flushWorkqueue
  | destroyWorkqueue
  | procRemove
  | kfree
  | unregisterChrdev
  | clearDevPtr
  deriving DecidableEq, Repr

/-- What the kernel answers to one probe, and `isr_enable` and the minor number it
finds. `enableMsi` is asked for `INTR_COUNT` vectors first. -/
structure ProbeKernel where
  isrEnable : Bool
  minor : Nat
  kzalloc : Bool
  pciEnableDevice : Int
  pciRequestRegions : Int
  pciSetDmaMask : Int
  pciSetConsistentDmaMask : Int
  pciSetDmaMask32 : Int
  pciSetConsistentDmaMask32 : Int
  pciIsPcie : Bool
  pciSaveState : Int
  enableMsi : Int → Int
  createWorkqueue : Bool
  requestIrq : Vector → Int
  mmioLen : Nat
  pciIomap : Bool
  devId : Nat
  cdevAdd : Int
  deviceCreate : Bool
  procCreate : Bool

/-! ### `xp_pci_probe` -/

/-- `INTR_COUNT`. -/
def intrCount : Int := 2

section Probe

variable (kernel : ProbeKernel)

/-- `rc` after the DMA masks are set, and whether the probe gives up there. -/
def dmaMaskRc : Int × Bool :=
  if kernel.pciSetDmaMask = 0 then
    (kernel.pciSetConsistentDmaMask, kernel.pciSetConsistentDmaMask ≠ 0)
  else if kernel.pciSetDmaMask32 = 0 then
    (kernel.pciSetConsistentDmaMask32, kernel.pciSetConsistentDmaMask32 ≠ 0)
  else (kernel.pciSetDmaMask32, false)

/-- `msi_count`: the answer to the request for both vectors. -/
def msiCount : Int := kernel.enableMsi intrCount

/-- `priv->msi_fail` after the one or two requests for vectors. -/
def msiFail : Bool :=
  decide (msiCount kernel < 0) ||
    (decide (msiCount kernel ≠ 0 ∧ msiCount kernel < intrCount) &&
      decide (kernel.enableMsi (msiCount kernel) < 0))

/-- There is a `priv->w_queue`. -/
def hasWQueue : Bool := kernel.isrEnable && !msiFail kernel && kernel.createWorkqueue

/-- `err_free_memory`. -/
def errFreeMemory (wQueue : Bool) : List PciCall :=
  if wQueue then [.flushWorkqueue, .destroyWorkqueue, .kfree] else []

/-- `err_req_region` and `err_dma`. -/
def errReqRegion (wQueue : Bool) : List PciCall := .pciDisableDevice :: errFreeMemory wQueue
/-- `cleanup_ports`. -/
def cleanupPorts (wQueue : Bool) : List PciCall := .releaseRegion :: errReqRegion wQueue
/-- `err_pci_iomap`. -/
def errPciIomap (wQueue : Bool) : List PciCall := .pciReleaseRegion :: cleanupPorts wQueue
/-- `err_cdev_add`. -/
def errCdevAdd (wQueue : Bool) : List PciCall := .pciIounmap :: errPciIomap wQueue
/-- `err_device_create`. -/
def errDeviceCreate (wQueue : Bool) : List PciCall := .cdevDel :: errCdevAdd wQueue

/-- The block under `if (isr_enable)`: its calls, and the error with which it
gives up. -/
def probeMsi : Option Int × List PciCall :=
  if !kernel.isrEnable then (none, [])
  else if msiFail kernel then (none, [])
  else
    let calls := [PciCall.pciEnableMsi] ++
      if kernel.createWorkqueue then [PciCall.createWorkqueue] else []
    if kernel.requestIrq .high ≠ 0 then (some (-enodev), calls)
    else
      let calls := calls ++ [PciCall.requestIrq .high]
      if msiCount kernel = 0 ∧ kernel.requestIrq .low = 0 then
        (none, calls ++ [PciCall.requestIrq .low])
      else (none, calls)

/-- `priv->mode` from the device id and the length of the mapped region. -/
def probeMode : Option AddressMode :=
  if kernel.devId = 0xF000 then some .a0Uncompressed
  else if kernel.devId = 0xF008 ∨ kernel.devId = 0xF009 then
    if kernel.mmioLen / (1024 * 1024) = 64 then some .b0Compressed else some .b0Uncompressed
  else none

/-- The second half of the probe, from the region on: the registers, the mode, the
device node and what comes after it. -/
def probeMap : Int × List PciCall :=
  let wQueue := hasWQueue kernel
  if kernel.mmioLen = 0 then (-enomem, cleanupPorts wQueue)
  else if !kernel.pciIomap then (-enomem, errPciIomap wQueue)
  else
    match probeMode kernel with
    | none => (-efault, .pciIomap :: errFreeMemory wQueue)
    | some mode =>
        if kernel.cdevAdd ≠ 0 then
          (kernel.cdevAdd, [PciCall.pciIomap, .setMode mode] ++ errCdevAdd wQueue)
        else if !kernel.deviceCreate then
          -- `rc` is still that of `cdev_add`
          (0, [PciCall.pciIomap, .setMode mode, .cdevAdd] ++ errDeviceCreate wQueue)
        else
          (0, [PciCall.pciIomap, .setMode mode, .cdevAdd, .deviceCreate, .spinLockInit] ++
            (if kernel.procCreate then [PciCall.procCreate] else []) ++
            (if kernel.minor < maxDevSupported then [PciCall.setDevPtr] else []))

/-- `xp_pci_probe(pdev, id)`: its result and the calls it makes. -/
def xpPciProbe : Int × List PciCall :=
  if kernel.minor > 1048574 then (-einval, [])
  else if !kernel.kzalloc then (-enomem, [])
  else if kernel.pciEnableDevice ≠ 0 then (-efault, .kzalloc :: errFreeMemory false)
  else if kernel.pciRequestRegions ≠ 0 then
    (-enomem, [PciCall.kzalloc, .pciEnableDevice] ++ errReqRegion false)
  else
    let calls := [PciCall.kzalloc, .pciEnableDevice, .pciRequestRegions]
    if (dmaMaskRc kernel).2 then ((dmaMaskRc kernel).1, calls ++ errReqRegion false)
    else
      let calls := calls ++ [PciCall.pciSetMaster]
      if !kernel.pciIsPcie then (-efault, calls ++ errFreeMemory false)
      else if kernel.pciSaveState ≠ 0 then (-efault, calls ++ errFreeMemory false)
      else
        let calls := calls ++ [PciCall.pciSaveState, .pciSetDrvdata]
        match probeMsi kernel with
        | (some rc, msiCalls) => (rc, calls ++ msiCalls ++ errFreeMemory (hasWQueue kernel))
        | (none, msiCalls) =>
            let r := probeMap kernel
            (r.1, calls ++ msiCalls ++ r.2)

/-- `xp_pci_remove(pdev)` of a device with these answers. -/
def xpPciRemove : List PciCall :=
  [PciCall.xpNetdevDeinit, .deviceDestroy, .cdevDel, .pciIounmap, .pciReleaseRegion] ++
    (if kernel.isrEnable && !msiFail kernel then
      [PciCall.freeIrq .high] ++ (if msiCount kernel = 0 then [PciCall.freeIrq .low] else []) ++
        [PciCall.pciDisableMsi, .flushWorkqueue, .destroyWorkqueue]
    else []) ++
    (if kernel.procCreate then [PciCall.procRemove] else []) ++
    [PciCall.kfree, .pciDisableDevice, .unregisterChrdev] ++
    (if kernel.minor < maxDevSupported then [PciCall.clearDevPtr] else [])

/-- The calls of a device's life: the probe, and the removal of a device whose
probe has returned zero. -/
def pciCalls : List PciCall :=
  (xpPciProbe kernel).2 ++ if (xpPciProbe kernel).1 = 0 then xpPciRemove kernel else []

end Probe

/-! ### Interrupts -/

/-- The calls made so far and the handlers that are running. -/
structure PciState where
  done : List PciCall
  running : Vector → Bool

/-- What happens to a device: a call of probe or remove, an interrupt that starts a
handler, or the end of a handler. -/
inductive PciEvent where
  | call (c : PciCall)
  | interrupt (v : Vector)
  | handled (v : Vector)
  deriving DecidableEq, Repr

/-- The handler of a vector has been registered and not freed. -/
def Registered (done : List PciCall) (v : Vector) : Prop :=
  .requestIrq v ∈ done ∧ .freeIrq v ∉ done

instance (done : List PciCall) (v : Vector) : Decidable (Registered done v) :=
  inferInstanceAs (Decidable (_ ∧ _))

/-- `free_irq` returns only when the handler it frees is not running. -/
def Waits (running : Vector → Bool) : PciCall → Prop
  | .freeIrq v => running v = false
  | _ => True

instance (running : Vector → Bool) : DecidablePred (Waits running)
  | .freeIrq v => inferInstanceAs (Decidable (running v = false))
  | .kzalloc | .pciEnableDevice | .pciRequestRegions | .pciSetMaster | .pciSaveState
  | .pciSetDrvdata | .pciEnableMsi | .createWorkqueue | .requestIrq _ | .pciIomap
  | .setMode _ | .cdevAdd | .deviceCreate | .spinLockInit | .procCreate | .setDevPtr
  | .xpNetdevDeinit | .deviceDestroy | .cdevDel | .pciIounmap | .pciReleaseRegion
  | .releaseRegion | .pciDisableDevice | .pciDisableMsi | .flushWorkqueue
  | .destroyWorkqueue | .procRemove | .kfree | .unregisterChrdev | .clearDevPtr =>
      inferInstanceAs (Decidable True)

/-- What can happen next to a device with these calls before it. -/
def Enabled (calls : List PciCall) (s : PciState) : PciEvent → Prop
  | .call c => s.done ++ [c] <+: calls ∧ Waits s.running c
  | .interrupt v => Registered s.done v
  | .handled _ => True

instance (calls : List PciCall) (s : PciState) : DecidablePred (Enabled calls s)
  | .call c => inferInstanceAs (Decidable (s.done ++ [c] <+: calls ∧ Waits s.running c))
  | .interrupt v => inferInstanceAs (Decidable (Registered s.done v))
  | .handled _ => inferInstanceAs (Decidable True)

/-- What an event changes. -/
def PciState.after (s : PciState) : PciEvent → PciState
  | .call c => { s with done := s.done ++ [c] }
  | .interrupt v => { s with running := Function.update s.running v true }
  | .handled v => { s with running := Function.update s.running v false }

/-- One event; one that cannot happen changes nothing. -/
def pciStep (calls : List PciCall) (s : PciState) (e : PciEvent) : PciState :=
  if Enabled calls s e then s.after e else s

/-- The device after some events, of which the calls are those of its life. -/
def pciHistory (kernel : ProbeKernel) (events : List PciEvent) : PciState :=
  history (pciStep (pciCalls kernel)) ⟨[], fun _ => false⟩ events

/-- What a handler uses is there: `priv` is allocated, `priv->vma` mapped,
`priv->mode` determined and the lock initialised. -/
structure Usable (done : List PciCall) : Prop where
  allocated : .kzalloc ∈ done ∧ .kfree ∉ done
  mapped : .pciIomap ∈ done ∧ .pciIounmap ∉ done
  mode : ∃ mode, .setMode mode ∈ done
  lock : .spinLockInit ∈ done

/-- Every handler that runs has what it uses. -/
def HandlersSafe (s : PciState) : Prop := ∀ v, s.running v = true → Usable s.done

/-- An event comes in time: an interrupt after the last call that sets up and before
the first that tears down what a handler uses, and that call when no handler runs. -/
def InTime (s : PciState) : PciEvent → Prop
  | .interrupt _ => .spinLockInit ∈ s.done ∧ .pciIounmap ∉ s.done
  | .call .pciIounmap => ∀ v, s.running v = false
  | _ => True

/-! ### The order of the calls -/

section Order

variable {kernel : ProbeKernel}

section Labels

variable (wQueue : Bool)

@[simp] theorem not_mem_errFreeMemory : PciCall.spinLockInit ∉ errFreeMemory wQueue := by
  cases wQueue <;> decide
@[simp] theorem not_mem_errReqRegion : PciCall.spinLockInit ∉ errReqRegion wQueue := by
  simp [errReqRegion]
@[simp] theorem not_mem_cleanupPorts : PciCall.spinLockInit ∉ cleanupPorts wQueue := by
  simp [cleanupPorts]
@[simp] theorem not_mem_errPciIomap : PciCall.spinLockInit ∉ errPciIomap wQueue := by
  simp [errPciIomap]
@[simp] theorem not_mem_errCdevAdd : PciCall.spinLockInit ∉ errCdevAdd wQueue := by
  simp [errCdevAdd]
@[simp] theorem not_mem_errDeviceCreate : PciCall.spinLockInit ∉ errDeviceCreate wQueue := by
  simp [errDeviceCreate]

end Labels

/-- The interrupts are registered among calls that set nothing else up. -/
theorem probeMsi_calls {c : PciCall} (h : c ∈ (probeMsi kernel).2) :
    c = .pciEnableMsi ∨ c = .createWorkqueue ∨ ∃ v, c = .requestIrq v := by
  have hqueue : c ∈ (if kernel.createWorkqueue then [PciCall.createWorkqueue] else []) →
      c = .createWorkqueue := by
    split <;> simp
  unfold probeMsi at h
  simp only [List.singleton_append] at h
  split at h
  · cases h
  split at h
  · cases h
  split at h
  · rcases List.mem_cons.mp h with rfl | h
    · exact .inl rfl
    · exact .inr (.inl (hqueue h))
  have hfirst : c ∈ (PciCall.pciEnableMsi ::
      if kernel.createWorkqueue then [PciCall.createWorkqueue] else []) ++
        [PciCall.requestIrq .high] →
      c = .pciEnableMsi ∨ c = .createWorkqueue ∨ ∃ v, c = .requestIrq v := by
    intro h
    rcases List.mem_append.mp h with h | h
    · rcases List.mem_cons.mp h with rfl | h
      · exact .inl rfl
      · exact .inr (.inl (hqueue h))
    · exact .inr (.inr ⟨_, List.mem_singleton.mp h⟩)
  split at h
  · rcases List.mem_append.mp h with h | h
    · exact hfirst h
    · exact .inr (.inr ⟨_, List.mem_singleton.mp h⟩)
  · exact hfirst h

/-- The second half of the probe fails before it initialises the lock, or it
succeeds with the registers mapped and the mode set before. -/
theorem probeMap_calls (kernel : ProbeKernel) :
    PciCall.spinLockInit ∉ (probeMap kernel).2 ∨
    ((probeMap kernel).1 = 0 ∧ ∃ mode post,
      (probeMap kernel).2 =
        [PciCall.pciIomap, .setMode mode, .cdevAdd, .deviceCreate] ++ .spinLockInit :: post ∧
      ∀ c ∈ post, c = .procCreate ∨ c = .setDevPtr) := by
  unfold probeMap
  simp only
  split
  · exact .inl (by simp)
  split
  · exact .inl (by simp)
  split
  · exact .inl (by simp)
  split
  · exact .inl (by simp)
  split
  · exact .inl (by simp)
  · rename_i mode _ _ _
    refine .inr ⟨rfl, mode, (if kernel.procCreate then [PciCall.procCreate] else []) ++
      (if kernel.minor < maxDevSupported then [PciCall.setDevPtr] else []),
      by simp only [List.cons_append, List.nil_append], ?_⟩
    intro c hc
    rcases List.mem_append.mp hc with hc | hc
    · split at hc
      · exact .inl (List.mem_singleton.mp hc)
      · cases hc
    · split at hc
      · exact .inr (List.mem_singleton.mp hc)
      · cases hc

/-- A probe fails before it initialises the lock, or it succeeds: everything a
handler uses is set up before that call, and nothing of it torn down after. -/
theorem xpPciProbe_calls (kernel : ProbeKernel) :
    PciCall.spinLockInit ∉ (xpPciProbe kernel).2 ∨
    ((xpPciProbe kernel).1 = 0 ∧ ∃ mode pre post,
      (xpPciProbe kernel).2 = pre ++ .spinLockInit :: post ∧
      (.kzalloc ∈ pre ∧ .pciIomap ∈ pre ∧ .setMode mode ∈ pre) ∧ .spinLockInit ∉ pre ∧
      ∀ c, c = .kfree ∨ c = .pciIounmap → c ∉ pre ∧ c ∉ post) := by
  unfold xpPciProbe
  simp only
  split
  · exact .inl (by simp)
  split
  · exact .inl (by simp)
  split
  · exact .inl (by simp)
  split
  · exact .inl (by simp)
  split
  · exact .inl (by simp)
  split
  · exact .inl (by simp)
  split
  · exact .inl (by simp)
  -- the interrupts are registered by now, and what comes next decides
  have hmsi (c : PciCall) (hc : c = .spinLockInit ∨ c = .kfree ∨ c = .pciIounmap) :
      c ∉ (probeMsi kernel).2 := by
    intro hmem
    rcases probeMsi_calls hmem with rfl | rfl | ⟨v, rfl⟩ <;> simp at hc
  split
  · rename_i rc msiCalls heq
    rw [heq] at hmsi
    exact .inl (by simp [hmsi])
  · rename_i msiCalls heq
    rw [heq] at hmsi
    rcases probeMap_calls kernel with hnone | ⟨hrc, mode, post, hcalls, hpost⟩
    · exact .inl (by simp [hmsi, hnone])
    · refine .inr ⟨hrc, mode, [PciCall.kzalloc, .pciEnableDevice, .pciRequestRegions,
        .pciSetMaster, .pciSaveState, .pciSetDrvdata] ++ msiCalls ++
        [PciCall.pciIomap, .setMode mode, .cdevAdd, .deviceCreate], post, ?_, ?_, ?_, ?_⟩
      · simp only [hcalls, List.append_assoc, List.cons_append, List.nil_append]
      · simp
      · simp [hmsi]
      · intro c hc
        constructor
        · have hnot := hmsi c (.inr hc)
          rcases hc with rfl | rfl
          · simpa using hnot
          · simpa using hnot
        · intro hmem
          rcases hpost c hmem with rfl | rfl <;> simp at hc

/-- The calls of a device's life around the time that its handlers are for. -/
theorem pciCalls_split (kernel : ProbeKernel) :
    PciCall.spinLockInit ∉ pciCalls kernel ∨
    ∃ mode pre mid post, pciCalls kernel = (pre ++ .spinLockInit :: mid) ++ .pciIounmap :: post ∧
      (.kzalloc ∈ pre ∧ .pciIomap ∈ pre ∧ .setMode mode ∈ pre) ∧ .spinLockInit ∉ pre ∧
      .kfree ∉ pre ++ .spinLockInit :: mid := by
  have hremove : PciCall.spinLockInit ∉ xpPciRemove kernel := by
    unfold xpPciRemove
    simp only [List.mem_append, not_or]
    refine ⟨⟨⟨⟨by simp, ?_⟩, ?_⟩, by simp⟩, ?_⟩
    · split
      · split <;> simp
      · simp
    · split <;> simp
    · split <;> simp
  unfold pciCalls
  rcases xpPciProbe_calls kernel with hnone | ⟨hrc, mode, pre, post, hcalls, hset, hlock, hkeep⟩
  · refine .inl ?_
    split
    · simp [hnone, hremove]
    · simpa using hnone
  · obtain ⟨rest, hrest⟩ : ∃ rest, xpPciRemove kernel =
        [PciCall.xpNetdevDeinit, .deviceDestroy, .cdevDel] ++ .pciIounmap :: rest :=
      ⟨_, by simp only [xpPciRemove, List.append_assoc, List.cons_append, List.nil_append]; rfl⟩
    refine .inr ⟨mode, pre, post ++ [.xpNetdevDeinit, .deviceDestroy, .cdevDel], rest, ?_, hset,
      hlock, ?_⟩
    · simp only [if_pos hrc, hcalls, hrest, List.append_assoc, List.cons_append]
    · have hkfree := hkeep .kfree (.inl rfl)
      simp [hkfree]

/-! ### Handlers that run -/

/-- At every point of a device's life, what a handler uses is there exactly from
`spin_lock_init` to `pci_iounmap`. -/
theorem usable_iff {done : List PciCall} (hbegin : done <+: pciCalls kernel) :
    Usable done ↔ .spinLockInit ∈ done ∧ .pciIounmap ∉ done := by
  constructor
  · exact fun usable => ⟨usable.lock, usable.mapped.2⟩
  · rintro ⟨hlock, hmapped⟩
    rcases pciCalls_split kernel with hnone | ⟨mode, pre, mid, post, heq, hset, hpre, hkfree⟩
    · exact absurd (hbegin.subset hlock) hnone
    rw [heq] at hbegin
    -- the calls so far end before the registers are unmapped ...
    have hbefore : done <+: pre ++ .spinLockInit :: mid := by
      rcases begins_append hbegin with hshort | ⟨rest, rfl, hrest⟩
      · exact hshort
      · cases rest with
        | nil => exact (List.append_nil _).symm ▸ List.prefix_refl _
        | cons c rest =>
            obtain ⟨rfl, -⟩ := List.cons_prefix_cons.mp hrest
            exact absurd (by simp) hmapped
    -- ... and after everything that comes before the lock
    have hafter : pre ⊆ done := by
      rcases begins_append hbefore with hshort | ⟨rest, rfl, -⟩
      · exact absurd (hshort.subset hlock) hpre
      · exact List.subset_append_left _ _
    exact {
      allocated := ⟨hafter hset.1, fun hmem => hkfree (hbefore.subset hmem)⟩
      mapped := ⟨hafter hset.2.1, hmapped⟩
      mode := ⟨mode, hafter hset.2.2⟩
      lock := hlock }

/-- What an event in time keeps: the calls so far are the first of the device's
life, and the handlers are safe. -/
theorem handlersSafe_keeps {s : PciState} {e : PciEvent}
    (hs : s.done <+: pciCalls kernel ∧ HandlersSafe s) (he : Enabled (pciCalls kernel) s e)
    (htime : InTime s e) :
    (s.after e).done <+: pciCalls kernel ∧ HandlersSafe (s.after e) := by
  obtain ⟨hbegin, hsafe⟩ := hs
  cases e with
  | call c =>
      refine ⟨he.1, fun v hv => (usable_iff he.1).mpr ?_⟩
      obtain ⟨hlock, hmapped⟩ := (usable_iff hbegin).mp (hsafe v hv)
      refine ⟨List.mem_append_left _ hlock, fun hmem => ?_⟩
      rcases List.mem_append.mp hmem with hmem | hmem
      · exact hmapped hmem
      · cases List.mem_singleton.mp hmem
        exact absurd hv (Bool.eq_false_iff.mp (htime v))
  | interrupt v => exact ⟨hbegin, fun _ _ => (usable_iff hbegin).mpr htime⟩
  | handled v =>
      refine ⟨hbegin, fun w hw => hsafe w ?_⟩
      by_cases heq : w = v
      · subst heq
        exact absurd hw (by simp [PciState.after])
      · simpa [PciState.after, heq] using hw

/-- An event that is not in time leaves a handler without what it uses. -/
theorem handlersSafe_breaks {s : PciState} {e : PciEvent}
    (hbegin : s.done <+: pciCalls kernel) (he : Enabled (pciCalls kernel) s e)
    (hlate : ¬ InTime s e) : ¬ HandlersSafe (s.after e) := by
  intro hsafe
  cases e with
  | interrupt v =>
      exact hlate ((usable_iff hbegin).mp (hsafe v (by simp [PciState.after])))
  | handled v => exact hlate trivial
  | call c =>
      by_cases hc : c = .pciIounmap
      · subst hc
        obtain ⟨v, hv⟩ := not_forall.mp hlate
        exact (hsafe v (Bool.eq_true_of_not_eq_false hv)).mapped.2 (by simp [PciState.after])
      · exact hlate (by unfold InTime; split <;> simp_all)

/-- **When interrupt handlers run.** For every kernel and in every interleaving of a
probe, and of a removal if it succeeds, with device interrupts: in every state the
running handlers have what they use exactly when every event that happens comes in
time. -/
theorem msi_handlers_safe_iff (kernel : ProbeKernel) (events : List PciEvent) :
    (∀ done, done <+: events → HandlersSafe (pciHistory kernel done)) ↔
      ∀ done e, done ++ [e] <+: events →
        Enabled (pciCalls kernel) (pciHistory kernel done) e →
        InTime (pciHistory kernel done) e := by
  refine history_iff (I := fun s => s.done <+: pciCalls kernel ∧ HandlersSafe s)
    (G := fun s e => Enabled (pciCalls kernel) s e → InTime s e)
    ⟨List.nil_prefix, fun v hv => by cases hv⟩ (fun _ hs => hs.2) ?_ ?_ events
  · intro s e hs htime
    unfold pciStep
    split
    case isTrue he => exact handlersSafe_keeps hs he (htime he)
    case isFalse => exact hs
  · intro s e hs hlate
    obtain ⟨he, hlate⟩ := Classical.not_imp.mp hlate
    rw [pciStep, if_pos he]
    exact handlersSafe_breaks hs.1 he hlate

end Order

/-- A kernel whose every call succeeds, for an A0 device. -/
def probeKernel : ProbeKernel where
  isrEnable := true
  minor := 0
  kzalloc := true
  pciEnableDevice := 0
  pciRequestRegions := 0
  pciSetDmaMask := 0
  pciSetConsistentDmaMask := 0
  pciSetDmaMask32 := 0
  pciSetConsistentDmaMask32 := 0
  pciIsPcie := true
  pciSaveState := 0
  enableMsi n := n
  createWorkqueue := true
  requestIrq _ := 0
  mmioLen := 256 * 1024 * 1024
  pciIomap := true
  devId := 0xF000
  cdevAdd := 0
  deviceCreate := true
  procCreate := true

/-- An interrupt right after the handler is registered: neither are the registers
mapped nor the mode known nor the lock initialised. -/
theorem interrupt_before_iomap :
    ¬ HandlersSafe (pciHistory probeKernel
      [.call .kzalloc, .call .pciEnableDevice, .call .pciRequestRegions, .call .pciSetMaster,
        .call .pciSaveState, .call .pciSetDrvdata, .call .pciEnableMsi,
        .call .createWorkqueue, .call (.requestIrq .high), .interrupt .high]) := by
  intro hsafe
  exact absurd (hsafe .high (by decide +kernel)).mapped.1 (by decide +kernel)

end XpNet.Pci

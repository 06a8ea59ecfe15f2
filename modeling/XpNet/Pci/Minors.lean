/-
Minor numbers, slots of `xp_pcie_dev_ptr` and the `dev_id` of interrupt events, over
every sequence of probes and removals.

The minor number comes from a counter that only grows, the array has eight slots, and
the event six bits. So a device is in its slot, and its events are its own, as long as
no probe that succeeds finds the counter at eight or more, which takes eight probes and
not eight devices; a probe that returns zero without a device node breaks it too
(`hotplug_identified_iff`).
-/

import XpNet.Histories
import XpNet.Pci.Irq
import XpNet.Pci.Probe

namespace XpNet.Pci

open XpNet.Intf (enomem einval)

/-! ### The probe -/

/-- The probe gets as far as the device node. -/
structure ProbeKernel.ReachesNode (kernel : ProbeKernel) : Prop where
  minor : kernel.minor ≤ 1048574
  kzalloc : kernel.kzalloc = true
  enabled : kernel.pciEnableDevice = 0
  regions : kernel.pciRequestRegions = 0
  dmaMask : (dmaMaskRc kernel).2 = false
  isPcie : kernel.pciIsPcie = true
  saved : kernel.pciSaveState = 0
  interrupts : kernel.isrEnable = true → msiFail kernel = false → kernel.requestIrq .high = 0
  mapped : kernel.mmioLen ≠ 0 ∧ kernel.pciIomap = true
  mode : probeMode kernel ≠ none
  cdevAdd : kernel.cdevAdd = 0

section Probe

variable {kernel : ProbeKernel}

/-- The block under `if (isr_enable)` gives up only when the first interrupt does. -/
theorem probeMsi_fst (kernel : ProbeKernel) :
    (probeMsi kernel).1 =
      if kernel.isrEnable = true ∧ msiFail kernel = false ∧ kernel.requestIrq .high ≠ 0 then
        some (-enodev)
      else none := by
  unfold probeMsi
  cases hisr : kernel.isrEnable with
  | false => simp
  | true =>
      cases hmsi : msiFail kernel with
      | true => simp
      | false =>
          by_cases hirq : kernel.requestIrq .high = 0
          · simp only [hirq, Bool.not_true, Bool.false_eq_true, if_false, ne_eq, not_true_eq_false,
              and_false]
            split <;> rfl
          · simp [hirq]

theorem probeMsi_none {c : PciCall} (hc : c = .spinLockInit ∨ c = .setDevPtr) :
    c ∉ (probeMsi kernel).2 := by
  intro hmem
  rcases probeMsi_calls hmem with rfl | rfl | ⟨v, rfl⟩ <;> simp at hc

theorem setDevPtr_not_mem_errFreeMemory (wQueue : Bool) :
    PciCall.setDevPtr ∉ errFreeMemory wQueue := by
  cases wQueue <;> decide

/-- A result and calls of a probe that fails: it neither counts nor registers the
device. -/
def GivesUp (r : Int × List PciCall) : Prop :=
  r.1 ≠ 0 ∧ PciCall.spinLockInit ∉ r.2 ∧ PciCall.setDevPtr ∉ r.2

/-- The second half of a probe that does not get to the node. -/
theorem probeMap_stops (kernel : ProbeKernel) (h : kernel.mmioLen = 0 ∨ kernel.pciIomap = false ∨
      probeMode kernel = none ∨ kernel.cdevAdd ≠ 0) : GivesUp (probeMap kernel) := by
  have hfree := setDevPtr_not_mem_errFreeMemory (hasWQueue kernel)
  unfold probeMap GivesUp
  simp only
  split
  · simp [cleanupPorts, errReqRegion, hfree, enomem]
  split
  · simp [errPciIomap, cleanupPorts, errReqRegion, hfree, enomem]
  split
  · simp [hfree, efault]
  split
  · rename_i hcdev
    simp [errCdevAdd, errPciIomap, cleanupPorts, errReqRegion, hfree, hcdev]
  · simp_all

/-- And of one that does. -/
theorem probeMap_reaches (hlen : kernel.mmioLen ≠ 0) (hmap : kernel.pciIomap = true)
    (hmode : probeMode kernel ≠ none) (hcdev : kernel.cdevAdd = 0) :
    (probeMap kernel).1 = 0 ∧
      (.spinLockInit ∈ (probeMap kernel).2 ↔ kernel.deviceCreate = true) ∧
      (.setDevPtr ∈ (probeMap kernel).2 ↔
        kernel.deviceCreate = true ∧ kernel.minor < maxDevSupported) := by
  have hfree := setDevPtr_not_mem_errFreeMemory (hasWQueue kernel)
  obtain ⟨mode, hmode⟩ := Option.ne_none_iff_exists'.mp hmode
  unfold probeMap
  simp only [hlen, hmap, hmode, hcdev, if_false, Bool.not_true, Bool.false_eq_true, ne_eq,
    not_true_eq_false]
  cases hnode : kernel.deviceCreate with
  | false =>
      simp [errDeviceCreate, errCdevAdd, errPciIomap, cleanupPorts, errReqRegion, hfree]
  | true =>
      simp

theorem dmaMaskRc_ne_zero (h : (dmaMaskRc kernel).2 = true) : (dmaMaskRc kernel).1 ≠ 0 := by
  unfold dmaMaskRc at h ⊢
  by_cases h64 : kernel.pciSetDmaMask = 0
  · rw [if_pos h64] at h ⊢
    exact of_decide_eq_true h
  rw [if_neg h64] at h ⊢
  by_cases h32 : kernel.pciSetDmaMask32 = 0
  · rw [if_pos h32] at h ⊢
    exact of_decide_eq_true h
  · rw [if_neg h32] at h
    cases h

/-- A probe that does not get to the node. -/
theorem xpPciProbe_stops (h : ¬ kernel.ReachesNode) : GivesUp (xpPciProbe kernel) := by
  have hfree := setDevPtr_not_mem_errFreeMemory (hasWQueue kernel)
  have hnone := setDevPtr_not_mem_errFreeMemory false
  have hlock : PciCall.spinLockInit ∉ (probeMsi kernel).2 := probeMsi_none (.inl rfl)
  have hptr : PciCall.setDevPtr ∉ (probeMsi kernel).2 := probeMsi_none (.inr rfl)
  have hmsi := probeMsi_fst kernel
  unfold xpPciProbe
  simp only
  split
  · simp [GivesUp, einval]
  split
  · simp [GivesUp, enomem]
  split
  · simp [GivesUp, efault, hnone]
  split
  · simp [GivesUp, enomem, errReqRegion, hnone]
  split
  · rename_i hmask
    simp [GivesUp, errReqRegion, hnone, dmaMaskRc_ne_zero hmask]
  split
  · simp [GivesUp, efault, hnone]
  split
  · simp [GivesUp, efault, hnone]
  split
  · rename_i rc msiCalls heq
    rw [heq] at hmsi hlock hptr
    have hrc : rc ≠ 0 := by
      split at hmsi
      · rw [Option.some.inj hmsi]
        decide
      · cases hmsi
    simp [GivesUp, hlock, hptr, hfree, hrc]
  · rename_i hminor halloc henable hregions hmask hpcie hsave _ msiCalls heq
    rw [heq] at hmsi hlock hptr
    -- only the second half is left to stop the probe
    obtain ⟨hrc, hcount, hslot⟩ := probeMap_stops kernel (by
      by_contra hmap
      simp only [not_or, Bool.not_eq_false, not_not] at hmap
      obtain ⟨hlen, hiomap, hmode, hcdev⟩ := hmap
      refine h {
        minor := Nat.not_lt.mp hminor
        kzalloc := by simpa using halloc
        enabled := not_not.mp henable
        regions := not_not.mp hregions
        dmaMask := Bool.not_eq_true _ ▸ hmask
        isPcie := by simpa using hpcie
        saved := not_not.mp hsave
        interrupts := fun hisr hvectors => ?_
        mapped := ⟨hlen, hiomap⟩
        mode := hmode
        cdevAdd := hcdev }
      by_contra hirq
      rw [if_pos ⟨hisr, hvectors, hirq⟩] at hmsi
      cases hmsi)
    exact ⟨hrc, by simp [hlock, hcount], by simp [hptr, hslot]⟩

/-- One that does succeeds; it counts the device when it makes the node, and registers it
when there is a slot. -/
theorem xpPciProbe_reaches (h : kernel.ReachesNode) :
    (xpPciProbe kernel).1 = 0 ∧
      (.spinLockInit ∈ (xpPciProbe kernel).2 ↔ kernel.deviceCreate = true) ∧
      (.setDevPtr ∈ (xpPciProbe kernel).2 ↔
        kernel.deviceCreate = true ∧ kernel.minor < maxDevSupported) := by
  have hmsi : (probeMsi kernel).1 = none := by
    rw [probeMsi_fst, if_neg]
    rintro ⟨hisr, hvectors, hirq⟩
    exact hirq (h.interrupts hisr hvectors)
  have hlock : PciCall.spinLockInit ∉ (probeMsi kernel).2 := probeMsi_none (.inl rfl)
  have hptr : PciCall.setDevPtr ∉ (probeMsi kernel).2 := probeMsi_none (.inr rfl)
  obtain ⟨hrc, hcount, hslot⟩ := probeMap_reaches h.mapped.1 h.mapped.2 h.mode h.cdevAdd
  have hminor := Nat.not_lt.mpr h.minor
  unfold xpPciProbe
  simp only [gt_iff_lt, hminor, h.kzalloc, h.enabled, h.regions, h.dmaMask, h.isPcie, h.saved,
    if_false, Bool.not_true, Bool.false_eq_true, ne_eq, not_true_eq_false]
  split
  · rename_i rc msiCalls heq
    rw [heq] at hmsi
    cases hmsi
  · rename_i msiCalls heq
    rw [heq] at hlock hptr
    exact ⟨hrc, by simp [hlock, hcount], by simp [hptr, hslot]⟩

end Probe

/-! ### Events -/

/-- An event that a handler of the device with this minor number reports. -/
def EventOf (minor : Nat) (info : XpIntrInfo) : Prop :=
  ∃ (δ : Type) (regs : Registers δ) (priv : IrqPriv) (kmalloc : Nat → Bool) (stale : BitVec 32)
    (s : δ) (work : XpWork), priv.minor = minor ∧ work.siInt = info ∧
      (work ∈ (xpMsiIrqHandlerHigh regs priv kmalloc s).2.1 ∨
        work ∈ (xpMsiIrqHandlerLow regs priv kmalloc stale s).2.1)

section Events

variable {δ : Type} (regs : Registers δ) (priv : IrqPriv) (kmalloc : Nat → Bool)

/-- The works are of this device. -/
def OfDevice (works : List XpWork) : Prop :=
  ∀ work ∈ works, work.siInt.devId = BitVec.ofNat 6 priv.minor

variable {priv}

theorem irqBlocks_ofDevice (table : RegBlocks) (intrRegVal : Nat → BitVec 32) (blocks : List Nat)
    (queued : List XpWork) (h : OfDevice priv queued) :
    OfDevice priv (irqBlocks priv kmalloc table intrRegVal blocks queued).2 := by
  induction blocks generalizing queued with
  | nil => exact h
  | cons blockNum rest ih =>
      unfold irqBlocks
      split
      · split
        · refine ih _ fun work hwork => ?_
          rcases List.mem_append.mp hwork with hwork | hwork
          · exact h work hwork
          · rw [List.mem_singleton.mp hwork]
            rfl
        · exact h
      · exact ih _ h

theorem mgmtSources_ofDevice (sources : List Nat) (s : δ) :
    OfDevice priv (mgmtSources regs priv kmalloc sources s).2.1 := by
  induction sources generalizing s with
  | nil => exact fun _ hwork => absurd hwork List.not_mem_nil
  | cons i rest ih =>
      unfold mgmtSources
      dsimp only
      split
      · unfold mgmtReport
        split
        · exact fun _ hwork => absurd hwork List.not_mem_nil
        · intro work hwork
          rw [List.mem_singleton.mp hwork]
          rfl
      · exact ih _

theorem handleSummary_ofDevice (table : RegBlocks) (mgmtBit : Nat) (mgmtFailed failed : Int → Int)
    (regValue : Nat → BitVec 32) (s : δ) :
    OfDevice priv
      (handleSummary regs priv kmalloc table mgmtBit mgmtFailed failed regValue s).2.1 := by
  unfold handleSummary
  split
  · exact mgmtSources_ofDevice regs kmalloc _ s
  split
  · exact fun _ hwork => absurd hwork List.not_mem_nil
  · exact irqBlocks_ofDevice kmalloc table _ _ _ fun _ hwork => absurd hwork List.not_mem_nil

/-- The id in an event is the minor number, as far as six bits hold it. -/
theorem EventOf.devId {minor : Nat} {info : XpIntrInfo} (h : EventOf minor info) :
    info.devId.toNat = minor % 2 ^ 6 := by
  obtain ⟨δ, regs, priv, kmalloc, stale, s, work, rfl, rfl, hhigh | hlow⟩ := h
  · rw [handleSummary_ofDevice regs kmalloc _ _ _ _ _ _ work hhigh, BitVec.toNat_ofNat]
  · rw [handleSummary_ofDevice regs kmalloc _ _ _ _ _ _ work hlow, BitVec.toNat_ofNat]

end Events

/-! ### Probes and removals -/

variable {D : Type}

/-- What the driver keeps of its devices: the counter `minor`, `xp_pcie_dev_ptr`, and the
minor number in the `cdev` of each device that is bound. -/
structure DevTable (D : Type) where
  minor : Nat
  xpPcieDevPtr : Fin maxDevSupported → Option D
  cdevMinor : D → Option Nat

/-- A device is probed, with these answers, or removed. -/
inductive Hotplug (D : Type) where
  | probe (d : D) (kernel : ProbeKernel)
  | remove (d : D)

/-- The slot of a minor number is set; one beyond the array is not there. -/
def DevTable.setSlot (s : DevTable D) (minor : Nat) (d : Option D) :
    Fin maxDevSupported → Option D :=
  fun i => if i.val = minor then d else s.xpPcieDevPtr i

/-- One probe or removal. A device is probed when it is not bound, and bound when the
probe returns zero; the counter moves on in the path that initialises the lock. Only a
bound device is removed. -/
def hotplugStep [DecidableEq D] (s : DevTable D) : Hotplug D → DevTable D
  | .probe d kernel =>
      if (s.cdevMinor d).isSome then s
      else
        let r := xpPciProbe { kernel with minor := s.minor }
        { minor := if .spinLockInit ∈ r.2 then s.minor + 1 else s.minor
          xpPcieDevPtr :=
            if .setDevPtr ∈ r.2 then s.setSlot s.minor (some d) else s.xpPcieDevPtr
          cdevMinor :=
            if r.1 = 0 then Function.update s.cdevMinor d (some s.minor) else s.cdevMinor }
  | .remove d =>
      match s.cdevMinor d with
      | none => s
      | some minor =>
          { s with
            xpPcieDevPtr := if minor < maxDevSupported then s.setSlot minor none else s.xpPcieDevPtr
            cdevMinor := Function.update s.cdevMinor d none }

/-- The table when the driver is loaded. -/
def emptyTable : DevTable D := ⟨0, fun _ => none, fun _ => none⟩

/-- The table after some probes and removals. -/
def hotplug [DecidableEq D] (events : List (Hotplug D)) : DevTable D :=
  history hotplugStep emptyTable events

/-! ### What is promised -/

/-- A bound device is in exactly one slot and no other device is in any, and the id in
its events is its minor number and that of no other bound device. -/
structure Identified (s : DevTable D) : Prop where
  reachable : ∀ d, (s.cdevMinor d).isSome → ∃! i, s.xpPcieDevPtr i = some d
  bound : ∀ i d, s.xpPcieDevPtr i = some d → (s.cdevMinor d).isSome
  devId : ∀ d minor, s.cdevMinor d = some minor → ∀ info, EventOf minor info →
    info.devId.toNat = minor
  identifies : ∀ d minor, s.cdevMinor d = some minor → ∀ info, EventOf minor info →
    ∀ d' minor', s.cdevMinor d' = some minor' → ∀ info', EventOf minor' info' →
    info.devId = info'.devId → d = d'

/-- A probe that gets to the device node makes it, and there is a slot for its minor
number. -/
def InTable (s : DevTable D) : Hotplug D → Prop
  | .probe d kernel => s.cdevMinor d = none →
      ProbeKernel.ReachesNode { kernel with minor := s.minor } →
      kernel.deviceCreate = true ∧ s.minor < maxDevSupported
  | .remove _ => True

/-- The devices bound have the slots of their minor numbers, below the counter. -/
structure InSlots (s : DevTable D) : Prop where
  slot : ∀ d minor, s.cdevMinor d = some minor →
    minor < s.minor ∧ ∃ i : Fin maxDevSupported, i.val = minor ∧ s.xpPcieDevPtr i = some d
  bound : ∀ i d, s.xpPcieDevPtr i = some d → s.cdevMinor d = some i.val

section Table

variable {s : DevTable D}

theorem InSlots.identified (inSlots : InSlots s) : Identified s := by
  have hid : ∀ {d minor info}, s.cdevMinor d = some minor → EventOf minor info →
      info.devId.toNat = minor := by
    intro d minor info hd hevent
    obtain ⟨-, i, rfl, -⟩ := inSlots.slot d minor hd
    have hlt : i.val < 8 := i.isLt
    rw [hevent.devId]
    omega
  refine ⟨fun d hd => ?_, fun i d hi => ?_, fun d minor hd info => hid hd, ?_⟩
  · obtain ⟨minor, hd⟩ := Option.isSome_iff_exists.mp hd
    obtain ⟨-, i, rfl, hi⟩ := inSlots.slot d minor hd
    refine ⟨i, hi, fun j hj => Fin.ext ?_⟩
    have hsame := (inSlots.bound j d hj).symm.trans hd
    exact Option.some.inj hsame
  · rw [inSlots.bound i d hi]
    rfl
  · intro d minor hd info hevent d' minor' hd' info' hevent' heq
    have hminor : minor = minor' := by
      rw [← hid hd hevent, ← hid hd' hevent', heq]
    obtain ⟨-, i, rfl, hi⟩ := inSlots.slot d minor hd
    obtain ⟨-, j, rfl, hj⟩ := inSlots.slot d' minor' hd'
    obtain rfl := Fin.ext hminor
    exact Option.some.inj (hi.symm.trans hj)

theorem inSlots_emptyTable : InSlots (emptyTable : DevTable D) where
  slot _ _ h := by cases h
  bound _ _ h := by cases h

/-- What a slot holds after it was set. -/
theorem DevTable.setSlot_eq_some {minor : Nat} {d : Option D} {i : Fin maxDevSupported} {d' : D} :
    s.setSlot minor d i = some d' ↔
      (i.val = minor ∧ d = some d') ∨ (i.val ≠ minor ∧ s.xpPcieDevPtr i = some d') := by
  unfold DevTable.setSlot
  split
  · simp_all
  · simp_all

variable [DecidableEq D]

/-- A device that is removed leaves the slot of its minor number. -/
theorem InSlots.remove (inSlots : InSlots s) (d : D) : InSlots (hotplugStep s (.remove d)) := by
  cases hd : s.cdevMinor d with
  | none => simpa only [hotplugStep, hd] using inSlots
  | some minor =>
      obtain ⟨-, i, rfl, hi⟩ := inSlots.slot d minor hd
      simp only [hotplugStep, hd, i.isLt, if_true]
      constructor
      · intro d' minor' hd'
        obtain ⟨hne, hd'⟩ : d' ≠ d ∧ s.cdevMinor d' = some minor' := by
          by_cases heq : d' = d
          · subst heq
            simp at hd'
          · exact ⟨heq, by simpa [heq] using hd'⟩
        obtain ⟨hlt, j, rfl, hj⟩ := inSlots.slot d' minor' hd'
        refine ⟨hlt, j, rfl, DevTable.setSlot_eq_some.mpr (.inr ⟨fun hsame => hne ?_, hj⟩)⟩
        rw [Fin.ext hsame] at hj
        exact Option.some.inj (hj.symm.trans hi)
      · intro j d' hj
        rcases DevTable.setSlot_eq_some.mp hj with ⟨-, hnone⟩ | ⟨hother, hslot⟩
        · cases hnone
        · have hd' := inSlots.bound j d' hslot
          have hne : d' ≠ d := by
            rintro rfl
            exact hother (Option.some.inj (hd'.symm.trans hd))
          simpa [hne] using hd'

/-- A device that is bound with a node gets the slot of the next minor number, which is
free. -/
theorem InSlots.bind (inSlots : InSlots s) {d : D} (hnew : s.cdevMinor d = none)
    (hroom : s.minor < maxDevSupported) :
    InSlots ⟨s.minor + 1, s.setSlot s.minor (some d),
      Function.update s.cdevMinor d (some s.minor)⟩ := by
  constructor
  · intro d' minor' hd'
    by_cases heq : d' = d
    · subst heq
      obtain rfl : s.minor = minor' := by simpa using hd'
      exact ⟨Nat.lt_succ_self _, ⟨s.minor, hroom⟩, rfl,
        DevTable.setSlot_eq_some.mpr (.inl ⟨rfl, rfl⟩)⟩
    · obtain ⟨hlt, j, rfl, hj⟩ := inSlots.slot d' minor' (by simpa [heq] using hd')
      exact ⟨Nat.lt_succ_of_lt hlt, j, rfl, DevTable.setSlot_eq_some.mpr (.inr ⟨hlt.ne, hj⟩)⟩
  · intro j d' hj
    rcases DevTable.setSlot_eq_some.mp hj with ⟨hminor, heq⟩ | ⟨-, hslot⟩
    · cases heq
      simp [hminor]
    · have hd' := inSlots.bound j d' hslot
      have hne : d' ≠ d := by
        rintro rfl
        rw [hnew] at hd'
        cases hd'
      simpa [hne] using hd'

/-- The probe of a device that is not bound. -/
theorem hotplugStep_probe {d : D} (hnew : s.cdevMinor d = none) (kernel : ProbeKernel) :
    hotplugStep s (.probe d kernel) =
      let r := xpPciProbe { kernel with minor := s.minor }
      { minor := if .spinLockInit ∈ r.2 then s.minor + 1 else s.minor
        xpPcieDevPtr := if .setDevPtr ∈ r.2 then s.setSlot s.minor (some d) else s.xpPcieDevPtr
        cdevMinor :=
          if r.1 = 0 then Function.update s.cdevMinor d (some s.minor) else s.cdevMinor } := by
  simp only [hotplugStep, hnew, Option.isSome_none, Bool.false_eq_true, if_false]

/-- Events that stay in the table keep the devices in their slots. -/
theorem InSlots.step (inSlots : InSlots s) (e : Hotplug D) (hin : InTable s e) :
    InSlots (hotplugStep s e) := by
  cases e with
  | remove d => exact inSlots.remove d
  | probe d kernel =>
      cases hd : s.cdevMinor d with
      | some minor => simpa only [hotplugStep, hd, Option.isSome_some, if_true] using inSlots
      | none =>
          rw [hotplugStep_probe hd]
          by_cases hnode : ProbeKernel.ReachesNode { kernel with minor := s.minor }
          · obtain ⟨hcreate, hroom⟩ := hin hd hnode
            obtain ⟨hrc, hcount, hslot⟩ := xpPciProbe_reaches hnode
            simp only [hrc, if_true, hcount.mpr hcreate, hslot.mpr ⟨hcreate, hroom⟩]
            exact inSlots.bind hd hroom
          · obtain ⟨hrc, hcount, hslot⟩ := xpPciProbe_stops hnode
            simpa only [hrc, hcount, hslot, if_false] using inSlots

/-- A probe that leaves the table binds a device that no slot is for. -/
theorem InSlots.leaves (inSlots : InSlots s) (e : Hotplug D) (hout : ¬ InTable s e) :
    ¬ Identified (hotplugStep s e) := by
  cases e with
  | remove d => exact absurd trivial hout
  | probe d kernel =>
      simp only [InTable, Classical.not_imp] at hout
      obtain ⟨hd, hnode, hout⟩ := hout
      obtain ⟨hrc, -, hslot⟩ := xpPciProbe_reaches hnode
      rw [hotplugStep_probe hd]
      simp only [hrc, if_true, mt hslot.mp hout, if_false]
      intro identified
      obtain ⟨i, hi, -⟩ := identified.reachable d (by simp)
      have hbound := inSlots.bound i d hi
      rw [hd] at hbound
      cases hbound

end Table

/-- **Slots and ids of devices.** For every sequence of probes and removals of any
devices: in every state each bound device is in exactly one slot, none other is, and its
events carry its minor number and identify it, exactly when every probe of the sequence
that gets to the device node makes it and finds a minor number below eight. -/
theorem hotplug_identified_iff [DecidableEq D] (events : List (Hotplug D)) :
    (∀ done, done <+: events → Identified (hotplug done)) ↔
      ∀ done e, done ++ [e] <+: events → InTable (hotplug done) e :=
  history_iff inSlots_emptyTable (fun _ => InSlots.identified)
    (fun _ e inSlots => inSlots.step e) (fun _ e inSlots => inSlots.leaves e) events

/-- At most so many devices are bound. -/
def AtMostBound (n : Nat) (s : DevTable D) : Prop :=
  ∀ ds : List D, ds.Nodup → (∀ d ∈ ds, (s.cdevMinor d).isSome) → ds.length ≤ n

/-- One device, plugged in and out eight times, and in again. -/
theorem hotplug_ninth :
    ∃ events : List (Hotplug Unit),
      (∀ done, done <+: events → AtMostBound maxDevSupported (hotplug done)) ∧
        ¬ ∀ done, done <+: events → Identified (hotplug done) := by
  refine ⟨(List.replicate 8 [Hotplug.probe () probeKernel, Hotplug.remove ()]).flatten ++
    [Hotplug.probe () probeKernel], fun _ _ ds hnodup _ => ?_, fun hall => ?_⟩
  · exact hnodup.length_le_card.trans (by decide)
  · obtain ⟨i, hi, -⟩ := (hall _ (List.prefix_refl _)).reachable () (by decide +kernel)
    revert i
    decide +kernel

end XpNet.Pci

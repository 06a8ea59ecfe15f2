/-
The trap table of `xp_netdev_intf.c`: the trap id of each reason code and the
configuration of each trap id, the message that changes them, and the lookup
that the receive side makes.

Adding an entry writes one slot of each map; the slot of the reason code that
had the trap id before is left pointing at it. So the lookup of a reason code can
find a configuration of another one, and does exactly when an entry is added
under the id of another reason code: `ownRc_trap` is that step.
-/

import XpNet.Intf.Messages
import Mathlib.Data.List.Nodup
import Mathlib.Logic.Function.Basic

namespace XpNet.Intf

/-! ### The table -/

/-- `xp_trap_config_t`. -/
structure XpTrapConfig where
  fd : UInt32
  rc : UInt32
  trapId : UInt32
  rxCount : UInt32
  sockPtr : Option Nat
  ch : UInt32
  deriving DecidableEq

/-- `xp_trap_table_t`; the accessors keep indices below the lengths of the two
arrays. -/
structure XpTrapTable where
  trap : UInt32 → Option XpTrapConfig
  rcMap : UInt32 → UInt32

/-- `XP_NL_HOSTIF_TRAP_FD`. -/
def xpNlHostifTrapFd : UInt32 := 0

/-- What `xp_trap_init` leaves when the kernel has the memory. -/
def xpTrapInit : XpTrapTable where
  trap _ := none
  rcMap _ := xpInvalidTrapId

/-- The trap ids that have a slot, in order. -/
def trapIds : List UInt32 := (List.range (xpMaxTrapId.toNat + 1)).map UInt32.ofNat

theorem mem_trapIds {id : UInt32} : id ∈ trapIds ↔ id ≤ xpMaxTrapId := by
  rw [trapIds, List.mem_map, UInt32.le_iff_toNat_le]
  constructor
  · rintro ⟨i, hi, rfl⟩
    have hle := Nat.le_of_lt_succ (List.mem_range.mp hi)
    rwa [UInt32.toNat_ofNat_of_lt' (Nat.lt_of_le_of_lt hle xpMaxTrapId.toNat_lt)]
  · intro hle
    exact ⟨id.toNat, List.mem_range.mpr (Nat.lt_succ_of_le hle), UInt32.ofNat_toNat⟩

theorem nodup_trapIds : trapIds.Nodup := by
  refine List.Nodup.map_on ?_ List.nodup_range
  intro i hi j hj heq
  have hsmall : ∀ k ∈ List.range (xpMaxTrapId.toNat + 1), (UInt32.ofNat k).toNat = k := by
    intro k hk
    have hle := Nat.le_of_lt_succ (List.mem_range.mp hk)
    exact UInt32.toNat_ofNat_of_lt' (Nat.lt_of_le_of_lt hle xpMaxTrapId.toNat_lt)
  rw [← hsmall i hi, ← hsmall j hj, heq]

/-- `xp_trap_config_get(id)`. -/
def xpTrapConfigGet (table : XpTrapTable) (id : UInt32) : Option XpTrapConfig :=
  if id ≥ xpMaxTrapId + 1 then none else table.trap id

/-- `xp_trap_id_get(rc)`. -/
def xpTrapIdGet (table : XpTrapTable) (rc : UInt32) : UInt32 :=
  if rc ≥ xpMaxReasonCode + 1 then xpInvalidTrapId else table.rcMap rc

/-- `xp_trap_id_entry_add(cfg)`. -/
def xpTrapIdEntryAdd (kernel : Kernel) (cfg : XpTrapConfig) (table : XpTrapTable) :
    Int × XpTrapTable :=
  if cfg.trapId > xpMaxTrapId then (-espipe, table)
  else if kernel.kmalloc then
    (0, {
      rcMap := Function.update table.rcMap cfg.rc cfg.trapId
      trap := Function.update table.trap cfg.trapId (some cfg) })
  else (-enomem, table)

/-- `xp_trap_id_entry_remove(trap_id)`. -/
def xpTrapIdEntryRemove (trapId : UInt32) (table : XpTrapTable) : Int × XpTrapTable :=
  if trapId > xpMaxTrapId then (-espipe, table)
  else if (table.trap trapId).isSome then
    (0, { table with trap := Function.update table.trap trapId none })
  else (0, table)

/-- The configuration that `xp_nl_msg_trap` fills in. -/
def trapConfig (kernel : Kernel) (trapMsg : XpNlMsgTrap) : XpTrapConfig where
  fd := trapMsg.fd
  rc := trapMsg.rc
  trapId := trapMsg.trapId
  rxCount := 0
  sockPtr := if trapMsg.ch = xpNlHostifTrapFd then (kernel.sockfdLookup trapMsg.fd).1 else none
  ch := trapMsg.ch

/-- `xp_nl_msg_trap(netns, trap_msg)`, which drops what the table answers. -/
def xpNlMsgTrap (kernel : Kernel) (trapMsg : XpNlMsgTrap) (table : XpTrapTable) :
    Int × XpTrapTable :=
  if trapMsg.operation = xpNlOperationAdd then
    if xpMaxReasonCode < trapMsg.rc then (-espipe, table)
    else (0, (xpTrapIdEntryAdd kernel (trapConfig kernel trapMsg) table).2)
  else if trapMsg.operation = xpNlOperationRemove then
    (0, (xpTrapIdEntryRemove trapMsg.trapId table).2)
  else (0, table)

/-! ### The lookup of the receive side -/

/-- The lookup of every reason code is `NULL` or a configuration of its own. -/
def OwnRc (table : XpTrapTable) : Prop :=
  ∀ rc cfg, xpTrapConfigGet table (xpTrapIdGet table rc) = some cfg → cfg.rc = rc

/-- The message stores an entry: it asks for one within the ranges, and there is
memory for it. -/
def StoresEntry (kernel : Kernel) (trapMsg : XpNlMsgTrap) : Prop :=
  trapMsg.operation = xpNlOperationAdd ∧ trapMsg.rc ≤ xpMaxReasonCode ∧
    trapMsg.trapId ≤ xpMaxTrapId ∧ kernel.kmalloc = true

/-- The message stores an entry under the trap id that the table has for another
reason code. -/
def TakesId (kernel : Kernel) (trapMsg : XpNlMsgTrap) (table : XpTrapTable) : Prop :=
  StoresEntry kernel trapMsg ∧ ∃ rc, rc ≠ trapMsg.rc ∧ xpTrapIdGet table rc = trapMsg.trapId

section Lookup

variable {table : XpTrapTable} {kernel : Kernel} {trapMsg : XpNlMsgTrap}

theorem xpTrapConfigGet_eq_some {id : UInt32} {cfg : XpTrapConfig} :
    xpTrapConfigGet table id = some cfg ↔ id ≤ xpMaxTrapId ∧ table.trap id = some cfg := by
  have hsize : id ≥ xpMaxTrapId + 1 ↔ ¬ id ≤ xpMaxTrapId := by
    rw [UInt32.not_le, ge_iff_le, UInt32.le_iff_toNat_le, UInt32.lt_iff_toNat_lt]
    exact Iff.rfl
  unfold xpTrapConfigGet
  by_cases h : id ≤ xpMaxTrapId <;> simp [hsize, h]

/-- The table's answer for a reason code is a trap id only within the range. -/
theorem le_of_xpTrapIdGet_le {rc : UInt32} (h : xpTrapIdGet table rc ≤ xpMaxTrapId) :
    rc ≤ xpMaxReasonCode ∧ xpTrapIdGet table rc = table.rcMap rc := by
  unfold xpTrapIdGet at h ⊢
  by_cases hrc : rc ≥ xpMaxReasonCode + 1
  · rw [if_pos hrc] at h
    exact absurd h (by decide)
  · rw [if_neg hrc]
    refine ⟨?_, rfl⟩
    rw [ge_iff_le, UInt32.not_le] at hrc
    rw [UInt32.lt_iff_toNat_lt] at hrc
    rw [UInt32.le_iff_toNat_le]
    exact Nat.le_of_lt_succ hrc

theorem xpTrapIdGet_of_le {rc : UInt32} (h : rc ≤ xpMaxReasonCode) :
    xpTrapIdGet table rc = table.rcMap rc := by
  unfold xpTrapIdGet
  rw [if_neg]
  rw [ge_iff_le, UInt32.not_le, UInt32.lt_iff_toNat_lt]
  exact Nat.lt_succ_of_le (UInt32.le_iff_toNat_le.mp h)

/-- What the lookup of a reason code finds, in terms of the two maps. -/
theorem lookup_eq_some {rc : UInt32} {cfg : XpTrapConfig} :
    xpTrapConfigGet table (xpTrapIdGet table rc) = some cfg ↔
      rc ≤ xpMaxReasonCode ∧ table.rcMap rc ≤ xpMaxTrapId ∧
        table.trap (table.rcMap rc) = some cfg := by
  rw [xpTrapConfigGet_eq_some]
  constructor
  · rintro ⟨hid, hcfg⟩
    obtain ⟨hrc, heq⟩ := le_of_xpTrapIdGet_le hid
    rw [heq] at hid hcfg
    exact ⟨hrc, hid, hcfg⟩
  · rintro ⟨hrc, hid, hcfg⟩
    rw [xpTrapIdGet_of_le hrc]
    exact ⟨hid, hcfg⟩

/-! ### One message -/

theorem ownRc_xpTrapInit : OwnRc xpTrapInit := by
  intro rc cfg h
  obtain ⟨-, -, hcfg⟩ := lookup_eq_some.mp h
  cases hcfg

/-- The table after a message that stores an entry. -/
theorem xpNlMsgTrap_stores (table : XpTrapTable) (h : StoresEntry kernel trapMsg) :
    (xpNlMsgTrap kernel trapMsg table).2 = {
      rcMap := Function.update table.rcMap trapMsg.rc trapMsg.trapId
      trap := Function.update table.trap trapMsg.trapId (some (trapConfig kernel trapMsg)) } := by
  obtain ⟨hop, hrc, hid, hmem⟩ := h
  unfold xpNlMsgTrap xpTrapIdEntryAdd
  rw [if_pos hop, if_neg (UInt32.not_lt.mpr hrc)]
  have hid' : ¬ (trapConfig kernel trapMsg).trapId > xpMaxTrapId := UInt32.not_lt.mpr hid
  simp only [hid', hmem, if_false, if_true]
  rfl

/-- The message removes the entry of a trap id within the range. -/
def RemovesEntry (trapMsg : XpNlMsgTrap) : Prop :=
  trapMsg.operation = xpNlOperationRemove ∧ trapMsg.trapId ≤ xpMaxTrapId

/-- Removing an entry that is not there changes nothing, like removing none. -/
theorem xpTrapIdEntryRemove_eq (trapId : UInt32) (table : XpTrapTable) :
    (xpTrapIdEntryRemove trapId table).2 =
      if trapId ≤ xpMaxTrapId then { table with trap := Function.update table.trap trapId none }
      else table := by
  unfold xpTrapIdEntryRemove
  by_cases hid : trapId ≤ xpMaxTrapId
  · rw [if_neg (UInt32.not_lt.mpr hid), if_pos hid]
    by_cases hsome : (table.trap trapId).isSome = true
    · rw [if_pos hsome]
    · have hnone : table.trap trapId = none := by simpa using hsome
      rw [if_neg hsome, ← hnone, Function.update_eq_self]
  · rw [if_pos (UInt32.not_le.mp hid), if_neg hid]

/-- The table after a message that stores no entry. -/
theorem xpNlMsgTrap_removes (table : XpTrapTable) (h : ¬ StoresEntry kernel trapMsg) :
    (RemovesEntry trapMsg ∧ (xpNlMsgTrap kernel trapMsg table).2 =
        { table with trap := Function.update table.trap trapMsg.trapId none }) ∨
      ¬ RemovesEntry trapMsg ∧ (xpNlMsgTrap kernel trapMsg table).2 = table := by
  unfold xpNlMsgTrap
  by_cases hop : trapMsg.operation = xpNlOperationAdd
  · refine Or.inr ⟨fun hrem => absurd (hop.symm.trans hrem.1) (by decide), ?_⟩
    rw [if_pos hop]
    by_cases hrc : xpMaxReasonCode < trapMsg.rc
    · rw [if_pos hrc]
    · rw [if_neg hrc]
      unfold xpTrapIdEntryAdd
      by_cases hid : (trapConfig kernel trapMsg).trapId > xpMaxTrapId
      · rw [if_pos hid]
      · rw [if_neg hid]
        have hmem : ¬ kernel.kmalloc = true := fun hmem =>
          h ⟨hop, UInt32.not_lt.mp hrc, UInt32.not_lt.mp hid, hmem⟩
        rw [if_neg hmem]
  · rw [if_neg hop]
    by_cases hrem : trapMsg.operation = xpNlOperationRemove
    · rw [if_pos hrem, xpTrapIdEntryRemove_eq]
      by_cases hid : trapMsg.trapId ≤ xpMaxTrapId
      · exact Or.inl ⟨⟨hrem, hid⟩, if_pos hid⟩
      · exact Or.inr ⟨fun h => hid h.2, if_neg hid⟩
    · rw [if_neg hrem]
      exact Or.inr ⟨fun h => hrem h.1, rfl⟩

/-- A message that stores no entry keeps the trap ids and adds no configuration. -/
theorem xpNlMsgTrap_keeps (table : XpTrapTable) (h : ¬ StoresEntry kernel trapMsg) :
    (xpNlMsgTrap kernel trapMsg table).2.rcMap = table.rcMap ∧
      ∀ id cfg, (xpNlMsgTrap kernel trapMsg table).2.trap id = some cfg →
        table.trap id = some cfg := by
  rcases xpNlMsgTrap_removes table h with ⟨-, heq⟩ | ⟨-, heq⟩
  · rw [heq]
    refine ⟨rfl, fun id cfg hcfg => ?_⟩
    by_cases hid : id = trapMsg.trapId
    · simp [hid] at hcfg
    · simpa [hid] using hcfg
  · rw [heq]
    exact ⟨rfl, fun _ _ hcfg => hcfg⟩

/-- After a message the lookups are in order exactly when it took no other reason
code's trap id. -/
theorem ownRc_trap (own : OwnRc table) :
    OwnRc (xpNlMsgTrap kernel trapMsg table).2 ↔ ¬ TakesId kernel trapMsg table := by
  by_cases hstores : StoresEntry kernel trapMsg
  · have hstored := xpNlMsgTrap_stores table hstores
    obtain ⟨-, hrc, hid, -⟩ := id hstores
    constructor
    · rintro own' ⟨-, rc, hne, heq⟩
      -- the other reason code still has the id, and finds the new entry
      have hlookup : xpTrapConfigGet (xpNlMsgTrap kernel trapMsg table).2
          (xpTrapIdGet (xpNlMsgTrap kernel trapMsg table).2 rc) =
            some (trapConfig kernel trapMsg) := by
        obtain ⟨hle, hmap⟩ := le_of_xpTrapIdGet_le (heq.symm ▸ hid)
        rw [hmap] at heq
        rw [lookup_eq_some, hstored]
        simp [hne, heq, hle, hid]
      exact hne (own' rc _ hlookup).symm
    · intro htakes rc cfg hlookup
      rw [lookup_eq_some, hstored] at hlookup
      obtain ⟨hle, hle', hcfg⟩ := hlookup
      by_cases hsame : rc = trapMsg.rc
      · subst hsame
        have heq : trapConfig kernel trapMsg = cfg := by simpa using hcfg
        exact heq ▸ rfl
      · -- another reason code has another id, whose entry is what it was
        simp only [Function.update_of_ne hsame] at hle' hcfg
        have hother : table.rcMap rc ≠ trapMsg.trapId := by
          intro heq
          exact htakes ⟨hstores, rc, hsame, by rw [xpTrapIdGet_of_le hle, heq]⟩
        rw [Function.update_of_ne hother] at hcfg
        exact own rc cfg (lookup_eq_some.mpr ⟨hle, hle', hcfg⟩)
  · obtain ⟨hmap, hkeeps⟩ := xpNlMsgTrap_keeps table hstores
    constructor
    · exact fun _ htakes => hstores htakes.1
    · intro _ rc cfg hlookup
      rw [lookup_eq_some, hmap] at hlookup
      obtain ⟨hle, hle', hcfg⟩ := hlookup
      exact own rc cfg (lookup_eq_some.mpr ⟨hle, hle', hkeeps _ _ hcfg⟩)

end Lookup

end XpNet.Intf

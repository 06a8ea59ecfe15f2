/-
What the entries of the trap table hold, and the indices that `xp_trap_deinit` and
`xp_trap_table_print` make of it.

The trap id and the reason code of an entry are checked before it is stored, so the
entry is in its own slot and its reason code within `rc_map` in every state
(`ownSlots_trap`). The channel is not: `ch_name` has a name for each of the three
channels, and is indexed with whatever a message carries. So the table is in order in
every state of a run exactly when no message stores an entry of another channel
(`stored_entries_iff`).
-/

import XpNet.Intf.Receive

namespace XpNet.Intf

/-! ### Printing and tearing down -/

/-- A line that `xp_trap_table_print` prints. -/
inductive TrapLine where
  | text (line : String)
  | entry (trapId rc fd : UInt32) (channel : String) (sockPtr : Option Nat) (rxCount : UInt32)
  | callback (sockPtr : Option Nat)
  deriving DecidableEq

/-- `ch_name`. -/
def chName : List String := ["FD", "CB", "NETDEV"]

def trapRule : TrapLine := .text "|----------------------------------------------------|\n"

def trapHeading : List TrapLine :=
  [trapRule, .text "|TrapId| RC | Fd | Channel | SockPtr      | rxPktCnt |\n", trapRule]

/-- The lines of the slots of `ids`; `none` when `ch_name` is indexed past its end. -/
def trapLines (table : XpTrapTable) : List UInt32 → Option (List TrapLine)
  | [] => some []
  | id :: ids =>
    match table.trap id with
    | none => trapLines table ids
    | some trapCfg => do
      let channel ← chName[trapCfg.ch.toNat]?
      let lines ← trapLines table ids
      some (.entry trapCfg.trapId trapCfg.rc trapCfg.fd channel trapCfg.sockPtr trapCfg.rxCount ::
        lines)

/-- `xp_trap_table_print(sf)`. -/
def xpTrapTablePrint (trapTable : Option XpTrapTable) (cbSockPtr : Option Nat) :
    Option (Int × List TrapLine) :=
  match trapTable with
  | none => some (-eperm, trapHeading)
  | some table => (trapLines table trapIds).map fun lines =>
      (0, trapHeading ++ lines ++ [trapRule, .callback cbSockPtr, trapRule])

/-- The loop of `xp_trap_deinit` over the slots of `ids`; `none` when `rc_map` is
indexed past its end. -/
def freeEntries : XpTrapTable → List UInt32 → Option XpTrapTable
  | table, [] => some table
  | table, id :: ids =>
    match table.trap id with
    | none => freeEntries table ids
    | some trapCfg =>
      if trapCfg.rc < xpMaxReasonCode + 1 then
        freeEntries {
          rcMap := Function.update table.rcMap trapCfg.rc xpInvalidTrapId
          trap := Function.update table.trap id none } ids
      else none

/-! ### Entries in order -/

/-- Every entry is in the slot of its trap id, with a reason code that `rc_map` has. -/
def OwnSlots (table : XpTrapTable) : Prop :=
  ∀ id cfg, table.trap id = some cfg →
    id ≤ xpMaxTrapId ∧ cfg.trapId = id ∧ cfg.rc ≤ xpMaxReasonCode

/-- The channels of `xp_nl_hostif_trap_channel_t` that have a name. -/
def channels : List UInt32 := [xpNlHostifTrapFd, xpNlHostifTrapCb, xpNlHostifTrapNetdev]

/-- Every entry has a channel that has a name. -/
def KnownChannels (table : XpTrapTable) : Prop :=
  ∀ id cfg, table.trap id = some cfg → cfg.ch ∈ channels

/-- The entries are in order, and the teardown and the print stay within the two
arrays. -/
structure EntriesInOrder (drv : Driver) : Prop where
  slots : OwnSlots drv.trapTable
  channels : KnownChannels drv.trapTable
  frees : (freeEntries drv.trapTable trapIds).isSome = true
  prints : (xpTrapTablePrint (some drv.trapTable) drv.cbSockPtr).isSome = true

/-- The message stores an entry of a channel without a name. -/
def StoresUnknownChannel : Kernel × XpNlMsg → Prop
  | (kernel, .trapSet msg) => StoresEntry kernel msg ∧ msg.ch ∉ channels
  | _ => False

section Entries

variable {table : XpTrapTable} {kernel : Kernel} {msg : XpNlMsgTrap}

theorem ownSlots_xpTrapInit : OwnSlots xpTrapInit := fun _ _ h => nomatch h

theorem knownChannels_xpTrapInit : KnownChannels xpTrapInit := fun _ _ h => nomatch h

/-- What a message can leave in the slots: the entry it stores, and what was there. -/
theorem trap_xpNlMsgTrap {id : UInt32} {cfg : XpTrapConfig}
    (h : (xpNlMsgTrap kernel msg table).2.trap id = some cfg) :
    (StoresEntry kernel msg ∧ id = msg.trapId ∧ cfg = trapConfig kernel msg) ∨
      table.trap id = some cfg := by
  by_cases hstores : StoresEntry kernel msg
  · rw [xpNlMsgTrap_stores table hstores] at h
    by_cases hid : id = msg.trapId
    · subst hid
      simp only [Function.update_self, Option.some.injEq] at h
      exact .inl ⟨hstores, rfl, h.symm⟩
    · simp only [Function.update_of_ne hid] at h
      exact .inr h
  · exact .inr ((xpNlMsgTrap_keeps table hstores).2 id cfg h)

theorem ownSlots_trap (own : OwnSlots table) : OwnSlots (xpNlMsgTrap kernel msg table).2 := by
  intro id cfg hcfg
  rcases trap_xpNlMsgTrap hcfg with ⟨⟨-, hrc, hid, -⟩, rfl, rfl⟩ | hbefore
  · exact ⟨hid, rfl, hrc⟩
  · exact own id cfg hbefore

theorem knownChannels_trap (known : KnownChannels table) :
    KnownChannels (xpNlMsgTrap kernel msg table).2 ↔
      ¬ (StoresEntry kernel msg ∧ msg.ch ∉ channels) := by
  constructor
  · rintro known' ⟨hstores, hunknown⟩
    refine hunknown (known' msg.trapId (trapConfig kernel msg) ?_)
    simp [xpNlMsgTrap_stores table hstores]
  · intro hnot id cfg hcfg
    rcases trap_xpNlMsgTrap hcfg with ⟨hstores, -, rfl⟩ | hbefore
    · exact not_not.mp fun hunknown => hnot ⟨hstores, hunknown⟩
    · exact known id cfg hbefore

/-! ### The indices -/

theorem mem_channels {ch : UInt32} : ch ∈ channels ↔ ch.toNat < chName.length := by
  have hsmall : ch.toNat < 3 ↔ ch.toNat = 0 ∨ ch.toNat = 1 ∨ ch.toNat = 2 := by omega
  simp only [channels, List.mem_cons, List.not_mem_nil, or_false, ← UInt32.toNat_inj]
  exact hsmall.symm

/-- The print stays within `ch_name` exactly when every entry has a known channel. -/
theorem isSome_trapLines {ids : List UInt32} :
    (trapLines table ids).isSome ↔
      ∀ id ∈ ids, ∀ cfg, table.trap id = some cfg → cfg.ch ∈ channels := by
  induction ids with
  | nil => simp [trapLines]
  | cons id ids ih =>
    rw [List.forall_mem_cons, ← ih, trapLines]
    cases hcfg : table.trap id with
    | none => simp
    | some cfg =>
      by_cases hch : cfg.ch.toNat < chName.length
      · cases trapLines table ids <;> simp [mem_channels, hch]
      · simp [mem_channels, hch]

/-- The teardown stays within `rc_map` when every entry has a reason code that it has. -/
theorem isSome_freeEntries {ids : List UInt32}
    (h : ∀ id cfg, table.trap id = some cfg → cfg.rc ≤ xpMaxReasonCode) :
    (freeEntries table ids).isSome := by
  induction ids generalizing table with
  | nil => rfl
  | cons id ids ih =>
    rw [freeEntries]
    cases hcfg : table.trap id with
    | none => exact ih h
    | some cfg =>
      have hrc : cfg.rc < xpMaxReasonCode + 1 := by
        rw [UInt32.lt_iff_toNat_lt]
        exact Nat.lt_succ_of_le (UInt32.le_iff_toNat_le.mp (h id cfg hcfg))
      dsimp only
      rw [if_pos hrc]
      apply ih
      intro other cfg' hother
      by_cases hne : other = id
      · simp [hne] at hother
      · exact h other cfg' (by simpa [hne] using hother)

theorem entriesInOrder {drv : Driver} (own : OwnSlots drv.trapTable)
    (known : KnownChannels drv.trapTable) : EntriesInOrder drv where
  slots := own
  channels := known
  frees := isSome_freeEntries fun id cfg hcfg => (own id cfg hcfg).2.2
  prints := by
    rw [xpTrapTablePrint, Option.isSome_map, isSome_trapLines]
    exact fun id _ => known id

end Entries

/-! ### Runs -/

section Runs

variable {hashMin : UInt32 → Bucket}

theorem ownSlots_callHandler {drv : Driver} (own : OwnSlots drv.trapTable)
    (req : Kernel × XpNlMsg) : OwnSlots (callHandler hashMin req.1 drv req.2).trapTable := by
  obtain ⟨kernel, msg⟩ := req
  rw [callHandler_trapTable]
  cases msg with
  | trapSet msg => exact ownSlots_trap own
  | _ => exact own

theorem knownChannels_callHandler {drv : Driver} (known : KnownChannels drv.trapTable)
    (req : Kernel × XpNlMsg) :
    KnownChannels (callHandler hashMin req.1 drv req.2).trapTable ↔
      ¬ StoresUnknownChannel req := by
  obtain ⟨kernel, msg⟩ := req
  rw [callHandler_trapTable]
  cases msg with
  | trapSet msg => exact knownChannels_trap known
  | _ => exact iff_of_true known id

/-- In every state of a run every entry is in the slot of its trap id, with a reason
code within `rc_map` and a channel that has a name, and the teardown and the print of
the table stay within `rc_map` and `ch_name`, exactly when no message of the run
stores an entry of a channel without a name. -/
theorem stored_entries_iff (hashMin : UInt32 → Bucket) (reqs : List (Kernel × XpNlMsg)) :
    (∀ done, done <+: reqs → EntriesInOrder (callHandlers hashMin .start done)) ↔
      ∀ req ∈ reqs, ¬ StoresUnknownChannel req := by
  rw [← forall_next_iff]
  refine history_iff
    (I := fun drv : Driver => OwnSlots drv.trapTable ∧ KnownChannels drv.trapTable)
    (G := fun _ req => ¬ StoresUnknownChannel req)
    ⟨ownSlots_xpTrapInit, knownChannels_xpTrapInit⟩ ?_ ?_ ?_ reqs
  · exact fun drv ok => entriesInOrder ok.1 ok.2
  · exact fun drv req ok hgood =>
      ⟨ownSlots_callHandler ok.1 req, (knownChannels_callHandler ok.2 req).mpr hgood⟩
  · exact fun drv req ok hbad after => hbad ((knownChannels_callHandler ok.2 req).mp after.channels)

/-- A trap of channel 3: the print reads past the three names. -/
theorem print_past_names :
    ¬ EntriesInOrder (callHandlers (fun _ => 0) .start
      [(grantingKernel, .trapSet ⟨1, 0, 3, 5, xpNlOperationAdd⟩)]) := by
  intro ok
  have hprints := ok.prints
  rw [xpTrapTablePrint, Option.isSome_map, isSome_trapLines] at hprints
  exact absurd (hprints 5 (mem_trapIds.mpr (by decide)) _ rfl) (by decide)

end Runs

end XpNet.Intf

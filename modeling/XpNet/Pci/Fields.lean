/-
The fields of the interrupt summary.

`xp_block_number_get` cuts bits `start_bit` to `end_bit` out of a run of words.
`xpBlockNumberGet_toNat` compares it with the number that the words spell: the two
agree for every field of at most 32 bits, but that the `u8` index of a field in one
word wraps at the 256th. No table comes near it, so the handlers queue an event for
exactly the blocks with a non-zero field, and each summary bit is in one block.
-/

import XpNet.Pci.Irq

namespace XpNet.Pci

/-- Bits `startBit` to `endBit` of the number that the words spell. -/
def fieldOf (regValue : Nat → BitVec 32) (startBit endBit : Nat) : Nat :=
  concatWords regValue (endBit / 32 + 1) / 2 ^ startBit % 2 ^ (endBit - startBit + 1)

/-- The field of a block in the summary. -/
def blockField (table : RegBlocks) (regValue : Nat → BitVec 32) (blockNum : Nat) : Nat :=
  fieldOf regValue (table.regStartBits.getD blockNum 0) (table.regEndBits.getD blockNum 0)

/-- A block has a summary bit. -/
def RegBlocks.HasBit (table : RegBlocks) (blockNum n : Nat) : Prop :=
  blockNum < table.regBlocks ∧ table.regStartBits.getD blockNum 0 ≤ n ∧
    n ≤ table.regEndBits.getD blockNum 0

instance (table : RegBlocks) (blockNum n : Nat) : Decidable (table.HasBit blockNum n) :=
  inferInstanceAs (Decidable (_ ∧ _))

section Field

variable {regValue : Nat → BitVec 32} {startBit endBit : Nat}

/-- A bit of a field is a bit of the summary. -/
theorem fieldOf_testBit (hle : startBit ≤ endBit) (j : Nat) :
    (fieldOf regValue startBit endBit).testBit j =
      (decide (j < endBit - startBit + 1) && summaryBit regValue (startBit + j)) := by
  unfold fieldOf
  rw [Nat.testBit_mod_two_pow, Nat.testBit_div_two_pow]
  by_cases hin : j < endBit - startBit + 1
  · have hlt : startBit + j < 32 * (endBit / 32 + 1) := by omega
    rw [Nat.add_comm j startBit, concatWords_testBit regValue hlt]
    rfl
  · simp [hin]

/-- **The bits of a field.** A field of at most 32 bits is what the number that the
words spell has there, when it lies across two words or in one of the first 256. -/
theorem xpBlockNumberGet_toNat (hle : startBit ≤ endBit) (hfits : endBit - startBit + 1 ≤ 32)
    (hindex : startBit / 32 = endBit / 32 → startBit / 32 < 2 ^ 8) :
    (xpBlockNumberGet regValue startBit endBit (endBit - startBit + 1)).toNat =
      fieldOf regValue startBit endBit := by
  apply Nat.eq_of_testBit_eq
  intro j
  rw [fieldOf_testBit hle]
  change BitVec.getLsbD _ j = _
  by_cases hj : j < 32
  · exact xpBlockNumberGet_bit hle rfl hfits hindex hj
  · have hout : ¬ j < endBit - startBit + 1 := by omega
    rw [BitVec.getLsbD_of_ge _ _ (Nat.not_lt.mp hj)]
    simp [hout]

end Field

/-! ### The events of a summary -/

section Events

variable {priv : IrqPriv} {table : RegBlocks} {regValue : Nat → BitVec 32}

theorem blockValue_toNat {b : Nat} (hb : b < table.regBlocks) :
    (blockValue table regValue b).toNat = blockField table regValue b := by
  have hwidth := table.width_le b hb
  unfold blockValue blockField
  rw [table.width_eq b hb] at hwidth ⊢
  exact xpBlockNumberGet_toNat (table.start_le b hb) hwidth fun _ => table.index_lt hb

/-- The blocks the handler reports are those with a non-zero field. -/
theorem blockValue_filter :
    ((List.range table.regBlocks).filter fun b => blockValue table regValue b ≠ 0) =
      (List.range table.regBlocks).filter fun b => blockField table regValue b ≠ 0 := by
  apply List.filter_congr
  intro b hb
  have htoNat : (blockValue table regValue b).toNat = blockField table regValue b :=
    blockValue_toNat (List.mem_range.mp hb)
  rw [decide_eq_decide, ← htoNat, Ne, Ne, ← BitVec.toNat_inj]
  rfl

/-- The events of distinct blocks carry distinct numbers. -/
theorem blockInfo_nodup (hsize : table.regBlocks ≤ 2 ^ 8) (p : Nat → Bool) :
    ((((List.range table.regBlocks).filter p).map fun b =>
      irqWork priv (blockInfo priv table b)).map fun work => work.siInt.blockId).Nodup := by
  rw [List.map_map]
  apply List.Nodup.map_on _ (List.nodup_range.filter p)
  intro a ha b hb heq
  have halt : a < table.regBlocks := List.mem_range.mp (List.mem_of_mem_filter ha)
  have hblt : b < table.regBlocks := List.mem_range.mp (List.mem_of_mem_filter hb)
  have hmod : a % 2 ^ 8 = b % 2 ^ 8 := by
    simpa [irqWork, blockInfo] using congrArg BitVec.toNat heq
  rwa [Nat.mod_eq_of_lt (by omega), Nat.mod_eq_of_lt (by omega)] at hmod

end Events

/-- What the handler is to queue: one event for each block whose field is non-zero,
and none for another. -/
def QueuesFields (priv : IrqPriv) (table : RegBlocks) (regValue : Nat → BitVec 32)
    (r : Int × List XpWork) : Prop :=
  r.1 = 0 ∧ (r.2.map fun work => work.siInt.blockId).Nodup ∧
    r.2 = ((List.range table.regBlocks).filter fun b => blockField table regValue b ≠ 0).map
      fun b => irqWork priv (blockInfo priv table b)

theorem xpIrqHandler_queuesFields (priv : IrqPriv) {table : RegBlocks}
    (hsize : table.regBlocks ≤ 2 ^ 8) (regValue : Nat → BitVec 32) :
    QueuesFields priv table regValue (xpIrqHandler priv (fun _ => true) table regValue) := by
  have hrun : xpIrqHandler priv (fun _ => true) table regValue =
      (0, ((List.range table.regBlocks).filter fun b => blockField table regValue b ≠ 0).map
        fun b => irqWork priv (blockInfo priv table b)) := by
    unfold xpIrqHandler
    rw [irqBlocks_granted, List.nil_append, blockValue_filter]
  rw [hrun]
  exact ⟨rfl, blockInfo_nodup hsize _, rfl⟩

/-- A summary bit that the table has in one block, and in no other. -/
def RegBlocks.HasOnce (table : RegBlocks) (n : Nat) : Prop :=
  ∃ b < table.regBlocks, table.HasBit b n ∧ ∀ b' < table.regBlocks, table.HasBit b' n → b' = b

instance (table : RegBlocks) (n : Nat) : Decidable (table.HasOnce n) :=
  inferInstanceAs (Decidable (∃ b < _, _ ∧ _))

theorem RegBlocks.HasOnce.existsUnique {table : RegBlocks} {n : Nat} (h : table.HasOnce n) :
    ∃! b, table.HasBit b n := by
  obtain ⟨b, -, hb, hunique⟩ := h
  exact ⟨b, hb, fun b' hb' => hunique b' hb'.1 hb'⟩

theorem xpHpRegs_hasOnce : ∀ n < 117, xpHpRegs.HasOnce n := by decide +kernel

theorem xpLpRegs_hasOnce : ∀ n < 84, xpLpRegs.HasOnce n := by decide +kernel

/-- **The fields of the summary.** Of every sequence of words and every field of at
most 32 bits, in one of the first 256 words or across two, `xp_block_number_get`
returns the bits. So both tables have an event queued for exactly the blocks whose
field is non-zero; and every summary bit lies in exactly one block. -/
theorem xpBlockNumberGet_fields :
    (∀ (regValue : Nat → BitVec 32) (startBit endBit : Nat), startBit ≤ endBit →
      endBit - startBit + 1 ≤ 32 → (startBit / 32 = endBit / 32 → startBit / 32 < 2 ^ 8) →
      (xpBlockNumberGet regValue startBit endBit (endBit - startBit + 1)).toNat =
        fieldOf regValue startBit endBit) ∧
    (∀ (priv : IrqPriv) (regValue : Nat → BitVec 32),
      QueuesFields priv xpHpRegs regValue
        (xpIrqHandler priv (fun _ => true) xpHpRegs regValue) ∧
      QueuesFields priv xpLpRegs regValue
        (xpIrqHandler priv (fun _ => true) xpLpRegs regValue)) ∧
    (∀ n ≤ 116, ∃! b, xpHpRegs.HasBit b n) ∧ ∀ n ≤ 83, ∃! b, xpLpRegs.HasBit b n := by
  refine ⟨?field, ?queued, ?high, ?low⟩
  case field => exact fun _ _ _ hle hfits hindex => xpBlockNumberGet_toNat hle hfits hindex
  case queued =>
    intro priv regValue
    exact ⟨xpIrqHandler_queuesFields priv (by decide) regValue,
      xpIrqHandler_queuesFields priv (by decide) regValue⟩
  case high => exact fun n hn => (xpHpRegs_hasOnce n (Nat.lt_succ_of_le hn)).existsUnique
  case low => exact fun n hn => (xpLpRegs_hasOnce n (Nat.lt_succ_of_le hn)).existsUnique

/-- The index of bit 8192 is that of bit 0. -/
theorem xpBlockNumberGet_wraps :
    ¬ ∀ (regValue : Nat → BitVec 32) (startBit endBit : Nat), startBit ≤ endBit →
      endBit - startBit + 1 ≤ 32 →
      (xpBlockNumberGet regValue startBit endBit (endBit - startBit + 1)).toNat =
        fieldOf regValue startBit endBit := by
  intro hall
  have hbit := hall (fun i => if i = 256 then 1 else 0) 8192 8192 (Nat.le_refl _) (by decide)
  have hfield : (fieldOf (fun i => if i = 256 then 1 else 0) 8192 8192).testBit 0 = true := by
    rw [fieldOf_testBit (Nat.le_refl _)]
    decide
  rw [← hbit] at hfield
  exact absurd hfield (by decide)

end XpNet.Pci

/-
The word of the stack that `xp_msi_irq_handler_low` never writes.

The handler has four summary words and fills three of them. The fourth takes part in
the test for an empty summary and is passed on to the fields. But no field of the low
table reaches into it, and where it alone is not zero, `xp_irq_handler` runs over
fields that are all zero and queues nothing, as if it had not been called
(`handleSummary_congr`). So the handler does the same whatever the word holds.
-/

import XpNet.Pci.Irq
import XpNet.Pci.Touches

namespace XpNet.Pci

variable {δ : Type}

section Words

variable {priv : IrqPriv} {table : RegBlocks} {v w : Nat → BitVec 32}

/-- A field that ends within the first `count` words is the same in summaries that have
these words in common. -/
theorem xpBlockNumberGet_congr (count : Nat) (hwords : ∀ i < count, v i = w i)
    {startBit endBit : Nat} (hle : startBit ≤ endBit) (hend : endBit < 32 * count) (bitWidth : Nat) :
    xpBlockNumberGet v startBit endBit bitWidth = xpBlockNumberGet w startBit endBit bitWidth := by
  have hfirst : v (startBit / 32) = w (startBit / 32) := hwords _ (by omega)
  have hlast : v (endBit / 32) = w (endBit / 32) := hwords _ (by omega)
  have hindex : v (startBit / 32 % 2 ^ 8) = w (startBit / 32 % 2 ^ 8) :=
    hwords _ (lt_of_le_of_lt (Nat.mod_le _ _) (by omega))
  simp only [xpBlockNumberGet, hfirst, hlast, hindex]

theorem blockValue_congr (count : Nat) (hwords : ∀ i < count, v i = w i)
    (hends : ∀ b < table.regBlocks, table.regEndBits.getD b 0 < 32 * count) {b : Nat}
    (hb : b < table.regBlocks) : blockValue table v b = blockValue table w b :=
  xpBlockNumberGet_congr count hwords (table.start_le b hb) (hends b hb) _

/-- The loop looks at nothing but the values of its blocks. -/
theorem irqBlocks_congr (kmalloc : Nat → Bool) {blocks : List Nat}
    (hvalues : ∀ b ∈ blocks, blockValue table v b = blockValue table w b)
    (queued : List XpWork) :
    irqBlocks priv kmalloc table v blocks queued =
      irqBlocks priv kmalloc table w blocks queued := by
  induction blocks generalizing queued with
  | nil => rfl
  | cons b rest ih =>
      have hrest : ∀ b ∈ rest, blockValue table v b = blockValue table w b :=
        fun b hb => hvalues b (List.mem_cons_of_mem _ hb)
      simp only [irqBlocks, hvalues b List.mem_cons_self, ih hrest]

/-- It queues nothing when they are all zero. -/
theorem irqBlocks_zero (kmalloc : Nat → Bool) {blocks : List Nat}
    (hvalues : ∀ b ∈ blocks, blockValue table v b = 0) (queued : List XpWork) :
    irqBlocks priv kmalloc table v blocks queued = (0, queued) := by
  induction blocks with
  | nil => rfl
  | cons b rest ih =>
      rw [irqBlocks, if_neg (not_not.mpr (hvalues b List.mem_cons_self))]
      exact ih fun b hb => hvalues b (List.mem_cons_of_mem _ hb)

theorem blockValue_zero (count : Nat) (hwords : ∀ i < count, v i = 0)
    (hends : ∀ b < table.regBlocks, table.regEndBits.getD b 0 < 32 * count) {b : Nat}
    (hb : b < table.regBlocks) : blockValue table v b = 0 := by
  rw [blockValue_congr count hwords hends hb]
  simp [blockValue, xpBlockNumberGet]

/-- Where the first three words are zero a handler does nothing, whether or not it finds
the fourth zero too. -/
theorem handleSummary_zero (regs : Registers δ) (kmalloc : Nat → Bool) {mgmtBit : Nat}
    (hmgmt : mgmtBit < 96) (mgmtFailed failed : Int → Int)
    (hends : ∀ b < table.regBlocks, table.regEndBits.getD b 0 < 96) (hzero : ∀ i < 3, v i = 0)
    (s : δ) :
    handleSummary regs priv kmalloc table mgmtBit mgmtFailed failed v s = (irqHandled, [], s) := by
  have hclear : (v (mgmtBit / 32)).getLsbD (mgmtBit % 32) = false := by
    rw [hzero _ (by omega)]
    exact BitVec.getLsbD_zero
  unfold handleSummary
  rw [hclear, if_neg Bool.false_ne_true]
  split
  · rfl
  · have hnone : xpIrqHandler priv kmalloc table v = (0, []) :=
      irqBlocks_zero kmalloc (fun b hb => blockValue_zero 3 hzero hends
        (List.mem_range.mp hb)) []
    simp [hnone]

/-- A handler whose table ends within three words does the same for summaries that have
these words in common. -/
theorem handleSummary_congr (regs : Registers δ) (kmalloc : Nat → Bool) {mgmtBit : Nat}
    (hmgmt : mgmtBit < 96) (mgmtFailed failed : Int → Int)
    (hends : ∀ b < table.regBlocks, table.regEndBits.getD b 0 < 96)
    (hwords : ∀ i < 3, v i = w i) (s : δ) :
    handleSummary regs priv kmalloc table mgmtBit mgmtFailed failed v s =
      handleSummary regs priv kmalloc table mgmtBit mgmtFailed failed w s := by
  by_cases hzero : ∀ i < 3, v i = 0
  · have hzero' : ∀ i < 3, w i = 0 := fun i hi => (hwords i hi).symm.trans (hzero i hi)
    rw [handleSummary_zero regs kmalloc hmgmt mgmtFailed failed hends hzero,
      handleSummary_zero regs kmalloc hmgmt mgmtFailed failed hends hzero']
  · -- one of the three words is set, so neither summary is empty
    have hset : ∀ u : Nat → BitVec 32, (∀ i < 3, u i = v i) →
        ¬ (u 0 = 0 ∧ u 1 = 0 ∧ u 2 = 0 ∧ u 3 = 0) := by
      rintro u hu ⟨h0, h1, h2, -⟩
      refine hzero fun i hi => (hu i hi).symm.trans ?_
      obtain rfl | rfl | rfl : i = 0 ∨ i = 1 ∨ i = 2 := by omega
      · exact h0
      · exact h1
      · exact h2
    have hhandler : xpIrqHandler priv kmalloc table v = xpIrqHandler priv kmalloc table w :=
      irqBlocks_congr kmalloc (fun b hb => blockValue_congr 3 hwords hends
        (List.mem_range.mp hb)) []
    unfold handleSummary
    rw [if_neg (hset v fun _ _ => rfl), if_neg (hset w fun i hi => (hwords i hi).symm), hhandler,
      hwords (mgmtBit / 32) (by omega)]

end Words

theorem readSummary_length (regs : Registers δ) (base count : Nat) (s : δ) :
    (readSummary regs base count s).1.length = count := by
  induction count with
  | zero => rfl
  | succ count ih => simp [readSummary, ih]

/-- The three words that are read do not depend on the fourth. -/
theorem lowSummary_congr (regs : Registers δ) (priv : IrqPriv) (stale stale' : BitVec 32) (s : δ)
    {i : Nat} (hi : i < 3) : lowSummary regs priv stale s i = lowSummary regs priv stale' s i := by
  have hlt : i < (readSummary regs (irqRegOffset .lowPrioReg priv.mode) xpLpIntRegSizeInDwrd
      s).1.length := by
    rw [readSummary_length]
    exact hi
  unfold lowSummary
  rw [List.getD_eq_getElem _ _ hlt, List.getD_eq_getElem _ _ hlt]

/-- **The unwritten word.** For every device, and with it every value of the three words,
and for any two values of the fourth, the low priority handler returns the same, queues
the same works, makes the same accesses to the registers and leaves the device in the
same state. -/
theorem xpMsiIrqHandlerLow_stale (regs : Registers δ) (priv : IrqPriv) (kmalloc : Nat → Bool)
    (stale stale' : BitVec 32) (s : δ) :
    xpMsiIrqHandlerLow regs.traced priv kmalloc stale (s, []) =
      xpMsiIrqHandlerLow regs.traced priv kmalloc stale' (s, []) :=
  handleSummary_congr regs.traced kmalloc (by decide) _ _ (by decide)
    (fun _ hi => lowSummary_congr regs.traced priv stale stale' (s, []) hi) _

end XpNet.Pci

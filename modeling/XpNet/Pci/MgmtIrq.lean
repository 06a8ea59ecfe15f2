/-
What `xp_irq_mgmt_handler` does with the five source words.

The handler takes the lowest bit from `DMA0_INTR_START_BIT_POS` on, reports its
queue, clears the queue's status register and acknowledges the bit
(`mgmtSources_run`). The words have 160 bits and DMA0 has 128 of them: a bit past
them belongs to no queue, and the handler takes it for the first TX queue. So it
does what it is for exactly when there is no such bit or one of DMA0 comes before
it, and a bit of DMA0 finds memory for its event (`xpIrqMgmtHandler_iff`).
-/

import XpNet.Pci.Irq

namespace XpNet.Pci

variable {δ : Type}

/-! ### The source words -/

/-- The source words from `i` on, read one after another. -/
def sourceLoads (regs : Registers δ) (mode : AddressMode) : Nat → Nat → δ → List (BitVec 32)
  | _, 0, _ => []
  | i, count + 1, s =>
      let source := regs.loadU32 .dword (irqRegOffset .highIntrSourceReg mode + 4 * i) s
      source.1 :: sourceLoads regs mode (i + 1) count source.2

/-- The content of `high_intr_src_reg`. -/
def sourceWords (regs : Registers δ) (mode : AddressMode) (s : δ) : Nat → BitVec 32 :=
  fun i => (sourceLoads regs mode 0 highIntrSrcRegSize s).getD i 0

/-- No bit is set from `lo` to before `hi`. -/
def Clear (words : Nat → BitVec 32) (lo hi : Nat) : Prop :=
  ∀ n, lo ≤ n → n < hi → summaryBit words n = false

instance (words : Nat → BitVec 32) (lo hi : Nat) : Decidable (Clear words lo hi) :=
  Nat.decidableLoHi lo hi _

/-- The lowest bit set from `lo` on. -/
structure Lowest (words : Nat → BitVec 32) (lo n : Nat) : Prop where
  from_lo : lo ≤ n
  isSet : summaryBit words n = true
  clear : Clear words lo n

/-- The bits of DMA0 end before here. -/
def dma0End (mode : AddressMode) : Nat := dma0IntrStartBitPos mode + totalRxQueue + totalTxQueue

/-- The queue of a bit of DMA0: RX for the first 64, TX for the next 64. -/
def dma0Queue (mode : AddressMode) (n : Nat) : BitVec 1 × BitVec 6 :=
  if n - dma0IntrStartBitPos mode < 64 then (rxQueue, BitVec.ofNat 6 (n - dma0IntrStartBitPos mode))
  else (txQueue, BitVec.ofNat 6 (n - dma0IntrStartBitPos mode - 64))

theorem dma0IntrStartBitPos_lt (mode : AddressMode) : dma0IntrStartBitPos mode < 32 := by
  unfold dma0IntrStartBitPos
  split <;> decide

theorem mgmtQueue_of_mem {mode : AddressMode} {n : Nat} (hstart : dma0IntrStartBitPos mode ≤ n)
    (hend : n < dma0End mode) : mgmtQueue mode n = dma0Queue mode n := by
  unfold dma0End totalRxQueue totalTxQueue at hend
  unfold mgmtQueue dma0Queue totalRxQueue totalTxQueue
  by_cases hrx : n - dma0IntrStartBitPos mode < 64
  · rw [if_pos hrx, if_pos ⟨hstart, by omega⟩]
  · have hbelow : ¬ (dma0IntrStartBitPos mode ≤ n ∧ n < 64 + dma0IntrStartBitPos mode) := by omega
    have hqueue : n - (64 + dma0IntrStartBitPos mode) =
        n - dma0IntrStartBitPos mode - 64 := by omega
    rw [if_neg hrx, if_neg hbelow, if_pos ⟨by omega, hend⟩, hqueue]

theorem firstSetBit_eq_none {word : BitVec 32} {j : Nat} :
    firstSetBit word j = none ↔ ∀ k, j ≤ k → k < 32 → word.getLsbD k = false := by
  unfold firstSetBit
  rw [List.find?_eq_none]
  constructor
  · intro hnone k hjk hk
    have hclear := hnone k (List.mem_range.mpr hk)
    simpa [hjk] using hclear
  · intro hclear k hk hset
    obtain ⟨hjk, hbit⟩ : j ≤ k ∧ word.getLsbD k = true := by simpa using hset
    rw [hclear k hjk (List.mem_range.mp hk)] at hbit
    exact Bool.false_ne_true hbit

theorem firstSetBit_eq_some {word : BitVec 32} {j b : Nat} (h : firstSetBit word j = some b) :
    j ≤ b ∧ b < 32 ∧ word.getLsbD b = true ∧
      ∀ k, j ≤ k → k < b → word.getLsbD k = false := by
  unfold firstSetBit at h
  obtain ⟨hbit, hmem, hbefore⟩ := List.find?_range_eq_some.mp h
  obtain ⟨hle, hset⟩ : j ≤ b ∧ word.getLsbD b = true := by simpa using hbit
  refine ⟨hle, List.mem_range.mp hmem, hset, ?_⟩
  intro k hjk hk
  have hclear := hbefore k hk
  simpa [hjk] using hclear

/-! ### The bits of the words -/

section Bits

variable {words words' : Nat → BitVec 32} {i j b lo mid hi n : Nat}

theorem summaryBit_of_word (hlo : 32 * i ≤ n) (hhi : n < 32 * (i + 1)) :
    summaryBit words n = (words i).getLsbD (n - 32 * i) := by
  have hdiv : n / 32 = i := by omega
  have hmod : n % 32 = n - 32 * i := by omega
  unfold summaryBit
  rw [hdiv, hmod]

theorem lowest_of_firstSetBit (hfirst : firstSetBit (words i) j = some b) :
    Lowest words (32 * i + j) (32 * i + b) := by
  obtain ⟨hjb, hb, hset, hbefore⟩ := firstSetBit_eq_some hfirst
  refine ⟨by omega, ?_, fun n hlo hn => ?_⟩
  · rw [summaryBit_of_word (i := i) (by omega) (by omega), Nat.add_sub_cancel_left]
    exact hset
  · rw [summaryBit_of_word (i := i) (by omega) (by omega)]
    exact hbefore _ (by omega) (by omega)

theorem clear_of_firstSetBit (hfirst : firstSetBit (words i) j = none) :
    Clear words (32 * i + j) (32 * (i + 1)) := by
  intro n hlo hn
  rw [summaryBit_of_word (by omega) hn]
  exact firstSetBit_eq_none.mp hfirst _ (by omega) (by omega)

theorem Clear.append (below : Clear words lo mid) (above : Clear words mid hi) :
    Clear words lo hi := by
  intro n hlo hn
  rcases Nat.lt_or_ge n mid with hlt | hge
  · exact below n hlo hlt
  · exact above n hge hn

/-- The lowest bit behind words that are clear. -/
theorem Clear.lowest (below : Clear words lo mid) (hle : lo ≤ mid) (lowest : Lowest words mid n) :
    Lowest words lo n :=
  ⟨hle.trans lowest.from_lo, lowest.isSet, below.append lowest.clear⟩

section Congr

variable (same : ∀ m, i < m → words m = words' m)

include same

theorem summaryBit_congr (hn : 32 * (i + 1) ≤ n) : summaryBit words n = summaryBit words' n := by
  unfold summaryBit
  rw [same (n / 32) (by omega)]

theorem Clear.congr (clear : Clear words' (32 * (i + 1)) hi) : Clear words (32 * (i + 1)) hi := by
  intro n hlo hn
  rw [summaryBit_congr same hlo]
  exact clear n hlo hn

theorem Lowest.congr (lowest : Lowest words' (32 * (i + 1)) n) :
    Lowest words (32 * (i + 1)) n := by
  refine ⟨lowest.from_lo, ?_, lowest.clear.congr same⟩
  rw [summaryBit_congr same lowest.from_lo]
  exact lowest.isSet

end Congr

end Bits

/-! ### A device that keeps its stores -/

/-- The device, with the stores made to it. -/
def Registers.logged (regs : Registers δ) : Registers (δ × List (Nat × BitVec 32)) where
  load w o s := ((regs.load w o s.1).1, (regs.load w o s.1).2, s.2)
  store o v s := (regs.store o v s.1, s.2 ++ [(o, v)])

@[simp] theorem logged_loadU32 (regs : Registers δ) (w : RegSize) (o : Nat)
    (s : δ × List (Nat × BitVec 32)) :
    regs.logged.loadU32 w o s = ((regs.loadU32 w o s.1).1, (regs.loadU32 w o s.1).2, s.2) := rfl

/-- A byte written is a word stored with the byte in it. -/
theorem logged_writeByte (regs : Registers δ) (v : BitVec 32) {addr : Nat} (haddr : addr < 2 ^ 32)
    (s : δ × List (Nat × BitVec 32)) :
    ∃ old, (xpDevRegWrite regs.logged [v] (BitVec.ofNat 32 addr) 1 s).2.2 =
      s.2 ++ [(addr, (old &&& ~~~0xFF#32) ||| (v &&& 0xFF#32))] := by
  have hoffset : (BitVec.ofNat 32 addr).toNat = addr := Nat.mod_eq_of_lt haddr
  refine ⟨(regs.loadU32 .dword addr s.1).1, ?_⟩
  simp [xpDevRegWrite, RegSize.ofNat?, storeEach, storeOne, Registers.logged, hoffset,
    Registers.loadU32]

theorem logged_writeDword (regs : Registers δ) (v : BitVec 32) {addr : Nat}
    (haddr : addr < 2 ^ 32) (s : δ × List (Nat × BitVec 32)) :
    (xpDevRegWrite regs.logged [v] (BitVec.ofNat 32 addr) 4 s).2.2 = s.2 ++ [(addr, v)] := by
  have hoffset : (BitVec.ofNat 32 addr).toNat = addr := Nat.mod_eq_of_lt haddr
  simp [xpDevRegWrite, RegSize.ofNat?, storeEach, storeOne, Registers.logged, hoffset]

/-! ### What the handler reports -/

/-- Queue `queue` is reported: its event is the one queued, and the stores clear its
status register and acknowledge source bit `n`. -/
def ReportsQueue (priv : IrqPriv) (queue : BitVec 1 × BitVec 6) (n : Nat)
    (r : Int × List XpWork × δ × List (Nat × BitVec 32)) : Prop :=
  ∃ intrStatus value, r.2.1 = [irqWork priv (queueInfo priv queue intrStatus)] ∧
    value &&& 0xFF#32 = 0x7#32 ∧
    r.2.2.2 = [(statusRegAddr priv.mode queue, value),
      (irqRegOffset .highIntrSourceReg priv.mode + 4 * (n / 32), 1#32 <<< (n % 32))]

/-- Nothing is reported and nothing stored. -/
def ReportsNone (r : Int × List XpWork × δ × List (Nat × BitVec 32)) : Prop :=
  r.2.1 = [] ∧ r.2.2.2 = []

theorem not_reportsNone {priv : IrqPriv} {queue : BitVec 1 × BitVec 6} {n : Nat}
    {r : Int × List XpWork × δ × List (Nat × BitVec 32)} (h : ReportsQueue priv queue n r) :
    ¬ ReportsNone r := by
  obtain ⟨status, value, hworks, -⟩ := h
  rintro ⟨hnone, -⟩
  rw [hworks] at hnone
  cases hnone

section Report

variable {regs : Registers δ} {priv : IrqPriv} {kmalloc : Nat → Bool}

theorem statusRegAddr_lt (mode : AddressMode) (queue : BitVec 1 × BitVec 6) :
    statusRegAddr mode queue < 2 ^ 32 := by
  have hqueue : queue.2.toNat < 2 ^ 6 := queue.2.isLt
  have hbase : ∀ reg, irqRegOffset reg mode ≤ 0x08b50800 := by
    intro reg
    cases reg <;> cases mode <;> decide
  have hrx := hbase .dma0RxdoneStatusReg
  have htx := hbase .dma0TxdoneStatusReg
  unfold statusRegAddr dma0Done
  split <;> omega

theorem sourceAddr_lt (mode : AddressMode) {i : Nat} (hi : i < 8) :
    irqRegOffset .highIntrSourceReg mode + i * 4 < 2 ^ 32 := by
  have hbase : irqRegOffset .highIntrSourceReg mode ≤ 0x08a802c4 := by cases mode <;> decide
  omega

theorem cleared_byte (old : BitVec 32) :
    ((old &&& ~~~0xFF#32) ||| (0x7#32 &&& 0xFF#32)) &&& 0xFF#32 = 0x7#32 := by
  have hkept : old &&& ~~~0xFF#32 &&& 0xFF#32 = 0#32 := by
    rw [BitVec.and_assoc, BitVec.not_and_self]
    exact BitVec.and_zero
  rw [BitVec.and_or_distrib_right, hkept]
  rfl

/-- With memory for the event, the queue of the bit is reported. -/
theorem mgmtReport_granted (hgranted : kmalloc 0 = true) {n : Nat} (hn : n < 160) (d : δ) :
    ReportsQueue priv (mgmtQueue priv.mode n) n
      (mgmtReport regs.logged priv kmalloc (n / 32) (n % 32) (d, [])) := by
  have hsplit : n / 32 * 32 + n % 32 = n := by omega
  have hsource : irqRegOffset .highIntrSourceReg priv.mode + n / 32 * 4 < 2 ^ 32 :=
    sourceAddr_lt priv.mode (by omega)
  have hstatus := statusRegAddr_lt priv.mode (mgmtQueue priv.mode n)
  let intrStatus := regs.logged.loadU32 .dword (statusRegAddr priv.mode (mgmtQueue priv.mode n))
    (d, [])
  obtain ⟨old, hcleared⟩ := logged_writeByte regs 0x7#32 hstatus intrStatus.2
  have hacked := logged_writeDword regs (1#32 <<< (n % 32)) hsource
    (xpDevRegWrite regs.logged [0x7#32]
      (BitVec.ofNat 32 (statusRegAddr priv.mode (mgmtQueue priv.mode n))) 1 intrStatus.2).2
  rw [hcleared] at hacked
  unfold mgmtReport
  simp only [hsplit, hgranted]
  refine ⟨intrStatus.1, _, rfl, cleared_byte old, ?_⟩
  rw [Nat.mul_comm 4]
  exact hacked

/-- Without it, nothing is. -/
theorem mgmtReport_refused (hrefused : kmalloc 0 = false) (i j : Nat) (d : δ) :
    ReportsNone (mgmtReport regs.logged priv kmalloc i j (d, [])) := by
  unfold mgmtReport
  simp [hrefused, ReportsNone]

end Report

/-! ### The scan -/

section Scan

variable (regs : Registers δ) (priv : IrqPriv) (kmalloc : Nat → Bool) {mode : AddressMode}

theorem sourceLoads_here (count i : Nat) (s : δ) :
    (sourceLoads regs mode i (count + 1) s).getD (i - i) 0 =
      (regs.loadU32 .dword (irqRegOffset .highIntrSourceReg mode + 4 * i) s).1 := by
  rw [Nat.sub_self]
  rfl

theorem sourceLoads_later (count i : Nat) (s : δ) {m : Nat} (hm : i < m) :
    (sourceLoads regs mode i (count + 1) s).getD (m - i) 0 =
      (sourceLoads regs mode (i + 1) count
        (regs.loadU32 .dword (irqRegOffset .highIntrSourceReg mode + 4 * i) s).2).getD
          (m - (i + 1)) 0 := by
  have hleft : m - i = m - (i + 1) + 1 := by omega
  rw [hleft]
  rfl

/-- The scan over `count` words from word `i` on ends with the lowest bit it is to
look at, or finds them all clear. By induction on the words. -/
theorem mgmtSources_run (count i : Nat) (s : δ) (log : List (Nat × BitVec 32)) :
    let words := fun m => (sourceLoads regs priv.mode i count s).getD (m - i) 0
    let lo := max (dma0IntrStartBitPos priv.mode) (32 * i)
    let run := mgmtSources regs.logged priv kmalloc (List.range' i count) (s, log)
    (∃ d, run = (0, [], d, log) ∧ Clear words lo (32 * (i + count))) ∨
      ∃ n d, n < 32 * (i + count) ∧ Lowest words lo n ∧
        run = mgmtReport regs.logged priv kmalloc (n / 32) (n % 32) (d, log) := by
  induction count generalizing i s with
  | zero =>
      refine .inl ⟨s, rfl, ?_⟩
      intro n hlo hhi
      omega
  | succ count ih =>
      intro words lo run
      have hstart := dma0IntrStartBitPos_lt priv.mode
      let source := regs.loadU32 .dword (irqRegOffset .highIntrSourceReg priv.mode + 4 * i) s
      let j := if i = 0 then dma0IntrStartBitPos priv.mode else 0
      have hj : lo = 32 * i + j := by
        change lo = 32 * i + (if i = 0 then dma0IntrStartBitPos priv.mode else 0)
        split <;> omega
      have hhere : words i = source.1 := sourceLoads_here regs count i s
      have hlater : ∀ m, i < m →
          words m = (sourceLoads regs priv.mode (i + 1) count source.2).getD (m - (i + 1)) 0 :=
        fun m hm => sourceLoads_later regs count i s hm
      have hlist : run = mgmtSources regs.logged priv kmalloc
          (i :: List.range' (i + 1) count) (s, log) := by
        rw [← List.range'_succ]
      cases hfirst : firstSetBit source.1 j with
      | some b =>
          have hb := (firstSetBit_eq_some hfirst).2.1
          have hdiv : (32 * i + b) / 32 = i := by omega
          have hmod : (32 * i + b) % 32 = b := by omega
          have hrun : run = mgmtReport regs.logged priv kmalloc i b (source.2, log) :=
            hlist.trans (mgmtSources_some regs.logged priv kmalloc _ hfirst)
          rw [← hhere] at hfirst
          refine .inr ⟨32 * i + b, source.2, by omega, hj ▸ lowest_of_firstSetBit hfirst, ?_⟩
          rw [hrun, hdiv, hmod]
      | none =>
          have hrun : run = mgmtSources regs.logged priv kmalloc (List.range' (i + 1) count)
              (source.2, log) :=
            hlist.trans (mgmtSources_none regs.logged priv kmalloc _ hfirst)
          rw [← hhere] at hfirst
          have hzero : Clear words lo (32 * (i + 1)) := hj ▸ clear_of_firstSetBit hfirst
          have hnext : max (dma0IntrStartBitPos priv.mode) (32 * (i + 1)) = 32 * (i + 1) := by omega
          have hend : i + (count + 1) = i + 1 + count := by omega
          have hbelow : lo ≤ 32 * (i + 1) := by omega
          have later := ih (i + 1) source.2
          rw [hnext] at later
          rw [hend]
          rcases later with ⟨d, hdone, hall⟩ | ⟨n, d, hn, hlowest, hreport⟩
          · exact .inl ⟨d, hrun.trans hdone, hzero.append (hall.congr hlater)⟩
          · exact .inr ⟨n, d, hn, hzero.lowest hbelow (hlowest.congr hlater), hrun.trans hreport⟩

end Scan

/-! ### The handler -/

section Contract

variable (regs : Registers δ) (priv : IrqPriv) (kmalloc : Nat → Bool) (s : δ)

/-- What `xp_irq_mgmt_handler` is to do: report the queue of the lowest bit of DMA0,
clear its status and acknowledge the bit; with no such bit, report no queue and
write no register. -/
def ReportsLowest : Prop :=
  let words := sourceWords regs priv.mode s
  let run := xpIrqMgmtHandler regs.logged priv kmalloc (s, [])
  (∀ n, n < dma0End priv.mode → Lowest words (dma0IntrStartBitPos priv.mode) n →
    ReportsQueue priv (dma0Queue priv.mode n) n run) ∧
  (Clear words (dma0IntrStartBitPos priv.mode) (dma0End priv.mode) → ReportsNone run)

/-- A bit of DMA0 is set and its event finds memory; or none is set, and neither is
one behind them, or that one finds no memory. -/
def SourcesAllow : Prop :=
  let words := sourceWords regs priv.mode s
  if Clear words (dma0IntrStartBitPos priv.mode) (dma0End priv.mode) then
    Clear words (dma0End priv.mode) 160 ∨ kmalloc 0 = false
  else kmalloc 0 = true

end Contract

section Handler

variable {regs : Registers δ} {priv : IrqPriv} {kmalloc : Nat → Bool} {s : δ}

/-- The handler's scan is over all 160 bits. -/
theorem xpIrqMgmtHandler_run (regs : Registers δ) (priv : IrqPriv) (kmalloc : Nat → Bool) (s : δ) :
    let words := sourceWords regs priv.mode s
    let run := xpIrqMgmtHandler regs.logged priv kmalloc (s, [])
    (ReportsNone run ∧ Clear words (dma0IntrStartBitPos priv.mode) 160) ∨
      ∃ n d, n < 160 ∧ Lowest words (dma0IntrStartBitPos priv.mode) n ∧
        run = mgmtReport regs.logged priv kmalloc (n / 32) (n % 32) (d, []) := by
  have hrange : List.range highIntrSrcRegSize = List.range' 0 highIntrSrcRegSize :=
    List.range_eq_range'
  have hrun := mgmtSources_run regs priv kmalloc highIntrSrcRegSize 0 s []
  rw [← hrange] at hrun
  simp only [Nat.mul_zero, Nat.max_zero, Nat.sub_zero, Nat.zero_add] at hrun
  rcases hrun with ⟨d, hdone, hclear⟩ | ⟨n, d, hn, hlowest, hreport⟩
  · refine .inl ⟨?_, hclear⟩
    unfold xpIrqMgmtHandler
    rw [hdone]
    exact ⟨rfl, rfl⟩
  · exact .inr ⟨n, d, hn, hlowest, hreport⟩

theorem Lowest.unique {words : Nat → BitVec 32} {lo m n : Nat} (hm : Lowest words lo m)
    (hn : Lowest words lo n) : m = n := by
  rcases Nat.lt_trichotomy m n with hlt | heq | hgt
  · have hclear := hn.clear m hm.from_lo hlt
    rw [hm.isSet] at hclear
    cases hclear
  · exact heq
  · have hclear := hm.clear n hn.from_lo hgt
    rw [hn.isSet] at hclear
    cases hclear

theorem not_clear {words : Nat → BitVec 32} {lo hi n : Nat} (hlo : lo ≤ n) (hhi : n < hi)
    (hset : summaryBit words n = true) : ¬ Clear words lo hi := by
  intro hclear
  rw [hclear n hlo hhi] at hset
  cases hset

end Handler

/-- **What the management handler reports.** For every device, and with it every
content of the source words, the handler does what it is for exactly when a bit of
DMA0 is set and its event finds memory, or none is set and the bits behind them are
clear too, or the event for those finds no memory. -/
theorem xpIrqMgmtHandler_iff (regs : Registers δ) (priv : IrqPriv) (kmalloc : Nat → Bool) (s : δ) :
    ReportsLowest regs priv kmalloc s ↔ SourcesAllow regs priv kmalloc s := by
  have hend : dma0IntrStartBitPos priv.mode ≤ dma0End priv.mode ∧ dma0End priv.mode ≤ 160 := by
    have hstart := dma0IntrStartBitPos_lt priv.mode
    unfold dma0End totalRxQueue totalTxQueue
    omega
  unfold ReportsLowest SourcesAllow
  simp only
  rcases xpIrqMgmtHandler_run regs priv kmalloc s with
    ⟨hnone, hclear⟩ | ⟨n, d, hn, hlowest, hrun⟩
  · -- no bit of the five words is set
    have hdma0 : Clear (sourceWords regs priv.mode s) (dma0IntrStartBitPos priv.mode)
        (dma0End priv.mode) := fun n hlo hhi => hclear n hlo (Nat.lt_of_lt_of_le hhi hend.2)
    rw [if_pos hdma0]
    constructor
    · exact fun _ => .inl fun n hlo hhi => hclear n (Nat.le_trans hend.1 hlo) hhi
    · intro _
      refine ⟨?_, fun _ => hnone⟩
      intro n hhi hlowest
      exact absurd hdma0 (not_clear hlowest.from_lo hhi hlowest.isSet)
  · rw [hrun]
    by_cases hmine : n < dma0End priv.mode
    · -- the lowest bit is one of DMA0
      rw [if_neg (not_clear hlowest.from_lo hmine hlowest.isSet)]
      constructor
      · rintro ⟨hreports, -⟩
        by_contra hrefused
        exact not_reportsNone (hreports n hmine hlowest)
          (mgmtReport_refused (by simpa using hrefused) _ _ d)
      · intro hgranted
        constructor
        · intro m _ hm
          rw [hm.unique hlowest, ← mgmtQueue_of_mem hlowest.from_lo hmine]
          exact mgmtReport_granted hgranted hn d
        · exact fun hclear => absurd hclear (not_clear hlowest.from_lo hmine hlowest.isSet)
    · -- it lies behind them
      have hclear : Clear (sourceWords regs priv.mode s) (dma0IntrStartBitPos priv.mode)
          (dma0End priv.mode) := fun m hlo hhi => hlowest.clear m hlo (by omega)
      rw [if_pos hclear]
      constructor
      · rintro ⟨-, hreports⟩
        refine .inr ?_
        by_contra hgranted
        exact not_reportsNone (mgmtReport_granted (by simpa using hgranted) hn d)
          (hreports hclear)
      · rintro (hbehind | hrefused)
        · exact absurd hbehind (not_clear (Nat.not_lt.mp hmine) hn hlowest.isSet)
        · refine ⟨?_, fun _ => mgmtReport_refused hrefused _ _ d⟩
          intro m hhi hm
          exact absurd hclear (not_clear hm.from_lo hhi hm.isSet)

/-- Bit 136 of the source words of an A0 device. -/
def pastDma0 : Image := fun o => if o = 0x08a8018c + 17 then 0x01 else 0

/-- The first bit behind DMA0 is reported as TX queue 0. -/
theorem mgmt_reports_past_dma0 :
    ¬ ReportsLowest memory ⟨.a0Uncompressed, 0, 1, true⟩ (fun _ => true) pastDma0 := by
  rintro ⟨-, hnone⟩
  have hclear : Clear (sourceWords memory .a0Uncompressed pastDma0) 8 136 := by
    intro n hlo hhi
    revert n
    decide +kernel
  have hworks : (xpIrqMgmtHandler memory.logged ⟨.a0Uncompressed, 0, 1, true⟩ (fun _ => true)
      (pastDma0, [])).2.1.length = 1 := by decide +kernel
  rw [(hnone hclear).1] at hworks
  cases hworks

end XpNet.Pci

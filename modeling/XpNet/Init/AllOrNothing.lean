/-
The two queue setups when the memory runs out at any point.

The init of a queue that is refused some memory undoes itself, and the setup then takes
the queues before it down (`setup_refused`): a failed setup has released what it
obtained, once. `xpnet_tx_desc_init` does not see that it gets no buffer, so a TX setup
can succeed without some; that is the one way in which a setup does a part
(`setups_all_or_nothing_iff`).
-/

import XpNet.Init.Requests

namespace XpNet.Init

open XpNet.Intf (enomem)
open XpNet.Pci (pageSize)

/-! ### What is promised -/

/-- Every descriptor of the queue has its buffer; the two kinds of queue have as many
descriptors. -/
def FullyBuffered (q : XpnetQueue) : Prop :=
  q.xpqNumDesc = xpnetRxNumDescs ∧ ∀ n < q.xpqNumDesc, (q.xpqDescMeta n).bufVa.isSome = true

/-- The setup returns. It either says that all went well and every queue is fully
buffered, or it fails and what it obtained is released once; and nothing has been
released twice. -/
def AllOrNothing (l : Ledger Resource) (num : Nat)
    (result : Option (Int × Queues × Ledger Resource)) : Prop :=
  ∃ rc queues l', result = some (rc, queues, l') ∧ l'.Sound ∧
    (rc = 0 ∧ (∀ i < num, FullyBuffered (queues i)) ∨ rc < 0 ∧ l.ReleasedSince l')

/-- Every queue gets its block, and some descriptor no buffer. -/
def MissesBuffer (mem : Nat → QueueMemory) (num : Nat) : Prop :=
  (∀ i < num, (mem i).descs = true) ∧
    ∃ i < num, ∃ n < xpnetTxNumDescs, (mem i).buf n = false

/-! ### The two setups -/

theorem QueueUp.fullyBuffered {good : Nat → XpnetDesc → Prop} {q : XpnetQueue}
    (up : QueueUp good q)
    (hbuf : ∀ n < xpnetRxNumDescs, good n (q.xpqDescMeta n) →
      (q.xpqDescMeta n).bufVa.isSome = true) : FullyBuffered q := by
  refine ⟨up.numDesc, fun n hn => ?_⟩
  rw [up.numDesc] at hn
  exact hbuf n hn (up.descs n hn).2

section Setups

variable {l : Ledger Resource}

theorem rxSetup_allOrNothing (sound : l.Sound) (mem : Nat → QueueMemory) (num : Nat)
    (queues : Queues) : AllOrNothing l num (xpnetRxQueueSetup mem num queues l) := by
  have owes := sound.owes
  by_cases hall : ∀ i < num, (mem i).Grants
  · obtain ⟨queues', l', heq, hup, -, howes⟩ := setup_owes (fun _ _ => RxGood)
      List.nodup_range (fun i hi => rxQueueInit_owes (hall i (List.mem_range.mp hi)).1
        (hall i (List.mem_range.mp hi)).2) queues l
    refine ⟨0, queues', l', heq, (howes _ owes).sound, .inl ⟨rfl, fun i hi => ?_⟩⟩
    exact (hup i (List.mem_range.mpr hi)).fullyBuffered fun _ _ hgood => hgood.1
  · obtain ⟨_, _, _, _, rc, queues', l', -, -, -, -, hrc, -, -, -, heq, howes⟩ :=
      setup_refused (fun i => (mem i).Grants) (fun _ _ => RxGood)
        (fun i hgrant => rxQueueInit_owes hgrant.1 hgrant.2) (fun i hno => rxQueueInit_undoes hno)
        hall queues l
    have howes' := howes _ owes
    exact ⟨rc, queues', l', heq, howes'.sound, .inr ⟨hrc, owes.releasedSince howes'⟩⟩

theorem txSetup_allOrNothing_iff (sound : l.Sound) (mem : Nat → QueueMemory) (num : Nat)
    (queues : Queues) :
    AllOrNothing l num (xpnetTxQueueSetup mem num queues l) ↔ ¬ MissesBuffer mem num := by
  have owes := sound.owes
  by_cases hall : ∀ i < num, (mem i).descs = true
  · obtain ⟨queues', l', heq, hup, -, howes⟩ := setup_owes (fun i => TxGood (mem i))
      List.nodup_range (fun i hi => txQueueInit_owes (hall i (List.mem_range.mp hi))) queues l
    constructor
    · rintro ⟨rc, queues₁, l₁, heq₁, -, hcases⟩ ⟨-, i, hi, n, hn, hno⟩
      rw [xpnetTxQueueSetup, heq] at heq₁
      cases heq₁
      rcases hcases with ⟨-, hfull⟩ | ⟨hrc, -⟩
      · have hgood := ((hup i (List.mem_range.mpr hi)).descs n hn).2
        obtain ⟨hnum, hbuf⟩ := hfull i hi
        rw [TxGood, hno, hbuf n (hnum ▸ hn)] at hgood
        cases hgood
      · exact absurd hrc (lt_irrefl 0)
    · intro hnot
      refine ⟨0, queues', l', heq, (howes _ owes).sound, .inl ⟨rfl, fun i hi => ?_⟩⟩
      refine (hup i (List.mem_range.mpr hi)).fullyBuffered fun n hn hgood => ?_
      rw [TxGood] at hgood
      rw [hgood]
      by_contra hno
      exact hnot ⟨hall, i, hi, n, hn, by simpa using hno⟩
  · obtain ⟨_, _, _, _, rc, queues', l', -, -, -, -, hrc, -, -, -, heq, howes⟩ :=
      setup_refused (fun i => (mem i).descs = true) (fun i => TxGood (mem i))
        (fun i hgrant => txQueueInit_owes hgrant) (fun i hno => txQueueInit_undoes hno) hall
        queues l
    have howes' := howes _ owes
    exact iff_of_true
      ⟨rc, queues', l', heq, howes'.sound, .inr ⟨hrc, owes.releasedSince howes'⟩⟩
      fun hmiss => hall hmiss.1

/-- For all numbers of queues and all patterns of refused memory both setups are all or
nothing, exactly when the TX setup does not get all blocks of descriptors and miss a
buffer. -/
theorem setups_all_or_nothing_iff (sound : l.Sound) (rxMem txMem : Nat → QueueMemory)
    (rxNum txNum : Nat) (rxQueues txQueues : Queues) :
    (AllOrNothing l rxNum (xpnetRxQueueSetup rxMem rxNum rxQueues l) ∧
        AllOrNothing l txNum (xpnetTxQueueSetup txMem txNum txQueues l)) ↔
      ¬ MissesBuffer txMem txNum := by
  rw [← txSetup_allOrNothing_iff sound txMem txNum txQueues]
  exact and_iff_right (rxSetup_allOrNothing sound rxMem rxNum rxQueues)

end Setups

/-- Two RX queues of which the second gets three buffers, and two TX queues of which the
second gets no block. -/
theorem setups_undone_at_second :
    AllOrNothing .blank 2 (xpnetRxQueueSetup (fun i => ⟨true, fun n => i = 0 ∨ n < 3⟩) 2
        (fun _ => zeroQueue) .blank) ∧
      AllOrNothing .blank 2 (xpnetTxQueueSetup (fun i => ⟨i = 0, fun _ => true⟩) 2
        (fun _ => zeroQueue) .blank) :=
  (setups_all_or_nothing_iff Ledger.owes_blank.sound _ _ 2 2 _ _).mpr fun hmiss =>
    absurd (hmiss.1 1 (by decide)) (by decide)

/-- One TX queue that gets its block and no buffer: the setup succeeds. -/
theorem set_up_without_buffers :
    ¬ AllOrNothing .blank 1 (xpnetTxQueueSetup (fun _ => ⟨true, fun _ => false⟩) 1
      (fun _ => zeroQueue) .blank) := by
  rw [txSetup_allOrNothing_iff Ledger.owes_blank.sound, not_not]
  exact ⟨fun _ _ => rfl, 0, by decide, 0, by decide, rfl⟩

end XpNet.Init

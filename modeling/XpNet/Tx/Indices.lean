/-
The ring indices of a TX queue, over every sequence of `xpnet_hard_start_xmit`
and `xpnet_tx_complete` calls and whatever the device does to `qword[0]` of the
descriptors meanwhile.

`At r s` says that the queue's `head` and `tail` are those of the abstract ring
`r`. Each call is a step of that ring: an accepted frame of `k` shards is
`r.push k` with `k ≤ r.free`, each completed descriptor is `r.pop` with
`0 < r.busy`, and the A0 rewind is the empty ring. `index_safe` draws the
consequences for the code's own index arithmetic.
-/

import XpNet.Tx.Rules

namespace XpNet.Tx

open XpNet.Interference

/-! ### The environment and the calls -/

/-- `qword[0]` of any descriptors changes, in any way; so does the allocator. -/
def BitEnv (s s' : State) : Prop :=
  ∃ (bits : Nat → BitVec 64) (ok : Bool), s' =
    { s with
      allocOk := ok
      queue := { s.queue with descMeta := fun i => { s.desc i with qword0 := bits i } } }

inductive Call where
  | hardStartXmit (skb : Option SkBuff)
  | txComplete (maxiter : Nat)

def Call.prog : Call → TxProg Unit
  | .hardStartXmit skb => do let _ ← xpnetHardStartXmit skb
  | .txComplete maxiter => xpnetTxComplete maxiter

def runCalls : List Call → TxProg Unit
  | [] => pure ()
  | call :: calls => do
    call.prog
    runCalls calls

/-- A queue as `xpnet_tx_queue_init` leaves it. -/
def Initial (numDesc : Nat) (s : State) : Prop :=
  s.armed = [] ∧ ∃ dma bufs, s.queue = xpnetTxQueueInit s.isA0 numDesc dma bufs

theorem initial_freshState (hwFlags : BitVec 32) (mode : AddressMode) (numDesc : Nat) :
    Initial numDesc (freshState hwFlags mode numDesc) :=
  ⟨rfl, _, _, rfl⟩

/-! ### The indices as a ring -/

/-- The queue's indices are those of the ring `r`. -/
structure At (r : Ring) (s : State) : Prop where
  numDesc : s.queue.xpqNumDesc = r.size
  head : s.queue.head = r.head
  tail : s.queue.tail = r.tail

/-- The empty ring of `n` slots, as initialization and the A0 rewind leave it. -/
def emptyRing (n : Nat) (pos : 0 < n) : Ring where
  size := n
  head := n - 1
  tail := 0
  head_lt := by omega
  tail_lt := pos

theorem emptyRing_inflight {n : Nat} (pos : 0 < n) : (emptyRing n pos).inflight = [] := by
  have busy : (emptyRing n pos).busy = 0 := by
    change (n + 0 - (n - 1 + 1)) % n = 0
    rw [show n + 0 - (n - 1 + 1) = 0 by omega, Nat.zero_mod]
  rw [Ring.inflight, busy]
  rfl

theorem Initial.at {n : Nat} {s : State} (init : Initial n s) (pos : 0 < n) :
    At (emptyRing n pos) s := by
  obtain ⟨-, dma, bufs, hq⟩ := init
  cases h : s.isA0 <;> rw [h] at hq <;> exact ⟨by rw [hq]; rfl, by rw [hq]; rfl, by rw [hq]; rfl⟩

theorem At.updDesc {r : Ring} {s : State} (h : At r s) (i : Nat) (f : Desc → Desc) :
    At r (s.updDesc i f) := ⟨h.numDesc, h.head, h.tail⟩

theorem At.free {r : Ring} {s : State} (h : At r s) (size : RingSize r.size) :
    xpnetGetFreeDesc s.queue.xpqNumDesc s.queue.head s.queue.tail = r.free := by
  rw [h.numDesc, h.head, h.tail, xpnetGetFreeDesc_eq r size]

theorem At.busy {r : Ring} {s : State} (h : At r s) (size : RingSize r.size) :
    xpnetGetBusyDesc s.queue.xpqNumDesc s.queue.head s.queue.tail = r.busy := by
  rw [h.numDesc, h.head, h.tail, xpnetGetBusyDesc_eq r size]

/-- Advancing `tail` by a frame's shards is a push. -/
theorem At.push {r : Ring} {s : State} (h : At r s) (size : RingSize r.size) {k : Nat}
    (hk : k ≤ r.size) (arm : List Nat) :
    At (r.push k) { s.updQueue fun q => { q with tail := xpnetAddAndWrap q.tail k r.size } with
      armed := arm } where
  numDesc := h.numDesc
  head := h.head
  tail := by
    change xpnetAddAndWrap s.queue.tail k r.size = slot r.size r.tail k
    rw [h.tail, xpnetAddAndWrap_eq size (Nat.le_of_lt r.tail_lt) hk]

/-- Advancing `head` by one descriptor is a pop. -/
theorem At.pop {r : Ring} {s : State} (h : At r s) (size : RingSize r.size) :
    At r.pop (s.updQueue fun q => { q with head := xpnetAddAndWrap q.head 1 q.xpqNumDesc }) where
  numDesc := h.numDesc
  head := by
    change xpnetAddAndWrap s.queue.head 1 s.queue.xpqNumDesc = slot r.size r.head 1
    rw [h.numDesc, h.head, xpnetAddAndWrap_eq size (Nat.le_of_lt r.head_lt) size.pos]
  tail := h.tail

/-- The A0 rewind empties the ring. -/
theorem At.rewind {r : Ring} {s : State} (h : At r s) :
    At (emptyRing r.size r.size_pos)
      (s.updQueue fun q => { q with head := q.xpqNumDesc - 1, tail := 0 }) where
  numDesc := h.numDesc
  head := by
    change s.queue.xpqNumDesc - 1 = r.size - 1
    rw [h.numDesc]
  tail := rfl

theorem bitEnv_stable_at (r : Ring) : Stable BitEnv (At r) := by
  rintro s s' ⟨bits, ok, rfl⟩ h
  exact ⟨h.numDesc, h.head, h.tail⟩

theorem bitEnv_keepsBuffers : KeepsBuffers BitEnv := by
  rintro s s' i ⟨bits, ok, rfl⟩
  rfl

/-! ### What holds of the indices -/

/-- The index facts of one state. -/
structure IndexInv (n : Nat) (s : State) : Prop where
  numDesc : s.queue.xpqNumDesc = n
  head_lt : s.queue.head < n
  tail_lt : s.queue.tail < n
  /-- The subtraction of `xpnet_get_busy_desc` does not wrap. -/
  above_zero : u32Add s.queue.head 1 ≤ u32Add n s.queue.tail
  busy_add_free : xpnetGetBusyDesc n s.queue.head s.queue.tail +
    xpnetGetFreeDesc n s.queue.head s.queue.tail = n - 1

theorem At.indexInv {r : Ring} {s : State} (h : At r s) (size : RingSize r.size) :
    IndexInv r.size s where
  numDesc := h.numDesc
  head_lt := h.head ▸ r.head_lt
  tail_lt := h.tail ▸ r.tail_lt
  above_zero := by
    have := size.sums_fit
    have hh := r.head_lt
    have ht := r.tail_lt
    rw [h.head, h.tail]
    unfold u32Add
    omega
  busy_add_free := by
    rw [h.head, h.tail, xpnetGetBusyDesc_eq r size, xpnetGetFreeDesc_eq r size]
    exact r.busy_add_free

/-- What one action does to the indices: the two messages that report a broken
ring never come, and `k` shards enqueued fit the free descriptors and raise the
busy ones by `k`. -/
def IndexStep (n : Nat) (s : State) (lab : Ev) (s' : State) : Prop :=
  match lab with
  | .corruption | .emptyQueue => False
  | .moveTail _ k => k ≤ xpnetGetFreeDesc n s.queue.head s.queue.tail ∧
      xpnetGetBusyDesc n s'.queue.head s'.queue.tail =
        xpnetGetBusyDesc n s.queue.head s.queue.tail + k
  | _ => True

/-- The guarantee of every action. -/
def IndexGuar (n : Nat) (s : State) (lab : Ev) (s' : State) : Prop :=
  IndexInv n s' ∧ IndexStep n s lab s'

section Calls

variable {r : Ring} {asm : State → Ev → Prop}

/-- Still actions leave the indices of a ring alone. -/
theorem wp_still (size : RingSize r.size) {α : Type} {p : TxProg α} (still : Always Still p)
    {s : State} (holds : At r s) :
    wp BitEnv asm (IndexGuar r.size) p (fun _ t => At r t) s := by
  refine wp_frame (bitEnv_stable_at r) holds (still.mono fun lab u step t ht _ => ?_)
  obtain ⟨numDesc, head, tail⟩ := step.indices t
  have ht' : At r (u t) := ⟨numDesc.trans ht.numDesc, head.trans ht.head, tail.trans ht.tail⟩
  refine ⟨⟨ht'.indexInv size, ?_⟩, ht'⟩
  have label := step.label
  cases lab <;> trivial

variable (size : RingSize r.size)
include size

/-- Enqueueing leaves the indices to its caller. -/
theorem wp_skbStatEnqueue (shards : Nat) {s : State} (holds : At r s) :
    wp BitEnv asm (IndexGuar r.size) (xpnetSkbStatEnqueue shards) (fun _ t => At r t) s := by
  refine wp_look (bitEnv_stable_at r) holds fun t ht _ => ⟨⟨ht.indexInv size, trivial⟩, ?_⟩
  exact wp_still size ((checkShards_still _ _ _).bind fun res => enqueueChecked_still _ _ _ res) ht

/-- The ring after a call: the same size, wherever its indices are. -/
def SomeRing (n : Nat) (s : State) : Prop := ∃ r : Ring, r.size = n ∧ At r s

omit size in
theorem SomeRing.of {s : State} (h : At r s) : SomeRing r.size s := ⟨r, rfl, h⟩

theorem wp_xmitEnqueued (skb : SkBuff) {k : Nat} (hk : k ≤ r.free) (res : EnqueueResult) {s : State}
    (holds : At r s) :
    wp BitEnv asm (IndexGuar r.size) (xmitEnqueued skb r.tail r.size k res)
      (fun _ t => SomeRing r.size t) s := by
  have stable := bitEnv_stable_at r
  have hfree := r.busy_add_free
  cases res with
  | queueBusy => exact wp_ret stable holds fun _ h => .of h
  | queueError =>
      have still : Always Still (xmitEnqueued skb r.tail r.size k .queueError) :=
        (bumpStats_still _).bind fun _ => trivial
      exact wp_mono (fun _ _ h => .of h) (wp_still size still holds)
  | ok =>
      refine wp_emit stable holds fun t ht _ => ⟨⟨ht.indexInv size, trivial⟩, ?_⟩
      apply wp_seq (wp_still size (bumpStats_still _) ht)
      intro _ u hu
      apply wp_write stable hu
      intro v hv _
      have hpush := hv.push size (show k ≤ r.size by omega) []
      refine ⟨⟨hpush.indexInv (r := r.push k) size, ?_⟩, ?_⟩
      · refine ⟨?_, ?_⟩
        · rw [hv.head, hv.tail, xpnetGetFreeDesc_eq r size]
          exact hk
        · rw [hv.head, hv.tail, xpnetGetBusyDesc_eq r size, ← r.busy_push hk, hpush.head, hpush.tail]
          exact xpnetGetBusyDesc_eq (r.push k) size
      · exact wp_ret (bitEnv_stable_at (r.push k)) hpush fun _ h => ⟨r.push k, rfl, h⟩

theorem wp_xmitFrame {skb : SkBuff} (fits : skb.len ≤ r.free * xpnetMaxDmaSegmentSize) {s : State}
    (holds : At r s) :
    wp BitEnv asm (IndexGuar r.size) (xmitFrame skb r.tail r.size r.free)
      (fun _ t => SomeRing r.size t) s := by
  have stable := bitEnv_stable_at r
  have hcount := shardCount_le fits
  refine wp_emit stable holds fun t ht _ => ⟨⟨ht.indexInv size, trivial⟩, ?_⟩
  refine wp_seq (wp_skbToShards stable bitEnv_keepsBuffers size r.tail_lt
    (fun u hu => ⟨hu.numDesc, hu.tail⟩) (fun u hu => ⟨hu.indexInv size, trivial⟩) ?_ ht)
    fun k u hu => ?_
  · intro u i lab f _ hu hw
    have hu' := hu.updDesc i f
    refine ⟨⟨hu'.indexInv size, ?_⟩, hu'⟩
    cases hw <;> trivial
  · obtain ⟨rfl, hu⟩ := hu
    have hfree := r.busy_add_free
    have hbusy := r.busy_lt
    rw [if_neg (size.not_asInt_gt hcount (by omega))]
    exact wp_seq (wp_skbStatEnqueue size _ hu) fun res v hv => wp_xmitEnqueued size skb hcount res hv

theorem wp_xmitFrom (skb : Option SkBuff) {s₀ s : State} (found : At r s₀) (holds : At r s) :
    wp BitEnv asm (IndexGuar r.size) (xmitFrom s₀ skb) (fun _ t => SomeRing r.size t) s := by
  have stable := bitEnv_stable_at r
  have still : ∀ {p : TxProg XmitExit}, Always Still p →
      wp BitEnv asm (IndexGuar r.size) p (fun _ t => SomeRing r.size t) s :=
    fun h => wp_mono (fun _ _ h => .of h) (wp_still size h holds)
  cases skb with
  | none =>
      unfold xmitFrom
      dsimp only
      split
      · exact still (txErrorDrop_still none)
      · exact still (retTxdrop_still none)
  | some skb =>
      refine xmitFrom_cases (P := fun p => wp BitEnv asm (IndexGuar r.size) p
        (fun _ t => SomeRing r.size t) s) (fun _ => still (txErrorDrop_still _))
        (fun _ _ => still trivial) ?_
      rw [found.free size, found.tail, found.numDesc]
      intro _ _ _ hlen _
      have fits : skb.len ≤ r.free * xpnetMaxDmaSegmentSize := Nat.le_trans hlen (u32Mul_le _ _)
      refine wp_look stable holds fun t ht _ => ⟨⟨ht.indexInv size, trivial⟩, ?_⟩
      split
      · have busy : Always Still (Prog.emit (.headBusy r.tail) >>= fun _ =>
            (pure .txbusy : TxProg XmitExit)) := ⟨still_id trivial, fun _ => trivial⟩
        exact wp_mono (fun _ _ h => .of h) (wp_still size busy ht)
      · refine wp_look stable ht fun u hu _ => ⟨⟨hu.indexInv size, trivial⟩, ?_⟩
        split
        · exact wp_ret stable hu fun _ h => .of h
        · exact wp_xmitFrame size fits hu

/-- **`xpnet_hard_start_xmit`** keeps the indices a ring. -/
theorem wp_hardStartXmit (skb : Option SkBuff) {s : State} (holds : At r s) :
    wp BitEnv asm (IndexGuar r.size) (xpnetHardStartXmit skb) (fun _ t => SomeRing r.size t) s :=
  wp_look (bitEnv_stable_at r) holds fun _ ht _ =>
    ⟨⟨ht.indexInv size, trivial⟩, wp_xmitFrom size skb ht ht⟩

end Calls

/-- The completion loop pops one descriptor a round, and never more than are
in flight. -/
theorem wp_txCompleteLoop {asm : State → Ev → Prop} (iter : Nat) : ∀ {r : Ring} {s : State},
    RingSize r.size → iter ≤ r.busy → At r s →
    wp BitEnv asm (IndexGuar r.size) (txCompleteLoop r.size r.tail r.head iter)
      (fun _ t => SomeRing r.size t) s := by
  induction iter with
  | zero => exact fun size _ holds => wp_ret (bitEnv_stable_at _) holds fun _ h => .of h
  | succ iter ih =>
      intro r s size hiter holds
      have stable := bitEnv_stable_at r
      have hnext : xpnetAddAndWrap r.head 1 r.size = slot r.size r.head 1 :=
        xpnetAddAndWrap_eq size (Nat.le_of_lt r.head_lt) size.pos
      have hbusy : 0 < r.busy := by omega
      simp only [txCompleteLoop, hnext]
      rw [if_neg (r.head_succ_ne_tail hbusy)]
      have done : ∀ {t : State} (lab : Ev), lab.still → At r t →
          wp BitEnv asm (IndexGuar r.size) (Prog.emit lab) (fun _ t => SomeRing r.size t) t := by
        intro t lab label ht
        have still : Always Still (Prog.emit lab : TxProg Unit) :=
          ⟨still_id label, fun _ => trivial⟩
        exact wp_mono (fun _ _ h => .of h) (wp_still size still ht)
      refine wp_look stable holds fun t ht _ => ⟨⟨ht.indexInv size, trivial⟩, ?_⟩
      split
      · exact done (.txError _) trivial ht
      · apply wp_seq (wp_still size (awaitOwnership_still _ _) ht)
        intro _ u hu
        refine wp_look stable hu fun v hv _ => ⟨⟨hv.indexInv size, trivial⟩, ?_⟩
        split
        · exact done (.txIncomplete _) trivial hv
        · apply wp_write stable hv
          intro w hw _
          have hpop := hw.pop size
          refine ⟨⟨hpop.indexInv (r := r.pop) size, trivial⟩, ?_⟩
          exact ih (r := r.pop) size (by have := r.busy_pop hbusy; omega) hpop

/-- **`xpnet_tx_complete`** keeps the indices a ring. -/
theorem wp_txComplete {asm : State → Ev → Prop} {r : Ring} (size : RingSize r.size) (maxiter : Nat)
    {s : State} (holds : At r s) :
    wp BitEnv asm (IndexGuar r.size) (xpnetTxComplete maxiter) (fun _ t => SomeRing r.size t) s := by
  refine wp_look (bitEnv_stable_at r) holds fun t ht _ => ⟨⟨ht.indexInv size, trivial⟩, ?_⟩
  have hbusy := ht.busy size
  simp only [id, hbusy]
  rw [ht.numDesc, ht.tail, ht.head]
  have hiter : (if r.busy > maxiter then maxiter else r.busy) ≤ r.busy := by split <;> omega
  apply wp_seq (wp_txCompleteLoop _ size hiter ht)
  intro _ u hu
  obtain ⟨r', hsize, hu⟩ := hu
  have stable := bitEnv_stable_at r'
  unfold rewindA0
  split
  · apply wp_act stable hu
    intro v hv _
    have hrewind := hv.rewind
    rw [← hsize]
    exact ⟨⟨hrewind.indexInv (hsize ▸ size), trivial⟩,
      wp_ret (bitEnv_stable_at _) hrewind fun _ h => ⟨emptyRing r'.size _, rfl, h⟩⟩
  · exact wp_ret stable hu fun _ h => ⟨r', hsize, h⟩

theorem wp_runCalls {asm : State → Ev → Prop} {n : Nat} (size : RingSize n) :
    ∀ (calls : List Call) {s : State}, SomeRing n s →
      wp BitEnv asm (IndexGuar n) (runCalls calls) (fun _ t => SomeRing n t) s
  | [], s, ⟨r, hsize, hr⟩ => wp_ret (bitEnv_stable_at r) hr fun _ h => ⟨r, hsize, h⟩
  | call :: calls, s, ⟨r, hsize, hr⟩ => by
      subst hsize
      have rest : ∀ t, SomeRing r.size t →
          wp BitEnv asm (IndexGuar r.size) (runCalls calls) (fun _ t => SomeRing r.size t) t :=
        fun t ht => wp_runCalls size calls ht
      cases call with
      | hardStartXmit skb =>
          refine wp_seq (wp_bind (wp_mono (fun _ t ht => ?_) (wp_hardStartXmit size skb hr)))
            fun _ => rest
          obtain ⟨r', hsize', hr'⟩ := ht
          exact wp_ret (bitEnv_stable_at r') hr' fun _ h => ⟨r', hsize', h⟩
      | txComplete maxiter => exact wp_seq (wp_txComplete size maxiter hr) fun _ => rest

/-- **The ring indices.** For every ring size, either setting of the A0 flag,
every sequence of `xpnet_hard_start_xmit` and `xpnet_tx_complete` calls and
whatever happens to the ownership and error bits meanwhile: in every state
reached, `head` and `tail` are in range, the subtraction that counts the busy
descriptors does not wrap, and busy and free descriptors make up the ring; and
no action reports a frame larger than the free descriptors or an empty queue,
while enqueueing `k` shards raises the busy count by `k`. -/
theorem indices_safe {n : Nat} (size : RingSize n) {s₀ : State} (init : Initial n s₀)
    (calls : List Call) {p : TxProg Unit} {s : State} {tr : List (State × Ev)}
    (run : Reach BitEnv (fun _ _ => True) (runCalls calls) s₀ p s tr) :
    IndexInv n s ∧ ∀ lab, p.label? = some lab → IndexStep n s lab (p.after s) := by
  have start := init.at size.pos
  have verified : wp BitEnv (fun _ _ => True) (IndexGuar n) (runCalls calls)
      (fun _ t => SomeRing n t) s₀ := wp_runCalls size calls ⟨_, rfl, start⟩
  refine ⟨?_, fun lab label => (run.next verified label trivial).2⟩
  refine run.invariant verified (J := fun _ t => IndexInv n t) (start.indexInv size) ?_ ?_
  · rintro _ t t' ⟨bits, ok, rfl⟩ h
    exact ⟨h.numDesc, h.head_lt, h.tail_lt, h.above_zero, h.busy_add_free⟩
  · exact fun _ _ _ _ guar _ => guar.1

/-- One frame enqueued on the driver's own ring, up to the move of `tail`. -/
theorem indices_safe_one_frame :
    let config := (runCalls [.hardStartXmit (some (zeroFrame 0 1))]).play (List.replicate 25 none)
      (freshState 0 .b0Compressed xpnetTxNumDescs)
    config.1.label? = some (.moveTail 0 1) ∧ IndexInv xpnetTxNumDescs config.2 ∧
      IndexStep xpnetTxNumDescs config.2 (.moveTail 0 1) (config.1.after config.2) := by
  intro config
  have label : config.1.label? = some (.moveTail 0 1) := by decide +kernel
  obtain ⟨_, run⟩ := Reach.of_play_alone (runCalls [.hardStartXmit (some (zeroFrame 0 1))])
    (freshState 0 .b0Compressed xpnetTxNumDescs) 25
  have safe := indices_safe ringSize_txNumDescs (initial_freshState 0 .b0Compressed _) _ run
  exact ⟨label, safe.1, safe.2 _ label⟩

/-- On the largest ring a `u32` can name, the first frame reports a corrupted
queue: read as an `int`, the number of free descriptors is negative. -/
theorem indices_unsafe_max_ring :
    ¬ ∀ n, 2 ≤ n → ∀ s₀, Initial n s₀ → ∀ calls p s tr,
      Reach BitEnv (fun _ _ => True) (runCalls calls) s₀ p s tr →
      IndexInv n s ∧ ∀ lab, p.label? = some lab → IndexStep n s lab (p.after s) := by
  intro hsafe
  obtain ⟨_, run⟩ := Reach.of_play_alone (runCalls [.hardStartXmit (some (zeroFrame 0 1))])
    (freshState 0 .b0Compressed (2 ^ 32 - 1)) 11
  have safe := hsafe _ (by decide) _ (initial_freshState 0 .b0Compressed (2 ^ 32 - 1)) _ _ _ _ run
  exact safe.2 .corruption (by decide +kernel)

end XpNet.Tx

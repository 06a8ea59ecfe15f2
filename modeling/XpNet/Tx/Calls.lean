/-
The transmit calls, from one frame to a run of `xpnet_start_xmit`.

Between two calls the queue is `Idle`: its indices are those of a ring, nothing
is armed, and elsewhere than on A0 the host owns the ring's free region. Every
call goes from an idle queue to an idle queue, and each of its actions meets
`TxGuar`. `runXmit` is a sequence of calls; its runs, with the device acting in
between, are what the results below are about.
-/

import XpNet.Tx.Enqueue

namespace XpNet.Tx

open XpNet.Interference

/-! ### Between two calls -/

/-- The queue of `n` descriptors between two calls. -/
structure Idle (r : Ring) (a0 : Bool) (s : State) : Prop where
  base : Base r a0 s
  armed : s.armed = []

theorem env_stable_idle (r : Ring) (a0 : Bool) : Stable Env (Idle r a0) := fun s s' h idle =>
  ⟨env_stable_base r a0 s s' h idle.base, env_stable_armed (· = []) s s' h idle.armed⟩

/-- An idle queue of `n` descriptors, wherever its indices are. -/
def SomeIdle (n : Nat) (a0 : Bool) (s : State) : Prop := ∃ r : Ring, r.size = n ∧ Idle r a0 s

theorem env_stable_someIdle (n : Nat) (a0 : Bool) : Stable Env (SomeIdle n a0) :=
  fun s s' h ⟨r, hr, idle⟩ => ⟨r, hr, env_stable_idle r a0 s s' h idle⟩

/-- A queue starts idle. -/
theorem Initial.idle {n : Nat} {s : State} (init : Initial n s) (pos : 0 < n) :
    Idle (emptyRing n pos) s.isA0 s where
  base := by
    refine ⟨init.at pos, rfl, ?_, fun _ i _ hown => ?_⟩
    · obtain ⟨-, dma, bufs, hq⟩ := init
      rw [hq]
      exact linked_txQueueInit s.isA0 pos dma bufs
    · obtain ⟨-, dma, bufs, hq⟩ := init
      have hfree : ownership (s.desc i).qword0 = false := by
        rw [State.desc, hq]
        exact qword0_txQueueInit s.isA0 n dma bufs i
      rw [State.owned, hfree] at hown
      cases hown
  armed := init.1

section Calls

variable {c : Prop} {r : Ring} {a0 : Bool} {s : State}

/-- An update of the host's own counters. -/
theorem Idle.updStats (idle : Idle r a0 s) (f : Stats → Stats) : Idle r a0 (s.updStats f) :=
  ⟨⟨⟨idle.base.indices.numDesc, idle.base.indices.head, idle.base.indices.tail⟩, idle.base.flag,
    idle.base.linked, idle.base.fifo⟩, idle.armed⟩

theorem wp_retTxdrop {asm : State → Ev → Prop} (size : RingSize r.size) (skb : Option SkBuff)
    (idle : Idle r a0 s) :
    wp Env asm (TxGuar c) (retTxdrop skb) (fun _ t => Idle r a0 t) s := by
  have stable := env_stable_idle r a0
  have count : ∀ {t : State}, Idle r a0 t → wp Env asm (TxGuar c)
      (do bumpStats fun t => { t with txDropped := t.txDropped + 1 }
          pure XmitExit.txdrop) (fun _ t => Idle r a0 t) t := by
    intro t ht
    apply wp_write stable ht
    intro u hu _
    have hu' := hu.updStats fun t => { t with txDropped := t.txDropped + 1 }
    exact ⟨hu.base.guar_none size hu'.base trivial rfl, wp_ret stable hu' fun _ h => h⟩
  cases skb with
  | none => exact count idle
  | some skb =>
      exact wp_emit stable idle fun t ht _ => ⟨ht.base.guar_none size ht.base trivial rfl, count ht⟩

theorem wp_txErrorDrop {asm : State → Ev → Prop} (size : RingSize r.size) (skb : Option SkBuff)
    (idle : Idle r a0 s) :
    wp Env asm (TxGuar c) (txErrorDrop skb) (fun _ t => Idle r a0 t) s := by
  apply wp_write (env_stable_idle r a0) idle
  intro t ht _
  have ht' := ht.updStats fun t => { t with txErrors := t.txErrors + 1 }
  exact ⟨ht.base.guar_none size ht'.base trivial rfl, wp_retTxdrop size skb ht'⟩

/-! ### A frame -/

/-- Advancing `tail` past a frame that is handed over. -/
theorem Handed.moveTail (size : RingSize r.size) {k : Nat} (hk : k ≤ r.free)
    (handed : Handed r a0 k s) :
    let s' := { s.updQueue fun q => { q with tail := xpnetAddAndWrap q.tail k r.size } with
      armed := [] }
    TxGuar c s (.moveTail r.tail k) s' ∧ Idle (r.push k) a0 s' := by
  intro s'
  have hle : k ≤ r.size := by
    have := r.busy_add_free
    omega
  have indices : At (r.push k) s' := handed.base.indices.push size hle []
  have fifo : a0 = false → ∀ i ∈ (r.push k).freeRegion, s'.owned i = true → i ∈ s'.armed := by
    intro ha i hi hown
    -- a free slot the device owns would be one of the frame's, which are in flight now
    have harmed := handed.base.fifo ha i (r.freeRegion_push hk hi) hown
    refine absurd ?_ ((r.push k).not_inflight_of_free hi)
    rw [r.inflight_push hk]
    exact List.mem_append_right _ (handed.armed i harmed)
  have idle : Idle (r.push k) a0 s' :=
    ⟨⟨indices, handed.base.flag, handed.base.linked, fifo⟩, rfl⟩
  refine ⟨⟨rfl, fun _ i hi => (by cases hi), fun _ _ h => (by cases h), fun ha => ?_⟩, idle⟩
  refine ⟨fun i hi => ?_, fun i hi => (by cases hi), ?_⟩
  · rw [indices.freeRegion size] at hi
    exact fifo (handed.base.flag ▸ ha) i hi
  · change s'.inflight = s.inflight ++ slots s.queue.xpqNumDesc r.tail k
    rw [indices.inflight size, handed.base.indices.inflight size, handed.base.indices.numDesc]
    exact r.inflight_push hk

theorem wp_xmitEnqueued_idle {asm : State → Ev → Prop} (size : RingSize r.size) (skb : SkBuff)
    {k : Nat} (hk : k ≤ r.free) (res : EnqueueResult) (base : Base r a0 s)
    (ok : res = .ok → Handed r a0 k s) (err : res ≠ .ok → s.armed = []) :
    wp Env asm (TxGuar c) (xmitEnqueued skb r.tail r.size k res)
      (fun _ t => SomeIdle r.size a0 t) s := by
  have stable := env_stable_idle r a0
  cases res with
  | queueBusy => exact wp_ret stable ⟨base, err (by simp)⟩ fun _ h => ⟨r, rfl, h⟩
  | queueError =>
      refine wp_write stable ⟨base, err (by simp)⟩ fun t ht _ => ?_
      have ht' := ht.updStats fun t =>
        { t with txAbortedErrors := t.txAbortedErrors + 1, txDropped := t.txDropped + 1 }
      exact ⟨ht.base.guar_none size ht'.base trivial rfl, wp_ret stable ht' fun _ h => ⟨r, rfl, h⟩⟩
  | ok =>
      have stableH := env_stable_handed r a0 k
      refine wp_emit stableH (ok rfl) fun t ht _ => ⟨ht.base.guar_none size ht.base trivial rfl, ?_⟩
      apply wp_write stableH ht
      intro u hu _
      have hu' : Handed r a0 k (u.updStats fun t =>
          { t with txPackets := t.txPackets + 1, txBytes := t.txBytes + skb.len }) :=
        ⟨⟨⟨hu.base.indices.numDesc, hu.base.indices.head, hu.base.indices.tail⟩, hu.base.flag,
          hu.base.linked, hu.base.fifo⟩, hu.armed⟩
      refine ⟨hu.base.guar_none size hu'.base trivial rfl, wp_write stableH hu' fun v hv _ => ?_⟩
      obtain ⟨hg, hv'⟩ := hv.moveTail (c := c) size hk
      exact ⟨hg, wp_ret (env_stable_idle (r.push k) a0) hv' fun _ h => ⟨r.push k, rfl, h⟩⟩

/-- **One frame**, from its copy on. -/
theorem wp_xmitFrame_idle (size : RingSize r.size) {skb : SkBuff} (pos : 0 < skb.len)
    (fits : skb.len ≤ r.free * xpnetMaxDmaSegmentSize) (idle : Idle r a0 s) :
    wp Env (CopyOnFree c) (TxGuar c) (xmitFrame skb r.tail r.size r.free)
      (fun _ t => SomeIdle r.size a0 t) s := by
  have hcount := shardCount_le fits
  have hpos := shardCount_pos pos
  apply wp_emit (env_stable_idle r a0) idle
  intro t ht assumed
  refine ⟨ht.base.guar_none size ht.base trivial rfl, ?_⟩
  have copying : Copying c r a0 (shardCount skb.len) t := by
    refine ⟨ht.base, ht.armed, fun hc i hi => ?_⟩
    rcases hc with hc | ha
    · have free := assumed hc _ _ rfl i
      rw [ht.base.indices.numDesc] at free
      exact free hi
    · -- elsewhere than on A0 the free region is the host's
      by_contra hown
      have := ht.base.fifo ha i (r.slots_subset_freeRegion hcount hi) (by simpa using hown)
      rw [ht.armed] at this
      cases this
  have copy : wp Env (CopyOnFree c) (TxGuar c) (xpnetSkbToShards skb)
      (fun k u => k = shardCount skb.len ∧ Copying c r a0 (shardCount skb.len) u) t :=
    wp_skbToShards (env_stable_copying c r a0 (shardCount skb.len)) env_keepsBuffers size r.tail_lt
      (fun u hu => ⟨hu.base.indices.numDesc, hu.base.indices.tail⟩)
      (fun u hu => hu.base.guar_none size hu.base trivial rfl)
      (fun u i lab f hi hu hw => hu.bufWrite size hcount hi hw) copying
  apply wp_seq copy
  intro k u hu
  obtain ⟨rfl, hu⟩ := hu
  have hfree := r.busy_add_free
  have hbusy := r.busy_lt
  rw [if_neg (size.not_asInt_gt hcount (by omega))]
  apply wp_seq (wp_skbStatEnqueue_of_copying size hcount hpos hu)
  intro res v hv
  exact wp_xmitEnqueued_idle size skb hcount res hv.1 hv.2.1 hv.2.2

theorem wp_xmitFrom_idle (size : RingSize r.size) (skb : Option SkBuff) {s₀ : State}
    (found : At r s₀) (idle : Idle r a0 s) :
    wp Env (CopyOnFree c) (TxGuar c) (xmitFrom s₀ skb) (fun _ t => SomeIdle r.size a0 t) s := by
  have stable := env_stable_idle r a0
  have some : ∀ {p : TxProg XmitExit} {t : State},
      wp Env (CopyOnFree c) (TxGuar c) p (fun _ t => Idle r a0 t) t →
      wp Env (CopyOnFree c) (TxGuar c) p (fun _ t => SomeIdle r.size a0 t) t :=
    fun h => wp_mono (fun _ _ h => ⟨r, rfl, h⟩) h
  have busy : ∀ {t : State}, Idle r a0 t → wp Env (CopyOnFree c) (TxGuar c) (.ret XmitExit.txbusy)
      (fun _ t => SomeIdle r.size a0 t) t :=
    fun ht => some (wp_ret stable ht fun _ h => h)
  cases skb with
  | none =>
      unfold xmitFrom
      dsimp only
      split
      · exact some (wp_txErrorDrop size none idle)
      · exact some (wp_retTxdrop size none idle)
  | some skb =>
      refine xmitFrom_cases (P := fun p => wp Env (CopyOnFree c) (TxGuar c) p
        (fun _ t => SomeIdle r.size a0 t) s) (fun _ => some (wp_txErrorDrop size _ idle))
        (fun _ _ => busy idle) ?_
      rw [found.free size, found.tail, found.numDesc]
      intro _ hfree hpos hlen _
      have fits : skb.len ≤ r.free * xpnetMaxDmaSegmentSize := Nat.le_trans hlen (u32Mul_le _ _)
      refine wp_look stable idle fun t ht _ => ⟨ht.base.guar_none size ht.base trivial rfl, ?_⟩
      split
      · -- a busy head: only A0 can show one
        rename_i hown
        refine wp_emit stable ht fun u hu _ => ⟨⟨rfl, fun _ j hj => (by cases hj),
          fun _ _ h => (by cases h), fun ha => ?_⟩, busy hu⟩
        have htail : r.tail ∈ r.freeRegion :=
          r.slots_subset_freeRegion (k := 1) (by omega)
            (mem_slots.mpr ⟨0, by omega, slot_zero r.tail_lt⟩)
        have := ht.base.fifo (hu.base.flag ▸ ha) _ htail hown
        rw [ht.armed] at this
        cases this
      · refine wp_look stable ht fun u hu _ => ⟨hu.base.guar_none size hu.base trivial rfl, ?_⟩
        split
        · exact busy hu
        · exact wp_xmitFrame_idle size (Nat.pos_of_ne_zero hpos) fits hu

/-- **`xpnet_hard_start_xmit`.** -/
theorem wp_hardStartXmit_idle (size : RingSize r.size) (skb : Option SkBuff) (idle : Idle r a0 s) :
    wp Env (CopyOnFree c) (TxGuar c) (xpnetHardStartXmit skb) (fun _ t => SomeIdle r.size a0 t) s :=
  wp_look (env_stable_idle r a0) idle fun _ ht _ =>
    ⟨ht.base.guar_none size ht.base trivial rfl, wp_xmitFrom_idle size skb ht.base.indices ht⟩

/-! ### Completion -/

/-- Advancing `head` past a descriptor that is the host's again. -/
theorem Idle.moveHead (size : RingSize r.size) (busy : 0 < r.busy) (idle : Idle r a0 s)
    (free : s.owned (slot r.size r.head 1) = false) :
    let s' := s.updQueue fun q => { q with head := xpnetAddAndWrap q.head 1 q.xpqNumDesc }
    TxGuar c s (.moveHead (slot r.size r.head 1)) s' ∧ Idle r.pop a0 s' := by
  intro s'
  have indices : At r.pop s' := idle.base.indices.pop size
  have fifo : a0 = false → ∀ i ∈ r.pop.freeRegion, s'.owned i = true → i ∈ s'.armed := by
    intro ha i hi hown
    rcases r.freeRegion_pop busy hi with hold | rfl
    · exact idle.base.fifo ha i hold hown
    · have hsame : s.owned (slot r.size r.head 1) = true := hown
      rw [free] at hsame
      cases hsame
  have idle' : Idle r.pop a0 s' :=
    ⟨⟨indices, idle.base.flag, idle.base.linked, fifo⟩, idle.armed⟩
  refine ⟨⟨rfl, fun _ i hi => (by cases hi), fun _ _ h => (by cases h), fun ha => ?_⟩, idle'⟩
  refine ⟨fun i hi => ?_, fun i hi => (by cases hi), free, indices.head, ?_⟩
  · rw [indices.freeRegion (r := r.pop) size] at hi
    exact fifo (idle.base.flag ▸ ha) i hi
  · rw [idle.base.indices.inflight size, indices.inflight (r := r.pop) size]
    exact r.inflight_pop busy

/-- The completion loop: each round retires the oldest descriptor in flight, and
only after it was seen to be the host's. -/
theorem wp_txCompleteLoop_idle {asm : State → Ev → Prop} (iter : Nat) : ∀ {r : Ring} {s : State},
    RingSize r.size → iter ≤ r.busy → Idle r a0 s →
    wp Env asm (TxGuar c) (txCompleteLoop r.size r.tail r.head iter)
      (fun _ t => SomeIdle r.size a0 t) s := by
  induction iter with
  | zero =>
      intro r s _ _ idle
      exact wp_ret (env_stable_idle r a0) idle fun _ h => ⟨r, rfl, h⟩
  | succ iter ih =>
      intro r s size hiter idle
      have stable := env_stable_idle r a0
      have hbusy : 0 < r.busy := by omega
      have hnext : xpnetAddAndWrap r.head 1 r.size = slot r.size r.head 1 :=
        xpnetAddAndWrap_eq size (Nat.le_of_lt r.head_lt) size.pos
      have done : ∀ {t : State} (lab : Ev), lab.ordinary → lab.target = none → Idle r a0 t →
          wp Env asm (TxGuar c) (Prog.emit lab) (fun _ t => SomeIdle r.size a0 t) t := by
        intro t lab ordinary none ht
        refine wp_act stable ht fun u hu _ => ⟨hu.base.guar_none size hu.base ordinary none, ?_⟩
        exact wp_ret stable hu fun _ h => ⟨r, rfl, h⟩
      simp only [txCompleteLoop, hnext]
      rw [if_neg (r.head_succ_ne_tail hbusy)]
      refine wp_look stable idle fun t ht _ => ⟨ht.base.guar_none size ht.base trivial rfl, ?_⟩
      split
      · exact done _ trivial rfl ht
      · have await : wp Env asm (TxGuar c) (awaitOwnership (slot r.size r.head 1) xpnetMaxAttempts)
            (fun _ t => Idle r a0 t) t :=
          wp_frame stable ht (awaitOwnership_always _
            (fun u hu _ => ⟨hu.base.guar_none size hu.base trivial rfl, hu⟩) _)
        apply wp_seq await
        intro _ u hu
        refine wp_look stable hu fun v hv _ => ⟨hv.base.guar_none size hv.base trivial rfl, ?_⟩
        split
        · exact done _ trivial rfl hv
        · rename_i hown
          -- the device cannot take the descriptor back before `head` moves
          have hfree : v.owned (slot r.size r.head 1) = false := by
            rw [State.owned]
            exact Bool.eq_false_iff.mpr hown
          refine wp_write (stable.and (env_stable_free _)) ⟨hv, hfree⟩ fun w hw _ => ?_
          obtain ⟨hg, hw'⟩ := hw.1.moveHead (c := c) size hbusy hw.2
          refine ⟨hg, ih (r := r.pop) size ?_ hw'⟩
          have := r.busy_pop hbusy
          omega

theorem wp_txComplete_idle {asm : State → Ev → Prop} (size : RingSize r.size) (maxiter : Nat)
    (idle : Idle r a0 s) :
    wp Env asm (TxGuar c) (xpnetTxComplete maxiter) (fun _ t => SomeIdle r.size a0 t) s := by
  refine wp_look (env_stable_idle r a0) idle fun t ht _ =>
    ⟨ht.base.guar_none size ht.base trivial rfl, ?_⟩
  simp only [id, ht.base.indices.busy size, ht.base.flag]
  rw [ht.base.indices.numDesc, ht.base.indices.tail, ht.base.indices.head]
  have hiter : (if r.busy > maxiter then maxiter else r.busy) ≤ r.busy := by split <;> omega
  apply wp_seq (wp_txCompleteLoop_idle _ size hiter ht)
  intro _ u hu
  obtain ⟨r', hsize, hu⟩ := hu
  have stable := env_stable_idle r' a0
  rw [← hsize] at size ⊢
  cases a0 with
  | false => exact wp_ret stable hu fun _ h => ⟨r', rfl, h⟩
  | true =>
      apply wp_act stable hu
      intro v hv _
      have hv' : Idle (emptyRing r'.size r'.size_pos) true
          (v.updQueue fun q => { q with head := q.xpqNumDesc - 1, tail := 0 }) :=
        ⟨⟨hv.base.indices.rewind, hv.base.flag, hv.base.linked, fun h => (by cases h)⟩, hv.armed⟩
      refine ⟨⟨rfl, fun _ i hi => (by cases hi), fun _ _ h => (by cases h), fun ha => ?_⟩, ?_⟩
      · rw [hv.base.flag] at ha
        cases ha
      · exact wp_ret (env_stable_idle _ true) hv' fun _ h =>
          ⟨emptyRing r'.size r'.size_pos, rfl, h⟩

end Calls

/-! ### Runs -/

/-- A sequence of `xpnet_start_xmit` calls. -/
def runXmit (frames : List SkBuff) : TxProg Unit :=
  frames.forM fun skb => do let _ ← xpnetStartXmit skb

section Runs

variable {c : Prop} {n : Nat} {a0 : Bool} {s : State}

/-- **`xpnet_start_xmit`** leaves an idle queue idle. -/
theorem wp_startXmit (size : RingSize n) (skb : SkBuff) (idle : SomeIdle n a0 s) :
    wp Env (CopyOnFree c) (TxGuar c) (xpnetStartXmit skb) (fun _ t => SomeIdle n a0 t) s := by
  obtain ⟨r, rfl, idle⟩ := idle
  have stable := env_stable_idle r a0
  refine wp_look stable idle fun t ht _ => ⟨ht.base.guar_none size ht.base trivial rfl, ?_⟩
  simp only [id, startXmitFrom]
  split
  · refine wp_emit stable ht fun u hu _ => ⟨hu.base.guar_none size hu.base trivial rfl, ?_⟩
    exact wp_ret stable hu fun _ h => ⟨r, rfl, h⟩
  · apply wp_seq (wp_hardStartXmit_idle size _ ht)
    intro exit u hu
    unfold completeAfter
    split
    · obtain ⟨r', hsize, hu⟩ := hu
      rw [← hsize] at size ⊢
      apply wp_seq (wp_txComplete_idle size _ hu)
      intro _ v hv
      exact wp_ret (env_stable_someIdle _ _) hv fun _ h => h
    · exact wp_ret (env_stable_someIdle _ _) hu fun _ h => h

theorem wp_runXmit (size : RingSize n) (frames : List SkBuff) (idle : SomeIdle n a0 s) :
    wp Env (CopyOnFree c) (TxGuar c) (runXmit frames) (fun _ t => SomeIdle n a0 t) s := by
  have stable := env_stable_someIdle n a0
  refine wp_forM stable (fun skb t ht => ?_) frames idle
  exact wp_seq (wp_startXmit size skb ht) fun _ u hu => wp_ret stable hu fun _ h => h

/-- Every call of a run is verified from the start. -/
theorem wp_runXmit_initial (size : RingSize n) (frames : List SkBuff) (init : Initial n s) :
    wp Env (CopyOnFree c) (TxGuar c) (runXmit frames) (fun _ t => SomeIdle n s.isA0 t) s :=
  wp_runXmit size frames ⟨_, rfl, init.idle size.pos⟩

end Runs

end XpNet.Tx

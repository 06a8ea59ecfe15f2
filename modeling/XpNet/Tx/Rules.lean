/-
Rules for the loops of the transmit path, for any environment that leaves the
data buffers alone.

Each rule carries an assertion `I` through a loop: it asks what the loop's own
stores do to `I`, and gives back what the loop computed. `wp_skbToShards` is the
copy of a frame: it stores to the buffers of the frame's slots only, and its
result is the number of shards. `wp_checkShards` is the check that every slot of
a frame is free.
-/

import XpNet.Tx.Model

namespace XpNet.Tx

open XpNet.Interference

/-! ### Reading the state after an update -/

section Updates

variable (s : State) (i j : Nat) (f : Desc → Desc)

@[simp] theorem updDesc_self : (s.updDesc i f).desc i = f (s.desc i) := by
  simp [State.updDesc, State.desc]

@[simp] theorem updDesc_of_ne {i j : Nat} (h : j ≠ i) : (s.updDesc i f).desc j = s.desc j := by
  simp [State.updDesc, State.desc, h]

@[simp] theorem updDesc_numDesc : (s.updDesc i f).queue.xpqNumDesc = s.queue.xpqNumDesc := rfl
@[simp] theorem updDesc_tail : (s.updDesc i f).queue.tail = s.queue.tail := rfl
@[simp] theorem updDesc_head : (s.updDesc i f).queue.head = s.queue.head := rfl
@[simp] theorem updDesc_dma : (s.updDesc i f).queue.dma = s.queue.dma := rfl
@[simp] theorem updDesc_status : (s.updDesc i f).queue.status = s.queue.status := rfl
@[simp] theorem updDesc_hwFlags : (s.updDesc i f).hwFlags = s.hwFlags := rfl
@[simp] theorem updDesc_isA0 : (s.updDesc i f).isA0 = s.isA0 := rfl
@[simp] theorem updDesc_mode : (s.updDesc i f).mode = s.mode := rfl
@[simp] theorem updDesc_armed : (s.updDesc i f).armed = s.armed := rfl

/-- What an update that keeps `qword[0]` leaves of the ownership bits. -/
theorem owned_updDesc_of_qword0 {f : Desc → Desc} (h : ∀ d, (f d).qword0 = d.qword0) :
    (s.updDesc i f).owned j = s.owned j := by
  unfold State.owned
  by_cases hj : j = i
  · subst hj
    rw [updDesc_self, h]
  · rw [updDesc_of_ne _ _ hj]

end Updates

/-! ### Shards and lengths -/

theorem bytesToCopy_eq_min (max copied : Nat) :
    bytesToCopy max copied = min (max - copied) xpnetMaxDmaSegmentSize := by
  unfold bytesToCopy
  split <;> omega

theorem bytesToCopy_pos {max copied : Nat} (h : copied < max) : 0 < bytesToCopy max copied := by
  unfold bytesToCopy xpnetMaxDmaSegmentSize
  split <;> omega

theorem bytesToCopy_le (max copied : Nat) : bytesToCopy max copied ≤ xpnetMaxDmaSegmentSize := by
  unfold bytesToCopy xpnetMaxDmaSegmentSize
  split <;> omega

theorem shardCount_zero : shardCount 0 = 0 := by decide

theorem shardCount_pos {len : Nat} (h : 0 < len) : 0 < shardCount len := by
  unfold shardCount xpnetMaxDmaSegmentSize
  omega

/-- Copying one more shard leaves one less to copy. -/
theorem shardCount_step {max copied : Nat} (h : copied < max) :
    shardCount (max - copied) = shardCount (max - (copied + bytesToCopy max copied)) + 1 := by
  unfold shardCount bytesToCopy xpnetMaxDmaSegmentSize
  split <;> omega

/-- A frame that fits the free descriptors takes no more of them. -/
theorem shardCount_le {len k : Nat} (h : len ≤ k * xpnetMaxDmaSegmentSize) : shardCount len ≤ k := by
  unfold shardCount
  simp only [xpnetMaxDmaSegmentSize] at h ⊢
  omega

/-! ### The copy of a frame -/

/-- The stores the copy makes for slot `n`: its length or its buffer. -/
inductive BufWrite (n : Nat) : Ev → (Desc → Desc) → Prop where
  | len (v : Nat) : BufWrite n (.storeLen n) (setLen v)
  | buf (g : Desc → Image) : BufWrite n (.storeBuf n) fun d => setVa (g d) d
  | copy (src : List UInt8) : BufWrite n (.memcpy n src) fun d => setVa (memcpy d.bufSta.va src) d

/-- A buffer store leaves the descriptor itself alone. -/
theorem BufWrite.fields {n : Nat} {lab : Ev} {f : Desc → Desc} (h : BufWrite n lab f) (d : Desc) :
    (f d).qword0 = d.qword0 ∧ (f d).qword1 = d.qword1 ∧ (f d).qword2 = d.qword2 ∧
      (f d).qword3 = d.qword3 ∧ (f d).cdp = d.cdp ∧ (f d).numShards = d.numShards ∧
      (f d).bufSta.dma = d.bufSta.dma := by
  cases h <;> exact ⟨rfl, rfl, rfl, rfl, rfl, rfl, rfl⟩

theorem BufWrite.target {n : Nat} {lab : Ev} {f : Desc → Desc} (h : BufWrite n lab f) :
    lab.target = some n := by
  cases h <;> rfl

/-! ### Actions that move no index -/

/-- The actions that copy no byte of a frame and move neither index. -/
def Ev.still : Ev → Prop
  | .memcpy _ _ | .moveTail _ _ | .moveHead _ | .rewind | .corruption | .emptyQueue => False
  | _ => True

structure Still (lab : Ev) (u : State → State) : Prop where
  label : lab.still
  indices : ∀ s, (u s).queue.xpqNumDesc = s.queue.xpqNumDesc ∧
    (u s).queue.head = s.queue.head ∧ (u s).queue.tail = s.queue.tail

theorem still_id {lab : Ev} (label : lab.still) : Still lab id :=
  ⟨label, fun _ => ⟨rfl, rfl, rfl⟩⟩

theorem bumpStats_still (f : Stats → Stats) : Always Still (bumpStats f) :=
  ⟨⟨trivial, fun _ => ⟨rfl, rfl, rfl⟩⟩, fun _ => trivial⟩

theorem retTxdrop_still (skb : Option SkBuff) : Always Still (retTxdrop skb) := by
  have count : Always Still (do bumpStats fun t => { t with txDropped := t.txDropped + 1 }
                                pure XmitExit.txdrop) :=
    (bumpStats_still _).bind fun _ => trivial
  cases skb with
  | none => exact count
  | some skb => exact ⟨still_id trivial, fun _ => count⟩

theorem txErrorDrop_still (skb : Option SkBuff) : Always Still (txErrorDrop skb) :=
  (bumpStats_still _).bind fun _ => retTxdrop_still skb

/-- The check changes nothing. -/
theorem checkShards_always {P : Ev → (State → State) → Prop} (load : ∀ i, P (.load i) id)
    (busy : ∀ i, P (.shardBusy i) id) (error : ∀ i, P (.shardError i) id) (numDesc : Nat) :
    ∀ idx max, Always P (checkShards numDesc idx max)
  | _, 0 => trivial
  | idx, max + 1 => by
      refine ⟨load idx, fun s => ?_⟩
      change Always P (if ownership (s.desc idx).qword0 then _ else _)
      split
      · exact ⟨busy idx, fun _ => trivial⟩
      · refine ⟨load idx, fun t => ?_⟩
        change Always P (if errorIndication (t.desc idx).qword0 then _ else _)
        split
        · exact ⟨error idx, fun _ => trivial⟩
        · exact checkShards_always load busy error numDesc _ max

theorem checkShards_still (numDesc idx max : Nat) : Always Still (checkShards numDesc idx max) :=
  checkShards_always (fun _ => still_id trivial) (fun _ => still_id trivial)
    (fun _ => still_id trivial) numDesc idx max

theorem setupShards_still (numDesc tail : Nat) :
    ∀ last idx max, Always Still (setupShards numDesc tail last idx max)
  | _, _, 0 => trivial
  | last, idx, max + 1 => by
      refine ⟨⟨trivial, fun _ => ⟨rfl, rfl, rfl⟩⟩, fun _ =>
        ⟨⟨trivial, fun _ => ⟨rfl, rfl, rfl⟩⟩, fun _ => ?_⟩⟩
      by_cases h : idx = tail
      · simp only [h, if_true]
        exact ⟨⟨trivial, fun _ => ⟨rfl, rfl, rfl⟩⟩, fun _ => setupShards_still numDesc tail _ _ max⟩
      · simp only [h, if_false]
        exact ⟨⟨trivial, fun _ => ⟨rfl, rfl, rfl⟩⟩, fun _ => setupShards_still numDesc tail _ _ max⟩

theorem kickQueue_still (isA0 : Bool) (tail : Nat) : Always Still (kickQueue isA0 tail) := by
  cases isA0 with
  | false => trivial
  | true => exact ⟨⟨trivial, fun _ => ⟨rfl, rfl, rfl⟩⟩, fun _ =>
      ⟨⟨trivial, fun _ => ⟨rfl, rfl, rfl⟩⟩, fun _ => trivial⟩⟩

theorem handOverShards_still (tail last shards : Nat) :
    Always Still (handOverShards tail last shards) :=
  ⟨still_id trivial, fun _ => ⟨⟨trivial, fun _ => ⟨rfl, rfl, rfl⟩⟩, fun _ =>
    ⟨⟨trivial, fun _ => ⟨rfl, rfl, rfl⟩⟩, fun _ => ⟨still_id trivial, fun _ =>
    ⟨⟨trivial, fun _ => ⟨rfl, rfl, rfl⟩⟩, fun _ => ⟨still_id trivial, fun _ =>
      kickQueue_still _ _⟩⟩⟩⟩⟩⟩

theorem enqueueChecked_still (numDesc tail shards : Nat) (res : EnqueueResult) :
    Always Still (enqueueChecked numDesc tail shards res) := by
  cases res with
  | ok =>
      exact (setupShards_still _ _ _ _ _).bind fun last =>
        (handOverShards_still _ _ _).bind fun _ => trivial
  | queueBusy => trivial
  | queueError => trivial

theorem awaitOwnership_always {P : Ev → (State → State) → Prop} (head : Nat)
    (load : P (.load head) id) : ∀ attempts, Always P (awaitOwnership head attempts)
  | 0 => trivial
  | attempts + 1 => by
      refine ⟨load, fun s => ?_⟩
      change Always P (if ownership (s.desc head).qword0 then _ else _)
      split
      · exact awaitOwnership_always head load attempts
      · trivial

theorem awaitOwnership_still (head attempts : Nat) : Always Still (awaitOwnership head attempts) :=
  awaitOwnership_always head (still_id trivial) attempts

/-- What the completion does beside moving the indices. -/
def Ev.looks : Ev → Prop
  | .priv | .load _ | .emptyQueue | .txError _ | .txIncomplete _ => True
  | _ => False

/-- The completion loop looks at descriptors and moves the head. -/
theorem txCompleteLoop_always {P : Ev → (State → State) → Prop}
    (looks : ∀ lab, lab.looks → P lab id)
    (moves : ∀ i, P (.moveHead i) fun s =>
      s.updQueue fun q => { q with head := xpnetAddAndWrap q.head 1 q.xpqNumDesc })
    (numDesc tail : Nat) : ∀ head iter, Always P (txCompleteLoop numDesc tail head iter)
  | _, 0 => trivial
  | head, iter + 1 => by
      simp only [txCompleteLoop]
      split
      · exact ⟨looks _ trivial, fun _ => trivial⟩
      · refine ⟨looks _ trivial, fun s => ?_⟩
        change Always P (if errorIndication _ then _ else _)
        split
        · exact ⟨looks _ trivial, fun _ => trivial⟩
        · refine (awaitOwnership_always _ (looks _ trivial) _).bind fun _ => ⟨looks _ trivial, fun t => ?_⟩
          change Always P (if ownership _ then _ else _)
          split
          · exact ⟨looks _ trivial, fun _ => trivial⟩
          · exact ⟨moves _, fun _ => txCompleteLoop_always looks moves numDesc tail _ iter⟩

/-- So does the whole completion, which on A0 starts the ring over. -/
theorem txComplete_always {P : Ev → (State → State) → Prop}
    (looks : ∀ lab, lab.looks → P lab id)
    (moves : ∀ i, P (.moveHead i) fun s =>
      s.updQueue fun q => { q with head := xpnetAddAndWrap q.head 1 q.xpqNumDesc })
    (rewinds : P .rewind fun s =>
      s.updQueue fun q => { q with head := q.xpqNumDesc - 1, tail := 0 })
    (maxiter : Nat) : Always P (xpnetTxComplete maxiter) := by
  have rewind : ∀ isA0, Always P (rewindA0 isA0) := by
    intro isA0
    cases isA0 with
    | false => trivial
    | true => exact ⟨rewinds, fun _ => trivial⟩
  exact Always.look (looks _ trivial) fun _ =>
    (txCompleteLoop_always looks moves _ _ _ _).bind fun _ => rewind _

section Loops

variable {rely : State → State → Prop} {asm : State → Ev → Prop} {guar : State → Ev → State → Prop}

/-- An environment that leaves `buf_sta` of every descriptor alone. -/
def KeepsBuffers (rely : State → State → Prop) : Prop :=
  ∀ s s' i, rely s s' → (s'.desc i).bufSta = (s.desc i).bufSta

theorem KeepsBuffers.stable_len (keeps : KeepsBuffers rely) (i : Nat) (P : Nat → Prop) :
    Stable rely fun s => P (s.desc i).bufSta.len := by
  intro s s' step holds
  rw [keeps s s' i step]
  exact holds

variable {I : State → Prop}

/-- The swap ends on a buffer whose length is that of a shard. -/
theorem wp_swapShard (stable : Stable rely I) (keeps : KeepsBuffers rely) {n : Nat}
    (priv : ∀ s, I s → guar s .priv s)
    (store : ∀ s lab f, I s → BufWrite n lab f → guar s lab (s.updDesc n f) ∧ I (s.updDesc n f))
    {s : State} (holds : I s)
    (len : 0 < (s.desc n).bufSta.len ∧ (s.desc n).bufSta.len ≤ xpnetMaxDmaSegmentSize) :
    wp rely asm guar (swapShard n) (fun _ t => I t) s := by
  have stableLen := keeps.stable_len n fun l => 0 < l ∧ l ≤ xpnetMaxDmaSegmentSize
  refine wp_look (stable.and stableLen) ⟨holds, len⟩ fun t ⟨hI, hpos, hle⟩ _ => ⟨priv t hI, ?_⟩
  have hswap := xpnetEndianSwap32_eq (t.desc n).bufSta.va t.mode hpos
    (Nat.le_trans hle (by decide))
  simp only [id, hswap]
  apply wp_act stable hI
  intro u hu _
  obtain ⟨hg, hI'⟩ := store u _ _ hu (.buf fun _ => _)
  exact ⟨hg, wp_ret stable hI' fun _ h => h⟩

/-- One round of the copy. -/
theorem wp_fillShard (stable : Stable rely I) (keeps : KeepsBuffers rely) {skb : SkBuff}
    {copied n : Nat} (hcopied : copied < skb.len)
    (priv : ∀ s, I s → guar s .priv s)
    (store : ∀ s lab f, I s → BufWrite n lab f → guar s lab (s.updDesc n f) ∧ I (s.updDesc n f))
    {s : State} (holds : I s) :
    wp rely asm guar (fillShard skb copied n) (fun _ t => I t) s := by
  have stableLen := keeps.stable_len n fun l => 0 < l ∧ l ≤ xpnetMaxDmaSegmentSize
  have stableBoth := stable.and stableLen
  -- the copy and the swap, once the length is set
  have tail : ∀ t, I t → 0 < (t.desc n).bufSta.len ∧ (t.desc n).bufSta.len ≤ xpnetMaxDmaSegmentSize →
      wp rely asm guar (storeDesc (.memcpy n ((skb.data.drop copied).take (bytesToCopy skb.len copied))) n
        (fun d => setVa (memcpy d.bufSta.va ((skb.data.drop copied).take (bytesToCopy skb.len copied))) d)
          >>= fun _ => swapShard n) (fun _ t => I t) t := by
    intro t hI hlen
    refine wp_write stableBoth ⟨hI, hlen⟩ fun u ⟨hu, hlenu⟩ _ => ?_
    obtain ⟨hg, hI'⟩ := store u _ _ hu (.copy _)
    exact ⟨hg, wp_swapShard stable keeps priv store hI' (by simpa [setVa] using hlenu)⟩
  apply wp_write stable holds
  intro t ht _
  obtain ⟨hg, ht'⟩ := store t _ _ ht (.len (bytesToCopy skb.len copied))
  refine ⟨hg, ?_⟩
  have hlen := And.intro (bytesToCopy_pos hcopied) (bytesToCopy_le skb.len copied)
  by_cases hshort : skb.len < 128
  · simp only [hshort, if_true]
    apply wp_act stable ht'
    intro u hu _
    obtain ⟨hg, hu'⟩ := store u _ _ hu (.buf _)
    refine ⟨hg, wp_act stable hu' fun v hv _ => ?_⟩
    obtain ⟨hg, hv'⟩ := store v _ _ hv (.len 128)
    refine ⟨hg, tail _ hv' ?_⟩
    simp [setLen, xpnetMaxDmaSegmentSize]
  · simp only [hshort, if_false]
    exact tail _ ht' (by simpa [setLen] using hlen)

/-- The loop copies one shard into each of the next slots. -/
theorem wp_skbToShardsLoop (stable : Stable rely I) (keeps : KeepsBuffers rely) {skb : SkBuff}
    {numDesc : Nat} (size : RingSize numDesc)
    (priv : ∀ s, I s → guar s .priv s) (copied n idx : Nat) (hn : n < numDesc)
    (store : ∀ s i lab f, i ∈ slots numDesc n (shardCount (skb.len - copied)) → I s →
      BufWrite i lab f → guar s lab (s.updDesc i f) ∧ I (s.updDesc i f))
    {s : State} (holds : I s) :
    wp rely asm guar (skbToShardsLoop skb numDesc copied n idx)
      (fun k t => k = idx + shardCount (skb.len - copied) ∧ I t) s := by
  fun_induction skbToShardsLoop skb numDesc copied n idx generalizing s with
  | case1 copied n idx hlt ih =>
      have hcount := shardCount_step hlt
      have hnext : xpnetAddAndWrap n 1 numDesc = slot numDesc n 1 :=
        xpnetAddAndWrap_eq size (Nat.le_of_lt hn) size.pos
      rw [hcount, slots_succ, slot_zero hn] at store
      refine wp_seq (wp_fillShard stable keeps hlt priv
        (fun t lab f => store t n lab f List.mem_cons_self) holds) fun _ t hI => ?_
      have rest := ih (hnext ▸ slot_lt size.pos _ _)
        (fun t i lab f hi => store t i lab f (List.mem_cons_of_mem _ (hnext ▸ hi))) hI
      refine wp_mono (fun k u h => ⟨?_, h.2⟩) rest
      rw [h.1, hcount]
      omega
  | case2 copied n idx hge =>
      refine wp_ret stable holds fun t ht => ⟨?_, ht⟩
      rw [show skb.len - copied = 0 by omega, shardCount_zero]
      rfl

/-- **The copy of a frame** fills one shard for each 4096 bytes of it, in the
slots from `tail` on, and reports how many. -/
theorem wp_skbToShards (stable : Stable rely I) (keeps : KeepsBuffers rely) {skb : SkBuff}
    {numDesc tail : Nat} (size : RingSize numDesc) (htail : tail < numDesc)
    (indices : ∀ s, I s → s.queue.xpqNumDesc = numDesc ∧ s.queue.tail = tail)
    (priv : ∀ s, I s → guar s .priv s)
    (store : ∀ s i lab f, i ∈ slots numDesc tail (shardCount skb.len) → I s → BufWrite i lab f →
      guar s lab (s.updDesc i f) ∧ I (s.updDesc i f))
    {s : State} (holds : I s) :
    wp rely asm guar (xpnetSkbToShards skb) (fun k t => k = shardCount skb.len ∧ I t) s := by
  refine wp_look stable holds fun t ht _ => ⟨priv t ht, ?_⟩
  obtain ⟨hnum, htl⟩ := indices t ht
  simp only [id, hnum, htl]
  refine wp_mono (fun k u h => ⟨?_, h.2⟩)
    (wp_skbToShardsLoop stable keeps size priv 0 tail 0 htail store ht)
  simpa using h.1

/-! ### The check of a frame's slots -/

/-- **The check** ends with `.ok` only after every slot was seen free. `seen i`
is what the environment cannot take back of that. -/
theorem wp_checkShards (stable : Stable rely I) {numDesc : Nat} (size : RingSize numDesc)
    {seen : Nat → State → Prop} (stableSeen : ∀ i, Stable rely (seen i))
    (load : ∀ s i, I s → guar s (.load i) s)
    (free : ∀ s i, I s → s.owned i = false → seen i s)
    (error : ∀ s i, I s → guar s (.shardError i) s)
    {max : Nat} : ∀ {idx : Nat}, idx < numDesc →
    (∀ s t i, i ∈ slots numDesc idx max → I s → I t → s.owned i = true → guar t (.shardBusy i) t) →
    ∀ {s : State}, I s →
    wp rely asm guar (checkShards numDesc idx max)
      (fun r t => I t ∧ (r = .ok → ∀ i ∈ slots numDesc idx max, seen i t)) s := by
  induction max with
  | zero =>
      intro idx _ _ s holds
      exact wp_ret stable holds fun t ht => ⟨ht, fun _ i hi => by simp at hi⟩
  | succ max ih =>
      intro idx hidx busy s holds
      have hnext : xpnetAddAndWrap idx 1 numDesc = slot numDesc idx 1 :=
        xpnetAddAndWrap_eq size (Nat.le_of_lt hidx) size.pos
      rw [slots_succ, slot_zero hidx] at busy ⊢
      refine wp_look stable holds fun t ht _ => ⟨load t idx ht, ?_⟩
      by_cases hown : ownership (t.desc idx).qword0 = true
      · rw [if_pos hown]
        refine wp_emit stable ht fun u hu _ => ⟨busy t u idx List.mem_cons_self ht hu hown, ?_⟩
        exact wp_ret stable hu fun v hv => ⟨hv, by simp⟩
      · rw [if_neg hown]
        have hseen : seen idx t := free t idx ht (by simpa [State.owned] using hown)
        refine wp_look (stable.and (stableSeen idx)) ⟨ht, hseen⟩ fun u ⟨hu, hs⟩ _ => ⟨load u idx hu, ?_⟩
        by_cases herr : errorIndication (u.desc idx).qword0 = true
        · rw [if_pos herr]
          refine wp_emit stable hu fun v hv _ => ⟨error v idx hv, ?_⟩
          exact wp_ret stable hv fun w hw => ⟨hw, by simp⟩
        · rw [if_neg herr, hnext]
          have rest := ih (slot_lt size.pos idx 1)
            (fun v w i hi => busy v w i (List.mem_cons_of_mem _ hi)) hu
          -- what was seen of this slot stands while the others are checked
          have keeps : Always (fun _ (f : State → State) => ∀ v, seen idx v → seen idx (f v))
              (checkShards numDesc (slot numDesc idx 1) max) :=
            checkShards_always (fun _ _ h => h) (fun _ _ h => h) (fun _ _ h => h) _ _ _
          refine wp_mono (fun r v h => ⟨h.1.1, fun hr i hi => ?_⟩) (wp_and (stableSeen idx) keeps hs rest)
          rcases List.mem_cons.mp hi with rfl | hi
          · exact h.2
          · exact h.1.2 hr i hi

end Loops

end XpNet.Tx

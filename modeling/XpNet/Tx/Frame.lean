/-
What an accepted frame leaves in the ring, by one call of
`xpnet_hard_start_xmit` on its own.

`Sweep` describes a loop over the slots of a frame: slot `j` is rewritten by
`f j`, everything else is kept. The copy of the frame is the sweep of `filled`,
the setup of its descriptors that of `described`, and `closed` is the end of
`__xpnet_skb_stat_enqueue`. `accepted_frame` reads the three together:
descriptors, buffers and what stays as it was.
-/

import XpNet.Tx.Rules

namespace XpNet.Tx

open XpNet.Interference

/-! ### Sweeps -/

theorem updDesc_updDesc (s : State) (i : Nat) (f g : Desc → Desc) :
    (s.updDesc i f).updDesc i g = s.updDesc i fun d => g (f d) := by
  simp [State.updDesc, State.desc]

/-- The first `m` slots from `t` on are rewritten, slot `j` of them by `f j`. -/
structure Sweep (n t m : Nat) (f : Nat → Desc → Desc) (s s' : State) : Prop where
  mode : s'.mode = s.mode
  numDesc : s'.queue.xpqNumDesc = s.queue.xpqNumDesc
  tail : s'.queue.tail = s.queue.tail
  inside : ∀ j < m, s'.desc (slot n t j) = f j (s.desc (slot n t j))
  outside : ∀ i, i ∉ slots n t m → s'.desc i = s.desc i

section Sweeps

variable {n t m k : Nat} {f g : Nat → Desc → Desc} {s s' s'' : State}

theorem Sweep.start (n t : Nat) (f : Nat → Desc → Desc) (s : State) : Sweep n t 0 f s s :=
  ⟨rfl, rfl, rfl, fun j hj => absurd hj (Nat.not_lt_zero j), fun _ _ => rfl⟩

/-- One more slot. -/
theorem Sweep.step (ht : t < n) (hm : m < n) (sweep : Sweep n t m f s s') (arm : List Nat) :
    Sweep n t (m + 1) f s { s'.updDesc (slot n t m) (f m) with armed := arm } where
  mode := sweep.mode
  numDesc := sweep.numDesc
  tail := sweep.tail
  inside := by
    intro j hj
    by_cases hjm : j = m
    · subst hjm
      have hkept := sweep.outside _ (slot_not_mem_slots ht hm (Nat.le_refl j))
      exact (updDesc_self s' _ _).trans (by rw [hkept])
    · have hne : slot n t j ≠ slot n t m := fun h => hjm (slot_inj ht (by omega) hm h)
      exact (updDesc_of_ne s' _ hne).trans (sweep.inside j (by omega))
  outside := by
    intro i hi
    have hlast : i ≠ slot n t m := by
      rintro rfl
      exact hi (mem_slots.mpr ⟨m, Nat.lt_succ_self m, rfl⟩)
    have hrest : i ∉ slots n t m := by
      intro h
      obtain ⟨j, hj, rfl⟩ := mem_slots.mp h
      exact hi (mem_slots.mpr ⟨j, by omega, rfl⟩)
    exact (updDesc_of_ne s' _ hlast).trans (sweep.outside i hrest)

/-- Two sweeps over the same slots are one. -/
theorem Sweep.trans (first : Sweep n t m f s s') (second : Sweep n t m g s' s'') :
    Sweep n t m (fun j d => g j (f j d)) s s'' where
  mode := second.mode.trans first.mode
  numDesc := second.numDesc.trans first.numDesc
  tail := second.tail.trans first.tail
  inside := fun j hj => by rw [second.inside j hj, first.inside j hj]
  outside := fun i hi => (second.outside i hi).trans (first.outside i hi)

/-! ### The copy -/

/-- What the copy leaves of a slot that takes the bytes from `copied` on. -/
def filled (skb : SkBuff) (mode : AddressMode) (copied : Nat) (d : Desc) : Desc :=
  let b2c := bytesToCopy skb.len copied
  let len := if skb.len < 128 then 128 else b2c
  let base := if skb.len < 128 then memset d.bufSta.va 0 128 else d.bufSta.va
  let va := memcpy base ((skb.data.drop copied).take b2c)
  setVa (swapWords va (swappedWords len mode)) (setLen len d)

theorem exec_swapShard {i : Nat} (pos : 0 < (s.desc i).bufSta.len)
    (bound : (s.desc i).bufSta.len ≤ xpnetMaxDmaSegmentSize) :
    (swapShard i).exec s = some ((), s.updDesc i fun d =>
      setVa (swapWords d.bufSta.va (swappedWords d.bufSta.len s.mode)) d) := by
  have hswap := xpnetEndianSwap32_eq (s.desc i).bufSta.va s.mode pos
    (Nat.le_trans bound (by decide))
  simp only [swapShard, Prog.look_bind, Prog.exec_act, id, hswap]
  rfl

theorem exec_fillShard {skb : SkBuff} {copied i : Nat} (more : copied < skb.len) :
    (fillShard skb copied i).exec s = some ((), s.updDesc i (filled skb s.mode copied)) := by
  have hpos := bytesToCopy_pos more
  have hle := bytesToCopy_le skb.len copied
  by_cases hshort : skb.len < 128
  · simp only [fillShard, storeDesc, hshort, if_true, Prog.write_bind, Prog.exec_act,
      updDesc_updDesc]
    rw [exec_swapShard (by simp [setVa, setLen]) (by simp [setVa, setLen, xpnetMaxDmaSegmentSize]),
      updDesc_updDesc]
    refine congrArg (fun f => some ((), s.updDesc i f)) (funext fun d => ?_)
    simp only [filled, hshort, if_true]
    rfl
  · simp only [fillShard, storeDesc, hshort, if_false, Prog.write_bind, Prog.exec_act,
      updDesc_updDesc]
    rw [exec_swapShard (by simpa [setVa, setLen] using hpos) (by simpa [setVa, setLen] using hle),
      updDesc_updDesc]
    refine congrArg (fun f => some ((), s.updDesc i f)) (funext fun d => ?_)
    simp only [filled, hshort, if_false]
    rfl

/-- The loop of `__xpnet_skb_to_shards`, with `m` slots filled. -/
theorem exec_skbToShardsLoop {skb : SkBuff} (size : RingSize n) (ht : t < n)
    (fits : shardCount skb.len ≤ n) {copied i idx : Nat} (hi : i = slot n t m) (hidx : idx = m)
    (hcopied : copied = min (xpnetMaxDmaSegmentSize * m) skb.len) (hm : m ≤ shardCount skb.len)
    (sweep : Sweep n t m (fun j => filled skb s.mode (xpnetMaxDmaSegmentSize * j)) s s') :
    ∃ s'', (skbToShardsLoop skb n copied i idx).exec s' = some (shardCount skb.len, s'') ∧
      Sweep n t (shardCount skb.len)
        (fun j => filled skb s.mode (xpnetMaxDmaSegmentSize * j)) s s'' := by
  fun_induction skbToShardsLoop skb n copied i idx generalizing m s' with
  | case1 copied i idx more ih =>
      have hcount : m < shardCount skb.len := by
        simp only [shardCount, xpnetMaxDmaSegmentSize] at hcopied ⊢
        omega
      have hfull : copied = xpnetMaxDmaSegmentSize * m := by omega
      have hstep := sweep.step ht (by omega) s'.armed
      subst hi
      have hnext : xpnetAddAndWrap (slot n t m) 1 n = slot n t (m + 1) := by
        rw [xpnetAddAndWrap_eq size (Nat.le_of_lt (slot_lt size.pos _ _)) size.pos, slot_slot]
      have hmore : copied + bytesToCopy skb.len copied =
          min (xpnetMaxDmaSegmentSize * (m + 1)) skb.len := by
        rw [bytesToCopy_eq_min]
        simp only [xpnetMaxDmaSegmentSize] at hfull ⊢
        omega
      obtain ⟨s'', run, done⟩ := ih hnext (by omega) hmore hcount hstep
      refine ⟨s'', ?_, done⟩
      rw [Prog.exec_bind, exec_fillShard more, sweep.mode, hfull]
      rw [hfull] at run
      exact run
  | case2 copied i idx stop =>
      have hcount : m = shardCount skb.len := by
        simp only [shardCount, xpnetMaxDmaSegmentSize] at hcopied hm ⊢
        omega
      subst hidx
      exact ⟨s', by rw [← hcount]; rfl, hcount ▸ sweep⟩

theorem exec_skbToShards {skb : SkBuff} (size : RingSize s.queue.xpqNumDesc)
    (ht : s.queue.tail < s.queue.xpqNumDesc) (fits : shardCount skb.len ≤ s.queue.xpqNumDesc) :
    ∃ s', (xpnetSkbToShards skb).exec s = some (shardCount skb.len, s') ∧
      Sweep s.queue.xpqNumDesc s.queue.tail (shardCount skb.len)
        (fun j => filled skb s.mode (xpnetMaxDmaSegmentSize * j)) s s' :=
  exec_skbToShardsLoop size ht fits (slot_zero ht).symm rfl (by simp) (Nat.zero_le _)
    (Sweep.start _ _ _ s)

/-! ### The descriptors -/

/-- The check of a frame's slots changes nothing. -/
theorem exec_checkShards (n : Nat) : ∀ i max (s : State),
    ∃ res, (checkShards n i max).exec s = some (res, s)
  | _, 0, s => ⟨.ok, rfl⟩
  | i, max + 1, s => by
      obtain ⟨res, rest⟩ := exec_checkShards n (xpnetAddAndWrap i 1 n) max s
      by_cases hown : ownership (s.desc i).qword0 = true
      · exact ⟨.queueBusy, by simp [checkShards, loadQword0, hown]⟩
      · by_cases herr : errorIndication (s.desc i).qword0 = true
        · exact ⟨.queueError, by simp [checkShards, loadQword0, hown, herr]⟩
        · exact ⟨res, by simpa [checkShards, loadQword0, hown, herr] using rest⟩

/-- What the setup of the descriptors leaves of the frame's slot `j`. -/
def described (j : Nat) (d : Desc) : Desc :=
  setQword0 (if j = 0 then sopBit else ownBit)
    { d with qword1 := d.bufSta.len, qword2 := d.bufSta.dma }

/-- The loop of `__xpnet_skb_stat_enqueue`, with `m` slots set up. -/
theorem exec_setupShards (size : RingSize n) (ht : t < n) (fits : k ≤ n) (pos : 0 < k)
    (max : Nat) : ∀ {m last : Nat} {s' : State}, m + max = k →
    (0 < m → last = slot n t (m - 1)) → Sweep n t m described s s' →
    ∃ s'', (setupShards n t last (slot n t m) max).exec s' = some (slot n t (k - 1), s'') ∧
      Sweep n t k described s s'' := by
  induction max with
  | zero =>
      intro m last s' hm hlast sweep
      obtain rfl : m = k := by omega
      exact ⟨s', by rw [hlast pos]; rfl, sweep⟩
  | succ max ih =>
      intro m last s' hm _ sweep
      have hnext : xpnetAddAndWrap (slot n t m) 1 n = slot n t (m + 1) := by
        rw [xpnetAddAndWrap_eq size (Nat.le_of_lt (slot_lt size.pos _ _)) size.pos, slot_slot]
      have htail : slot n t m = t ↔ m = 0 := by
        constructor
        · intro h
          exact slot_inj ht (by omega) size.pos (h.trans (slot_zero ht).symm)
        · rintro rfl
          exact slot_zero ht
      have rest : ∀ arm, ∃ s'', (setupShards n t (slot n t m) (slot n t (m + 1)) max).exec
          { s'.updDesc (slot n t m) (described m) with armed := arm } =
            some (slot n t (k - 1), s'') ∧ Sweep n t k described s s'' :=
        fun arm => ih (by omega) (fun _ => by simp) (sweep.step ht (by omega) arm)
      by_cases h0 : m = 0
      · obtain ⟨s'', run, done⟩ := rest s'.armed
        refine ⟨s'', ?_, done⟩
        simp only [setupShards, storeDesc, if_pos (htail.mpr h0), hnext, Prog.write_bind,
          Prog.exec_act, updDesc_updDesc]
        have hdescribed : described m = fun d =>
            setQword0 sopBit { d with qword1 := d.bufSta.len, qword2 := d.bufSta.dma } := by
          funext d
          rw [described, if_pos h0]
        rw [hdescribed] at run
        exact run
      · obtain ⟨s'', run, done⟩ := rest (slot n t m :: s'.armed)
        refine ⟨s'', ?_, done⟩
        simp only [setupShards, storeDesc, if_neg (fun h => h0 (htail.mp h)), hnext, Prog.write_bind,
          Prog.exec_act, updDesc_updDesc]
        have hdescribed : described m = fun d =>
            setQword0 ownBit { d with qword1 := d.bufSta.len, qword2 := d.bufSta.dma } := by
          funext d
          rw [described, if_neg h0]
        rw [hdescribed] at run
        exact run

/-- What the end of `__xpnet_skb_stat_enqueue` makes of descriptor `i`. -/
def closed (tail last shards i : Nat) (d : Desc) : Desc :=
  let d := if i = last then setQword0 (d.qword0 ||| eopBit) d else d
  if i = tail then setQword0 (d.qword0 ||| ownBit) { d with numShards := shards } else d

theorem exec_kickQueue (isA0 : Bool) (tail : Nat) (s : State) :
    ∃ s', (kickQueue isA0 tail).exec s = some ((), s') ∧
      s'.queue.xpqNumDesc = s.queue.xpqNumDesc ∧ ∀ i, s'.desc i = s.desc i := by
  cases isA0 with
  | false => exact ⟨s, rfl, rfl, fun _ => rfl⟩
  | true => exact ⟨_, rfl, rfl, fun _ => rfl⟩

/-- Every descriptor is closed, and the frame's place in the ring stays. -/
theorem exec_handOverShards (tail last shards : Nat) (s : State) :
    ∃ s', (handOverShards tail last shards).exec s = some ((), s') ∧
      s'.queue.xpqNumDesc = s.queue.xpqNumDesc ∧
      ∀ i, s'.desc i = closed tail last shards i (s.desc i) := by
  -- the state in which the SOP descriptor is handed over
  let q0 := (s.desc last).qword0 ||| eopBit
  let s1 := (s.updDesc last (setQword0 q0)).updDesc tail fun d => { d with numShards := shards }
  let q1 := (s1.desc tail).qword0 ||| ownBit
  let s2 : State := { s1.updDesc tail (setQword0 q1) with armed := tail :: s.armed }
  have hdesc : ∀ i, s2.desc i = closed tail last shards i (s.desc i) := by
    intro i
    have h1 : (s.updDesc last (setQword0 q0)).desc i =
        if i = last then setQword0 ((s.desc i).qword0 ||| eopBit) (s.desc i) else s.desc i := by
      by_cases h : i = last
      · subst h
        rw [updDesc_self, if_pos rfl]
      · rw [updDesc_of_ne _ _ h, if_neg h]
    change (s1.updDesc tail (setQword0 q1)).desc i = _
    unfold closed
    simp only [← h1]
    by_cases h : i = tail
    · subst h
      rw [updDesc_self, if_pos rfl]
      simp only [q1, s1, updDesc_self]
    · rw [updDesc_of_ne _ _ h, if_neg h]
      exact updDesc_of_ne _ _ h
  have run : (handOverShards tail last shards).exec s = (kickQueue s2.isA0 tail).exec s2 := rfl
  obtain ⟨s', kicked, numDesc, same⟩ := exec_kickQueue s2.isA0 tail s2
  exact ⟨s', run.trans kicked, numDesc, fun i => (same i).trans (hdesc i)⟩

end Sweeps

/-! ### An accepted frame -/

/-- What every shard of an accepted frame went through. -/
def shardDesc (skb : SkBuff) (mode : AddressMode) (n t j : Nat) (d : Desc) : Desc :=
  let k := shardCount skb.len
  closed t (slot n t (k - 1)) k (slot n t j)
    (described j (filled skb mode (xpnetMaxDmaSegmentSize * j) d))

theorem exec_xmitEnqueued {skb : SkBuff} {tail n shards : Nat} {res : EnqueueResult} {s s' : State}
    (run : (xmitEnqueued skb tail n shards res).exec s = some (.txok, s')) :
    res = .ok ∧ ∀ i, s'.desc i = s.desc i := by
  cases res with
  | ok =>
      cases run
      exact ⟨rfl, fun _ => rfl⟩
  | queueBusy => cases run
  | queueError => cases run

/-- A frame that is copied and not turned down is swept shard by shard. -/
theorem exec_xmitFrame {skb : SkBuff} {free : Nat} {s s' : State}
    (size : RingSize s.queue.xpqNumDesc) (ht : s.queue.tail < s.queue.xpqNumDesc) (pos : 0 < skb.len)
    (fits : shardCount skb.len ≤ s.queue.xpqNumDesc)
    (run : (xmitFrame skb s.queue.tail s.queue.xpqNumDesc free).exec s = some (.txok, s')) :
    (∀ j < shardCount skb.len, s'.desc (slot s.queue.xpqNumDesc s.queue.tail j) =
        shardDesc skb s.mode s.queue.xpqNumDesc s.queue.tail j
          (s.desc (slot s.queue.xpqNumDesc s.queue.tail j))) ∧
      ∀ i, i ∉ slots s.queue.xpqNumDesc s.queue.tail (shardCount skb.len) →
        s'.desc i = s.desc i := by
  have kpos := shardCount_pos pos
  obtain ⟨s1, copy, sweep⟩ := exec_skbToShards size ht fits
  have hnum := sweep.numDesc
  have htail := sweep.tail
  -- the message about a corrupted queue, or its absence, changes nothing
  have run : (xpnetSkbStatEnqueue (shardCount skb.len) >>= fun res =>
      xmitEnqueued skb s.queue.tail s.queue.xpqNumDesc (shardCount skb.len) res).exec s1 =
        some (.txok, s') := by
    rw [xmitFrame, Prog.emit_bind, Prog.exec_act, id, Prog.exec_bind, copy] at run
    simp only [Option.bind_some] at run
    split at run <;> exact run
  obtain ⟨res, s4, enqueue, rest⟩ := Prog.exec_bind_some.mp run
  obtain ⟨rfl, kept⟩ := exec_xmitEnqueued rest
  rw [xpnetSkbStatEnqueue, Prog.look_bind, Prog.exec_act] at enqueue
  simp only [id, hnum, htail] at enqueue
  obtain ⟨res, check⟩ := exec_checkShards s.queue.xpqNumDesc s.queue.tail (shardCount skb.len) s1
  rw [Prog.exec_bind, check] at enqueue
  simp only [Option.bind_some] at enqueue
  cases res with
  | queueBusy => cases enqueue
  | queueError => cases enqueue
  | ok =>
      obtain ⟨s2, setup, sweep2⟩ := exec_setupShards size ht fits kpos (shardCount skb.len)
        (Nat.zero_add _) (fun h => absurd h (Nat.lt_irrefl 0))
        (Sweep.start _ s.queue.tail described s1)
      rw [slot_zero ht] at setup
      obtain ⟨s3, close, -, closes⟩ := exec_handOverShards s.queue.tail
        (slot s.queue.xpqNumDesc s.queue.tail (shardCount skb.len - 1)) (shardCount skb.len) s2
      rw [enqueueChecked, Prog.exec_bind, setup] at enqueue
      simp only [Option.bind_some] at enqueue
      rw [Prog.exec_bind, close] at enqueue
      cases enqueue
      have both := sweep.trans sweep2
      refine ⟨fun j hj => ?_, fun i hi => ?_⟩
      · rw [kept, closes, both.inside j hj]
        rfl
      · have hlast : i ≠ slot s.queue.xpqNumDesc s.queue.tail (shardCount skb.len - 1) := by
          rintro rfl
          exact hi (mem_slots.mpr ⟨_, Nat.sub_lt kpos Nat.one_pos, rfl⟩)
        have hfirst : i ≠ s.queue.tail := by
          rintro rfl
          exact hi (mem_slots.mpr ⟨0, kpos, slot_zero ht⟩)
        rw [kept, closes, both.outside i hi, closed, if_neg hlast, if_neg hfirst]

/-- A call that accepts a frame got past every check to the copy. -/
theorem exec_hardStartXmit_txok {skb : SkBuff} {s s' : State}
    (run : (xpnetHardStartXmit (some skb)).exec s = some (.txok, s')) :
    let q := s.queue
    let free := xpnetGetFreeDesc q.xpqNumDesc q.head q.tail
    0 < skb.len ∧ skb.len ≤ u32Mul free xpnetMaxDmaSegmentSize ∧ skb.dataLen = 0 ∧
      (xmitFrame skb q.tail q.xpqNumDesc free).exec s = some (.txok, s') := by
  intro q free
  rw [xpnetHardStartXmit, Prog.look_bind, Prog.exec_act] at run
  simp only [id] at run
  revert run
  refine xmitFrom_cases (P := fun p => p.exec s = some (.txok, s') → _) ?refused ?full ?checked
  case refused =>
    intro _ run
    cases run
  case full =>
    intro _ _ run
    cases run
  case checked =>
    intro _ _ hpos hle hlinear run
    rw [xmitChecked, loadQword0, Prog.look_bind, Prog.exec_act] at run
    split at run
    · cases run
    · rw [Prog.look_bind, Prog.exec_act] at run
      split at run
      · cases run
      · exact ⟨Nat.pos_of_ne_zero hpos, hle, hlinear, run⟩

/-- What the device finds in shard `j` of a frame of `len` bytes in `k` shards. -/
structure Framed (len k j : Nat) (d : Desc) : Prop where
  owned : ownership d.qword0 = true
  sop : sop d.qword0 = decide (j = 0)
  eop : eop d.qword0 = decide (j + 1 = k)
  address : d.qword2 = d.bufSta.dma
  length : d.qword1 = if len < 128 then 128 else if j + 1 < k then 4096 else len - 4096 * (k - 1)

/-- `qword[0]` of a shard. -/
def frameBits (first last : Bool) : BitVec 64 :=
  ((if first then sopBit else ownBit) ||| if last then eopBit else 0) |||
    if first then ownBit else 0

theorem frameBits_spec : ∀ first last, ownership (frameBits first last) = true ∧
    sop (frameBits first last) = first ∧ eop (frameBits first last) = last := by
  decide

section Shards

variable {skb : SkBuff} {mode : AddressMode} {n t j : Nat}

theorem shardDesc_qword1 (d : Desc) : (shardDesc skb mode n t j d).qword1 =
    if skb.len < 128 then 128 else bytesToCopy skb.len (xpnetMaxDmaSegmentSize * j) := by
  simp only [shardDesc, closed]
  split <;> split <;> rfl

theorem shardDesc_bufSta (d : Desc) : (shardDesc skb mode n t j d).bufSta =
    (filled skb mode (xpnetMaxDmaSegmentSize * j) d).bufSta := by
  simp only [shardDesc, closed]
  split <;> split <;> rfl

theorem shardDesc_framed (ht : t < n) (fits : shardCount skb.len ≤ n) (hj : j < shardCount skb.len)
    (d : Desc) : Framed skb.len (shardCount skb.len) j (shardDesc skb mode n t j d) := by
  have hfirst : slot n t j = t ↔ j = 0 := by
    constructor
    · intro h
      exact slot_inj ht (by omega) (by omega) (h.trans (slot_zero ht).symm)
    · rintro rfl
      exact slot_zero ht
  have hlast : slot n t j = slot n t (shardCount skb.len - 1) ↔ j + 1 = shardCount skb.len := by
    constructor
    · intro h
      have := slot_inj ht (by omega) (by omega) h
      omega
    · intro h
      rw [show shardCount skb.len - 1 = j by omega]
  have hq0 : (shardDesc skb mode n t j d).qword0 =
      frameBits (decide (j = 0)) (decide (j + 1 = shardCount skb.len)) := by
    simp only [shardDesc, closed, hfirst, hlast, described, setQword0, frameBits,
      decide_eq_true_eq]
    split <;> split <;> simp
  obtain ⟨owned, first, last⟩ := frameBits_spec (decide (j = 0)) (decide (j + 1 = shardCount skb.len))
  refine ⟨hq0 ▸ owned, hq0 ▸ first, hq0 ▸ last, ?_, ?_⟩
  · rw [shardDesc_bufSta]
    simp only [shardDesc, closed]
    split <;> split <;> rfl
  · rw [shardDesc_qword1, bytesToCopy_eq_min]
    by_cases hshort : skb.len < 128
    · rw [if_pos hshort, if_pos hshort]
    · rw [if_neg hshort, if_neg hshort]
      by_cases hmore : j + 1 < shardCount skb.len
      · rw [if_pos hmore]
        simp only [shardCount, xpnetMaxDmaSegmentSize] at hmore ⊢
        omega
      · rw [if_neg hmore]
        simp only [shardCount, xpnetMaxDmaSegmentSize] at hj hmore ⊢
        omega

/-- The bytes of one shard, with the padding of a short frame. -/
theorem shardDesc_bytes (linear : skb.dataLen = 0) (hj : j < shardCount skb.len) (d : Desc) :
    (shardDesc skb mode n t j d).bytes mode =
      (skb.data.drop (j * 4096)).take 4096 ++ List.replicate (128 - skb.len) 0 := by
  have hlen : skb.data.length = skb.len := by
    have := skb.len_eq
    omega
  have hpos : 0 < skb.len := by
    by_contra h
    rw [show skb.len = 0 by omega, shardCount_zero] at hj
    exact absurd hj (Nat.not_lt_zero j)
  rw [Desc.bytes, wireBytes, shardDesc_bufSta, shardDesc_qword1]
  by_cases hshort : skb.len < 128
  · -- a short frame is one shard over a cleared buffer
    obtain rfl : j = 0 := by
      simp only [shardCount, xpnetMaxDmaSegmentSize] at hj
      omega
    have hb2c : bytesToCopy skb.len 0 = skb.len := by
      rw [bytesToCopy_eq_min, xpnetMaxDmaSegmentSize]
      omega
    simp only [filled, hshort, if_true, setVa, setLen, swapWords_swapWords, Nat.mul_zero, hb2c,
      Nat.zero_mul, List.drop_zero]
    rw [List.take_of_length_le (Nat.le_of_eq hlen), List.take_of_length_le (by omega),
      readBytes_memcpy_memset _ _ (by omega), hlen]
  · have hsrc : ((skb.data.drop (xpnetMaxDmaSegmentSize * j)).take
        (bytesToCopy skb.len (xpnetMaxDmaSegmentSize * j))) = (skb.data.drop (j * 4096)).take 4096 := by
      rw [bytesToCopy_eq_min, xpnetMaxDmaSegmentSize, Nat.mul_comm 4096 j, List.take_eq_take_iff,
        List.length_drop, hlen]
      omega
    have hcount : ((skb.data.drop (j * 4096)).take 4096).length =
        bytesToCopy skb.len (xpnetMaxDmaSegmentSize * j) := by
      rw [List.length_take, List.length_drop, hlen, bytesToCopy_eq_min, xpnetMaxDmaSegmentSize]
      omega
    simp only [filled, hshort, if_false, setVa, setLen, swapWords_swapWords, hsrc]
    rw [← hcount, readBytes_memcpy, show 128 - skb.len = 0 by omega]
    simp

end Shards

/-- The frame in pieces of a shard. -/
theorem flatMap_pieces {α : Type} (l : List α) (width : Nat) : ∀ count,
    (List.range count).flatMap (fun j => (l.drop (j * width)).take width) = l.take (count * width)
  | 0 => by simp
  | count + 1 => by
      rw [List.range_succ, List.flatMap_append, flatMap_pieces l width count, Nat.succ_mul,
        List.take_add]
      simp

/-- **An accepted frame.** From a ring with its indices in range, wherever they
are and in every address mode, a call that accepts a frame leaves in the slots
from the old `tail` on exactly the frame: each descriptor is the device's, SOP
marks the first and EOP the last, address and length are those of the buffer,
and the buffers read back as the frame's bytes and the padding of a short frame.
No other descriptor or buffer changes. -/
theorem accepted_frame {skb : SkBuff} {r : Ring} (size : RingSize r.size) {s s' : State}
    (numDesc : s.queue.xpqNumDesc = r.size) (head : s.queue.head = r.head)
    (tail : s.queue.tail = r.tail)
    (run : (xpnetHardStartXmit (some skb)).exec s = some (.txok, s')) :
    let k := shardCount skb.len
    (∀ j < k, Framed skb.len k j (s'.desc (slot r.size r.tail j)) ∧
        (s'.desc (slot r.size r.tail j)).bufSta.dma =
          (s.desc (slot r.size r.tail j)).bufSta.dma) ∧
      (List.range k).flatMap (fun j => (s'.desc (slot r.size r.tail j)).bytes s.mode) =
        skb.data ++ List.replicate (128 - skb.len) 0 ∧
      ∀ i, i ∉ slots r.size r.tail k → s'.desc i = s.desc i := by
  intro k
  obtain ⟨pos, fits, linear, run⟩ := exec_hardStartXmit_txok run
  have hfree : xpnetGetFreeDesc s.queue.xpqNumDesc s.queue.head s.queue.tail = r.free := by
    rw [numDesc, head, tail, xpnetGetFreeDesc_eq r size]
  have hbusy := r.busy_add_free
  have hk : k ≤ r.size := by
    have : k ≤ r.free := shardCount_le (Nat.le_trans (hfree ▸ fits) (u32Mul_le _ _))
    omega
  obtain ⟨inside, outside⟩ := exec_xmitFrame (numDesc ▸ size) (by rw [numDesc, tail]; exact r.tail_lt)
    pos (by rw [numDesc]; exact hk) run
  rw [numDesc, tail] at inside outside
  refine ⟨fun j hj => ?_, ?_, outside⟩
  · rw [inside j hj]
    exact ⟨shardDesc_framed r.tail_lt hk hj _, by rw [shardDesc_bufSta]; rfl⟩
  · have hlen : skb.data.length = skb.len := by
      have := skb.len_eq
      omega
    have each : ∀ j ∈ List.range k, (s'.desc (slot r.size r.tail j)).bytes s.mode =
        (skb.data.drop (j * 4096)).take 4096 ++ List.replicate (128 - skb.len) 0 := by
      intro j hj
      rw [inside j (List.mem_range.mp hj)]
      exact shardDesc_bytes linear (List.mem_range.mp hj) _
    rw [List.flatMap_congr each]
    by_cases hshort : skb.len < 128
    · have hone : k = 1 := by
        simp only [k, shardCount, xpnetMaxDmaSegmentSize]
        omega
      rw [hone]
      simp [List.take_of_length_le (show skb.data.length ≤ 4096 by omega)]
    · have hfull : skb.data.length ≤ k * 4096 := by
        simp only [k, shardCount, xpnetMaxDmaSegmentSize]
        omega
      rw [show 128 - skb.len = 0 by omega]
      simp only [List.replicate_zero, List.append_nil]
      rw [flatMap_pieces, List.take_of_length_le hfull]

/-- A frame of two shards that wraps around the driver's own ring. -/
theorem accepted_frame_wrapping :
    let s := (freshState 0 .a0Uncompressed xpnetTxNumDescs).updQueue fun q =>
      { q with head := 8, tail := 9 }
    ∃ s', (xpnetHardStartXmit (some (zeroFrame 0 5000))).exec s = some (.txok, s') ∧
      Framed 5000 2 0 (s'.desc 9) ∧ Framed 5000 2 1 (s'.desc 0) := by
  intro s
  have accepted : ((xpnetHardStartXmit (some (zeroFrame 0 5000))).exec s).map Prod.fst =
      some .txok := by
    decide +kernel
  obtain ⟨⟨exit, s'⟩, run, hexit⟩ := Option.map_eq_some_iff.mp accepted
  cases hexit
  have framed := (accepted_frame (r := ⟨xpnetTxNumDescs, 8, 9, by decide, by decide⟩)
    ringSize_txNumDescs rfl rfl rfl run).1
  exact ⟨s', run, (framed 0 (by decide)).1, (framed 1 (by decide)).1⟩

end XpNet.Tx

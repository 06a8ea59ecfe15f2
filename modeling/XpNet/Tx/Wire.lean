/-
What the device finds in the ring, at any moment of any run.

A `WireShard` is a descriptor as the device reads it: its place in the frame, whether
it points to its own buffer, and the bytes found there. `State.wire` are the shards in
flight, oldest first, and `wireShards` those that a frame is meant to become. The
environment changes ownership and error bits, which a shard does not show
(`State.masked`), so what one call writes is read off the call on its own, store by
store, as in `accepted_frame`.

* `submissions_of_frames`: what a run hands over are frames it was given, whole and in
  their order.
* `ring_carries_frames`: elsewhere than on A0 the shards in flight are the frames
  handed over, less the shards retired, in every state of every run.
-/

import XpNet.Interference.Masked
import XpNet.Tx.Frame
import XpNet.Tx.Completion

namespace XpNet.Tx

open XpNet.Interference

/-! ### Shards -/

/-- A descriptor as the device reads it. -/
structure WireShard where
  sop : Bool
  eop : Bool
  /-- It points to its own buffer. -/
  inBuffer : Bool
  bytes : List UInt8
  deriving DecidableEq, Repr

def wireShard (mode : AddressMode) (d : Desc) : WireShard :=
  ⟨sop d.qword0, eop d.qword0, d.qword2 == d.bufSta.dma, d.bytes mode⟩

/-- The shards in flight, oldest first. -/
def State.wire (s : State) : List WireShard := s.inflight.map fun i => wireShard s.mode (s.desc i)

/-- Shard `j` of a frame, with the padding of a short one. -/
def frameShard (skb : SkBuff) (j : Nat) : WireShard where
  sop := j = 0
  eop := j + 1 = shardCount skb.len
  inBuffer := true
  bytes := (skb.data.drop (j * 4096)).take 4096 ++ List.replicate (128 - skb.len) 0

/-- The shards of a frame. -/
def wireShards (skb : SkBuff) : List WireShard :=
  (List.range (shardCount skb.len)).map (frameShard skb)

/-- The slots an action enqueues: the first of them, and how many. -/
def Ev.enqueued : Ev → Option (Nat × Nat)
  | .moveTail t k => some (t, k)
  | .moveHead _ => none
  | _ => none

/-- What an action hands over, as the device finds it. -/
def submission (a : State × Ev) : Option (List WireShard) :=
  a.2.enqueued.map fun frame =>
    (slots a.1.queue.xpqNumDesc frame.1 frame.2).map fun i => wireShard a.1.mode (a.1.desc i)

/-- What the actions of a trace hand over. -/
def submissions (tr : List (State × Ev)) : List (List WireShard) := tr.filterMap submission

theorem submissions_snoc (tr : List (State × Ev)) (a : State × Ev) :
    submissions (tr ++ [a]) = submissions tr ++ (submission a).toList := by
  rw [submissions, List.filterMap_append, List.filterMap_cons, List.filterMap_nil]
  cases submission a <;> rfl

/-- An action that enqueues nothing. -/
def Enqueueless (lab : Ev) (_ : State → State) : Prop := lab.enqueued = none

theorem submissions_enqueueless (lab : Ev) (h : lab.enqueued = none) {tr : List (State × Ev)}
    {s : State} : submissions (tr ++ [(s, lab)]) = submissions tr := by
  rw [submissions_snoc, submission, h, Option.map_none, Option.toList_none, List.append_nil]

/-! ### What the environment does not change -/

/-- A descriptor without its ownership and error bits. -/
def maskDesc (d : Desc) : Desc := setQword0 (d.qword0 &&& (sopBit ||| eopBit)) d

/-- A state without these bits, and without the allocator's. -/
def State.masked (s : State) : State :=
  { s with
    allocOk := true
    queue := { s.queue with descMeta := fun i => maskDesc (s.desc i) } }

@[simp] theorem masked_desc (s : State) (i : Nat) : s.masked.desc i = maskDesc (s.desc i) := rfl
@[simp] theorem masked_mode (s : State) : s.masked.mode = s.mode := rfl
@[simp] theorem masked_numDesc (s : State) : s.masked.queue.xpqNumDesc = s.queue.xpqNumDesc := rfl
@[simp] theorem masked_tail (s : State) : s.masked.queue.tail = s.queue.tail := rfl
@[simp] theorem masked_isA0 (s : State) : s.masked.isA0 = s.isA0 := rfl
@[simp] theorem masked_dma (s : State) : s.masked.queue.dma = s.queue.dma := rfl
@[simp] theorem masked_armed (s : State) : s.masked.armed = s.armed := rfl
@[simp] theorem maskDesc_bufSta (d : Desc) : (maskDesc d).bufSta = d.bufSta := rfl

@[simp] theorem wireShard_maskDesc (mode : AddressMode) (d : Desc) :
    wireShard mode (maskDesc d) = wireShard mode d := by
  have hsop : sop (maskDesc d).qword0 = sop d.qword0 := by
    simp [maskDesc, setQword0, sop_eq, sopBit, eopBit]
  have heop : eop (maskDesc d).qword0 = eop d.qword0 := by
    simp [maskDesc, setQword0, eop_eq, sopBit, eopBit]
  simp only [wireShard, hsop, heop]
  rfl

section Masks

variable {s t : State}

theorem masked_inj_desc (same : s.masked = t.masked) (i : Nat) :
    maskDesc (s.desc i) = maskDesc (t.desc i) := congrArg (fun u => State.desc u i) same

theorem masked_inj_bufSta (same : s.masked = t.masked) (i : Nat) :
    (s.desc i).bufSta = (t.desc i).bufSta := by
  rw [← maskDesc_bufSta (s.desc i), masked_inj_desc same, maskDesc_bufSta]

theorem masked_inj_armed (same : s.masked = t.masked) : s.armed = t.armed := by
  rw [← masked_armed s, same, masked_armed]

theorem masked_inj_mode (same : s.masked = t.masked) : s.mode = t.mode := by
  rw [← masked_mode s, same, masked_mode]

theorem updDesc_same (s : State) (i : Nat) : (s.updDesc i fun _ => s.desc i) = s := by
  simp [State.updDesc, State.desc]

/-- What a store to a descriptor shows. -/
theorem masked_updDesc (s : State) (i : Nat) (f : Desc → Desc) :
    (s.updDesc i f).masked = s.masked.updDesc i fun _ => maskDesc (f (s.desc i)) := by
  have hmeta : (fun j => maskDesc (Function.update s.queue.descMeta i (f (s.desc i)) j)) =
      Function.update (fun j => maskDesc (s.desc j)) i (maskDesc (f (s.desc i))) :=
    funext fun j => Function.apply_update (fun _ => maskDesc) s.queue.descMeta i _ j
  change ({ s with allocOk := true, queue := { s.queue with descMeta := _ } } : State) = _
  rw [State.updDesc]
  exact congrArg (fun m => ({ s with
    allocOk := true
    queue := { s.queue with descMeta := m } } : State)) hmeta

/-- The same store in two states that show the same. -/
theorem masked_updDesc_congr (same : s.masked = t.masked) (i : Nat) {f g : Desc → Desc}
    (shown : maskDesc (f (s.desc i)) = maskDesc (g (t.desc i))) :
    (s.updDesc i f).masked = (t.updDesc i g).masked := by
  rw [masked_updDesc, masked_updDesc, same, shown]

/-- A step of the environment shows nothing. -/
theorem env_masked (h : Env s t) : t.masked = s.masked := by
  have hclear : ∀ q, clearOwn q &&& (sopBit ||| eopBit) = q &&& (sopBit ||| eopBit) := by
    intro q
    simp only [clearOwn, BitVec.and_assoc]
    congr 1
  have herror : ∀ q, setError q &&& (sopBit ||| eopBit) = q &&& (sopBit ||| eopBit) := by
    intro q
    rw [setError, BitVec.and_or_distrib_right]
    simp [errBit, sopBit, eopBit]
  have upd : ∀ i g, (∀ q, g q &&& (sopBit ||| eopBit) = q &&& (sopBit ||| eopBit)) →
      (onOwned i g s).masked = s.masked := by
    intro i g hg
    unfold onOwned
    split
    · rw [masked_updDesc]
      have hkept : maskDesc (setQword0 (g (s.desc i).qword0) (s.desc i)) = s.masked.desc i := by
        simp only [maskDesc, setQword0, hg, masked_desc]
      rw [hkept]
      exact updDesc_same s.masked i
    · rfl
  obtain ⟨m, rfl⟩ := h
  cases m with
  | complete i => exact upd i clearOwn hclear
  | fault i => exact upd i setError herror
  | memory ok => rfl

end Masks

/-! ### Programs that go by what is shown -/

/-- An update of a descriptor that goes by what it shows. -/
def Shown (f : Desc → Desc) : Prop := ∀ d, maskDesc (f d) = maskDesc (f (maskDesc d))

theorem Shown.congr {f : Desc → Desc} (shown : Shown f) {s t : State}
    (same : s.masked = t.masked) (i : Nat) : (s.updDesc i f).masked = (t.updDesc i f).masked :=
  masked_updDesc_congr same i (by
    rw [shown (s.desc i), shown (t.desc i), masked_inj_desc same i])

theorem shown_setLen (len : Nat) : Shown (setLen len) := fun d => by
  simp [maskDesc, setQword0, setLen, BitVec.and_assoc]

theorem shown_setVa (g : Shard → Image) : Shown fun d => setVa (g d.bufSta) d := fun d => by
  simp [maskDesc, setQword0, setVa, BitVec.and_assoc]

theorem shown_setQword0 (q : BitVec 64) : Shown (setQword0 q) := fun d => by
  simp [maskDesc, setQword0]

theorem shown_qword1 : Shown fun d => { d with qword1 := d.bufSta.len } := fun d => by
  simp [maskDesc, setQword0, BitVec.and_assoc]

theorem shown_qword2 : Shown fun d => { d with qword2 := d.bufSta.dma } := fun d => by
  simp [maskDesc, setQword0, BitVec.and_assoc]

theorem shown_numShards (k : Nat) : Shown fun d => { d with numShards := k } := fun d => by
  simp [maskDesc, setQword0, BitVec.and_assoc]

section Blindness

theorem Shown.blind {α : Type} {lab : Ev} {i : Nat} {f : Desc → Desc} {g : Unit → TxProg α}
    (shown : Shown f) (rest : Blind State.masked (g ())) :
    Blind State.masked (storeDesc lab i f >>= g) :=
  .write (fun _ _ same => shown.congr same i) rest

theorem swapShard_blind (i : Nat) : Blind State.masked (swapShard i) := by
  refine ⟨fun s t same => ⟨same, ?_⟩, fun s => ?_⟩
  · simp only [Prog.bind, id, masked_inj_bufSta same i, masked_inj_mode same]
  · simp only [Prog.bind, id]
    split
    · exact ⟨fun _ _ same => ⟨(shown_setVa fun _ => _).congr same i, rfl⟩, fun _ => trivial⟩
    · trivial

theorem fillShard_blind (skb : SkBuff) (copied i : Nat) :
    Blind State.masked (fillShard skb copied i) := by
  have copy : Blind State.masked (storeDesc
      (.memcpy i ((skb.data.drop copied).take (bytesToCopy skb.len copied))) i
      (fun d => setVa (memcpy d.bufSta.va
        ((skb.data.drop copied).take (bytesToCopy skb.len copied))) d) >>= fun _ => swapShard i) :=
    (shown_setVa fun b => memcpy b.va ((skb.data.drop copied).take
      (bytesToCopy skb.len copied))).blind (swapShard_blind i)
  refine (shown_setLen _).blind ?_
  by_cases hshort : skb.len < 128
  · simp only [hshort, if_true]
    exact (shown_setVa fun b => memset b.va 0 128).blind ((shown_setLen 128).blind copy)
  · simp only [hshort, if_false]
    exact copy

theorem skbToShardsLoop_blind (skb : SkBuff) (n copied i idx : Nat) :
    Blind State.masked (skbToShardsLoop skb n copied i idx) := by
  fun_induction skbToShardsLoop skb n copied i idx with
  | case1 copied i idx _ ih => exact (fillShard_blind skb copied i).bind fun _ => ih
  | case2 copied i idx _ => trivial

/-- **The copy** goes by what is shown. -/
theorem skbToShards_blind (skb : SkBuff) : Blind State.masked (xpnetSkbToShards skb) := by
  refine ⟨fun s t same => ⟨same, ?_⟩, fun s => skbToShardsLoop_blind skb _ _ _ _⟩
  have hqueue : s.queue.xpqNumDesc = t.queue.xpqNumDesc ∧ s.queue.tail = t.queue.tail := by
    rw [← masked_numDesc s, ← masked_tail s, same]
    exact ⟨rfl, rfl⟩
  simp only [Prog.bind, id, hqueue]

theorem setupShards_blind (n tail : Nat) : ∀ last idx max,
    Blind State.masked (setupShards n tail last idx max)
  | _, _, 0 => trivial
  | last, idx, max + 1 => by
      refine shown_qword2.blind (shown_qword1.blind ?_)
      by_cases h : idx = tail
      · simp only [h, if_true]
        exact (shown_setQword0 _).blind (setupShards_blind n tail _ _ max)
      · simp only [h, if_false]
        refine .write (fun s t same => ?_) (setupShards_blind n tail _ _ max)
        exact congrArg₂ (fun (u : State) a => { u with armed := idx :: a })
          ((shown_setQword0 ownBit).congr same idx) (masked_inj_armed same)

theorem kickQueue_blind (isA0 : Bool) (tail : Nat) : Blind State.masked (kickQueue isA0 tail) := by
  cases isA0 with
  | false => trivial
  | true =>
      refine ⟨fun s t same => ⟨?_, rfl⟩, fun _ => ⟨fun s t same => ⟨?_, rfl⟩, fun _ => trivial⟩⟩
      · have hdma : s.queue.dma = t.queue.dma := by rw [← masked_dma s, same, masked_dma]
        exact congrArg₂ (fun (u : State) a => { u with cdpReg := a + tail * xpnetDescSize }) same hdma
      · exact congrArg (fun u : State => { u with cmdReg := 8 ||| 0 }) same

/-- Bits added to a word that was loaded before. -/
theorem maskDesc_added {q q' bits : BitVec 64} {d d' : Desc}
    (word : q &&& (sopBit ||| eopBit) = q' &&& (sopBit ||| eopBit))
    (same : maskDesc d = maskDesc d') :
    maskDesc (setQword0 (q ||| bits) d) = maskDesc (setQword0 (q' ||| bits) d') := by
  have hset : ∀ (x : BitVec 64) (d : Desc), maskDesc (setQword0 x d) =
      setQword0 (x &&& (sopBit ||| eopBit)) (maskDesc d) := fun _ _ => rfl
  rw [hset, hset, BitVec.and_or_distrib_right, word, same, ← BitVec.and_or_distrib_right]

/-- **The hand-over** ends, whatever the device does meanwhile, as it would alone. -/
theorem handOverShards_tracks (tail last shards : Nat) {t t' : State}
    (run : (handOverShards tail last shards).exec t = some ((), t')) :
    Tracks State.masked (handOverShards tail last shards) t.masked fun _ e => e = t'.masked := by
  -- the states of the call on its own
  let t₁ := t.updDesc last (setQword0 ((t.desc last).qword0 ||| eopBit))
  let t₂ := t₁.updDesc tail fun d => { d with numShards := shards }
  let t₃ : State :=
    { t₂.updDesc tail (setQword0 ((t₂.desc tail).qword0 ||| ownBit)) with armed := tail :: t.armed }
  -- and beside them those of a run
  intro s₁ h₁ s₂ h₂
  have h₂ : s₂.masked = t.masked := h₂.trans h₁
  have word := congrArg Desc.qword0 (masked_inj_desc h₁ last)
  have store : _ = t₁.masked := masked_updDesc_congr h₂ last
    (f := setQword0 ((s₁.desc last).qword0 ||| eopBit)) (maskDesc_added word (masked_inj_desc h₂ last))
  intro s₃ h₃
  have count : _ = t₂.masked := (shown_numShards shards).congr (h₃.trans store) tail
  intro s₄ h₄ s₅ h₅
  have h₄ : s₄.masked = t₂.masked := h₄.trans count
  have h₅ : s₅.masked = t₂.masked := (show s₅.masked = s₄.masked from h₅).trans h₄
  have word := congrArg Desc.qword0 (masked_inj_desc h₄ tail)
  have own := masked_updDesc_congr h₅ tail (f := setQword0 ((s₄.desc tail).qword0 ||| ownBit))
    (maskDesc_added word (masked_inj_desc h₅ tail))
  have handOver : _ = t₃.masked := congrArg₂ (fun (u : State) a => { u with armed := tail :: a }) own
    (masked_inj_armed h₅)
  -- the rest looks at the A0 flag and writes registers
  have rest : Blind State.masked (do
      let isA0 ← Prog.look Ev.priv State.isA0
      kickQueue isA0 tail) := by
    refine ⟨fun u v same => ⟨same, ?_⟩, fun _ => kickQueue_blind _ _⟩
    have hflag : u.isA0 = v.isA0 := by rw [← masked_isA0 u, same, masked_isA0]
    simp only [Prog.bind, hflag]
  rw [show State.masked _ = t₃.masked from handOver]
  exact (rest.tracks (t := t₃) run).mono fun _ _ h => h.2

end Blindness

/-! ### One call -/

/-- The slots from `t` on show the shards of a frame. -/
def Shows (n t : Nat) (skb : SkBuff) (s : State) : Prop :=
  s.queue.xpqNumDesc = n ∧
    (slots n t (shardCount skb.len)).map (fun i => wireShard s.mode (s.desc i)) = wireShards skb

theorem shows_masked {n t : Nat} {skb : SkBuff} {s : State} :
    Shows n t skb s.masked ↔ Shows n t skb s := by
  simp only [Shows, masked_numDesc, masked_mode, masked_desc, wireShard_maskDesc]

theorem env_stable_shows (n t : Nat) (skb : SkBuff) : Stable Env (Shows n t skb) := by
  intro s s' step shows_
  rw [← shows_masked, env_masked step, shows_masked]
  exact shows_

/-- What is written of a shard after its copy depends on its buffer alone. -/
theorem wireShard_closed {mode : AddressMode} {tail last shards i j : Nat} {d d' : Desc}
    (buffer : d.bufSta = d'.bufSta) :
    wireShard mode (closed tail last shards i (described j d)) =
      wireShard mode (closed tail last shards i (described j d')) := by
  simp only [wireShard, closed, described, setQword0, Desc.bytes]
  split <;> split <;> simp [buffer]

/-- A shard that went through the whole call. -/
theorem wireShard_shardDesc {skb : SkBuff} {mode : AddressMode} {n t j : Nat} (ht : t < n)
    (fits : shardCount skb.len ≤ n) (linear : skb.dataLen = 0) (hj : j < shardCount skb.len)
    (d : Desc) : wireShard mode (shardDesc skb mode n t j d) = frameShard skb j := by
  have framed : Framed skb.len (shardCount skb.len) j (shardDesc skb mode n t j d) :=
    shardDesc_framed ht fits hj d
  have bytes : (shardDesc skb mode n t j d).bytes mode = _ := shardDesc_bytes linear hj d
  simp only [wireShard, framed.sop, framed.eop, framed.address, bytes, beq_self_eq_true]
  rfl

/-- An action that leaves the address mode alone. -/
def KeepsMode (_ : Ev) (u : State → State) : Prop := ∀ s, (u s).mode = s.mode

theorem handOverShards_mode (tail last shards : Nat) :
    Always KeepsMode (handOverShards tail last shards) := by
  have kick : ∀ isA0, Always KeepsMode (kickQueue isA0 tail) := by
    intro isA0
    cases isA0 with
    | false => trivial
    | true => exact ⟨fun _ => rfl, fun _ => ⟨fun _ => rfl, fun _ => trivial⟩⟩
  exact ⟨fun _ => rfl, fun _ => ⟨fun _ => rfl, fun _ => ⟨fun _ => rfl, fun _ => ⟨fun _ => rfl,
    fun _ => ⟨fun _ => rfl, fun _ => ⟨fun _ => rfl, fun _ => kick _⟩⟩⟩⟩⟩⟩

section Call

variable {r : Ring} {skb : SkBuff} {s : State} {tr : List (State × Ev)}

/-- **The setup of the descriptors** and the hand-over. -/
theorem statEnqueue_tracks {n t k : Nat} (size : RingSize n) (ht : t < n) (fits : k ≤ n)
    (pos : 0 < k) (numDesc : s.queue.xpqNumDesc = n) (tail : s.queue.tail = t) :
    Tracks State.masked (xpnetSkbStatEnqueue k) s.masked fun res e => res = .ok →
      e.queue.xpqNumDesc = n ∧ e.mode = s.mode ∧ ∀ j < k, e.desc (slot n t j) =
        maskDesc (closed t (slot n t (k - 1)) k (slot n t j) (described j (s.desc (slot n t j)))) := by
  intro u hu
  have hnum : u.queue.xpqNumDesc = n := by rw [← masked_numDesc u, hu, masked_numDesc, numDesc]
  have htail : u.queue.tail = t := by rw [← masked_tail u, hu, masked_tail, tail]
  simp only [Prog.bind, id, hnum, htail]
  have check : Tracks State.masked (checkShards n t k) u.masked fun _ e => e = u.masked :=
    Always.tracks (checkShards_always (fun _ _ same => same) (fun _ _ same => same)
      (fun _ _ same => same) n t k) rfl
  refine check.bind ?_
  rintro res e rfl
  cases res with
  | queueBusy => exact EnqueueResult.noConfusion
  | queueError => exact EnqueueResult.noConfusion
  | ok =>
      rw [hu]
      obtain ⟨s₂, setup, sweep⟩ := exec_setupShards size ht fits pos k (Nat.zero_add k)
        (fun h => absurd h (Nat.lt_irrefl 0)) (Sweep.start n t described s)
      rw [slot_zero ht] at setup
      obtain ⟨s₃, close, hnum₃, closes⟩ := exec_handOverShards t (slot n t (k - 1)) k s₂
      refine ((setupShards_blind n t t t k).tracks setup).bind ?_
      rintro last e ⟨rfl, rfl⟩
      refine (handOverShards_tracks t _ k close).bind ?_
      rintro _ e rfl _
      refine ⟨by rw [masked_numDesc, hnum₃, sweep.numDesc, numDesc], ?_, fun j hj => ?_⟩
      · have keeps : Emits KeepsMode (fun _ => ([] : List Unit)) 
            (handOverShards t (slot n t (k - 1)) k) [] fun _ => [] :=
          ((handOverShards_mode t (slot n t (k - 1)) k).mono fun _ _ keeps => ⟨keeps, rfl⟩).emits
        obtain ⟨_, run⟩ : ∃ tr, Runs (fun _ _ => False) _ s₂ tr () s₃ := Runs.of_exec close
        exact (run.keeps (fun _ _ => False.elim) keeps).trans sweep.mode
      · rw [masked_desc, closes, sweep.inside j hj]

/-! ### What a call adds to the submissions -/

/-- What a call that ends so hands over. -/
def carried (skb : SkBuff) (exit : XmitExit) : List (List WireShard) :=
  if exit = .txok then [wireShards skb] else []

theorem carried_of_ne {skb : SkBuff} {exit : XmitExit} (h : exit ≠ .txok) : carried skb exit = [] :=
  if_neg h

/-- The actions of the copy. -/
theorem skbToShards_takes {P : Ev → (State → State) → Prop} (looks : P .priv id)
    (writes : ∀ i lab f, BufWrite i lab f → P lab fun s => s.updDesc i f) (skb : SkBuff) :
    Takes P (xpnetSkbToShards skb) := by
  have swap : ∀ i, Takes P (swapShard i) := by
    intro i
    refine ⟨looks, fun s => ?_⟩
    simp only [Prog.bind, id]
    split
    · exact ⟨writes i _ _ (.buf fun _ => _), fun _ => trivial⟩
    · trivial
  have fill : ∀ copied i, Takes P (fillShard skb copied i) := by
    intro copied i
    have copy : Takes P (storeDesc
        (.memcpy i ((skb.data.drop copied).take (bytesToCopy skb.len copied))) i
        (fun d => setVa (memcpy d.bufSta.va
          ((skb.data.drop copied).take (bytesToCopy skb.len copied))) d) >>= fun _ => swapShard i) :=
      ⟨writes i _ _ (.copy _), fun _ => swap i⟩
    refine ⟨writes i _ _ (.len _), fun _ => ?_⟩
    by_cases hshort : skb.len < 128
    · simp only [hshort, if_true]
      exact ⟨writes i _ _ (.buf fun d => memset d.bufSta.va 0 128), fun _ =>
        ⟨writes i _ _ (.len _), fun _ => copy⟩⟩
    · simp only [hshort, if_false]
      exact copy
  have loop : ∀ n copied i idx, Takes P (skbToShardsLoop skb n copied i idx) := by
    intro n copied i idx
    fun_induction skbToShardsLoop skb n copied i idx with
    | case1 copied i idx _ ih => exact (fill copied i).bind fun _ => ih
    | case2 copied i idx _ => trivial
  exact ⟨looks, fun _ => loop _ _ _ _⟩

theorem enqueueless_of_still {lab : Ev} {u : State → State} (still : Still lab u) :
    Enqueueless lab u := by
  cases lab with
  | moveTail i k => exact still.label.elim
  | _ => rfl

theorem enqueueless_of_looks {lab : Ev} (looks : lab.looks) : Enqueueless lab id := by
  cases lab with
  | moveTail i k => exact looks.elim
  | _ => rfl

theorem enqueueless_of_write {i : Nat} {lab : Ev} {f : Desc → Desc} (write : BufWrite i lab f)
    (u : State → State) : Enqueueless lab u := by
  cases write <;> rfl

section Submissions

variable {rule : List (State × Ev) → State → Ev → Prop} {acc : List (List WireShard)}
  (obeys : ∀ tr s lab, submissions tr = acc → rule tr s lab)

include obeys

/-- Actions that enqueue nothing, from what they show. -/
theorem safe_enqueueless {α : Type} {p : TxProg α} (takes : Takes Enqueueless p)
    {F : α → State → Prop} (tracks : Tracks State.masked p s.masked F)
    (before : submissions tr = acc) :
    Safe Env rule p tr (fun a tr t => submissions tr = acc ∧ F a t.masked) s :=
  .of_tracks (f := State.masked) (fun _ _ => env_masked) obeys
    (fun _ _ _ _ none before => (submissions_enqueueless _ none).trans before) takes tracks before

/-- A program that enqueues nothing at all. -/
theorem safe_quiet {α : Type} {p : TxProg α} (quiet : Always Enqueueless p)
    (before : submissions tr = acc) :
    Safe Env rule p tr (fun _ tr _ => submissions tr = acc) s :=
  (safe_enqueueless obeys quiet.takes (F := fun _ _ => True) (Always.tracks (J := fun _ => True)
    (quiet.mono fun _ _ _ _ _ => trivial) trivial) before).mono fun _ _ _ h => h.1

/-- **The enqueueing of a frame**: its slots show it. -/
theorem safe_copied {n t : Nat} (size : RingSize n) (ht : t < n) (pos : 0 < skb.len)
    (fits : shardCount skb.len ≤ n) (linear : skb.dataLen = 0) (numDesc : s.queue.xpqNumDesc = n)
    (tail : s.queue.tail = t) (before : submissions tr = acc) :
    Safe Env rule (xpnetSkbToShards skb) tr (fun k tr u => submissions tr = acc ∧
      k = shardCount skb.len ∧ ∀ {tr' v}, submissions tr' = acc → v.masked = u.masked →
        Safe Env rule (xpnetSkbStatEnqueue k) tr'
          (fun res tr w => submissions tr = acc ∧ (res = .ok → Shows n t skb w)) v) s := by
  obtain ⟨s₁, copy, sweep⟩ := exec_skbToShards (numDesc ▸ size) (by rw [numDesc, tail]; exact ht)
    (by rw [numDesc]; exact fits)
  rw [numDesc, tail] at sweep
  refine (safe_enqueueless obeys
    (skbToShards_takes rfl (fun _ _ _ write => enqueueless_of_write write _) skb)
    ((skbToShards_blind skb).tracks copy) before).mono ?_
  rintro k tr' u ⟨same, rfl, hu⟩
  refine ⟨same, rfl, fun {tr'' v} same' hv => ?_⟩
  have shown : v.masked = s₁.masked := hv.trans hu
  have hnum : v.queue.xpqNumDesc = n := by
    rw [← masked_numDesc v, shown, masked_numDesc, sweep.numDesc, numDesc]
  have htail : v.queue.tail = t := by
    rw [← masked_tail v, shown, masked_tail, sweep.tail, tail]
  have takes : Takes Enqueueless (xpnetSkbStatEnqueue (shardCount skb.len)) :=
    ⟨rfl, fun _ => ((checkShards_still _ _ _).bind fun res =>
      enqueueChecked_still _ _ _ res).mono (fun _ _ => enqueueless_of_still) |>.takes⟩
  refine (safe_enqueueless obeys takes
    (statEnqueue_tracks size ht fits (shardCount_pos pos) hnum htail) same').mono ?_
  rintro res tr₃ w ⟨same₃, closes⟩
  refine ⟨same₃, fun ok => shows_masked.mp ?_⟩
  obtain ⟨hnum, hmode, descs⟩ := closes ok
  refine ⟨hnum, ?_⟩
  rw [slots, List.map_map, wireShards]
  refine List.map_congr_left fun j hj => ?_
  have hj := List.mem_range.mp hj
  rw [Function.comp_apply, hmode, descs j hj, wireShard_maskDesc,
    wireShard_closed (masked_inj_bufSta shown (slot n t j)), sweep.inside j hj,
    masked_inj_mode shown, sweep.mode]
  exact wireShard_shardDesc ht fits linear hj _

/-- A call that is turned down hands nothing over. -/
theorem safe_refused {p : TxProg XmitExit} (still : Always Still p)
    (refuses : Returns (· ≠ .txok) p) (before : submissions tr = acc) :
    Safe Env rule p tr (fun exit tr _ => submissions tr = acc ++ carried skb exit) s := by
  have quiet := still.mono fun _ _ => enqueueless_of_still
  refine ((safe_quiet obeys quiet before).and_returns refuses).mono ?_
  rintro exit tr' _ ⟨same, refused⟩
  rw [same, carried_of_ne refused, List.append_nil]

theorem safe_xmitEnqueued {n t : Nat} {res : EnqueueResult} (before : submissions tr = acc)
    (shown : res = .ok → Shows n t skb s) :
    Safe Env rule (xmitEnqueued skb t n (shardCount skb.len) res) tr
      (fun exit tr _ => submissions tr = acc ++ carried skb exit) s := by
  cases res with
  | queueBusy => exact safe_refused obeys (p := .ret .txbusy) trivial XmitExit.noConfusion before
  | queueError =>
      exact safe_refused obeys ((bumpStats_still _).bind fun _ => trivial) (fun _ => XmitExit.noConfusion) before
  | ok =>
      have stable := env_stable_shows n t skb
      refine .act stable (shown rfl) fun u hu => ⟨obeys _ _ _ before, ?_⟩
      have freed := (submissions_enqueueless (.kfreeSkb skb.expanded) rfl (s := u)).trans before
      refine .write stable hu fun v hv => ⟨obeys _ _ _ freed, ?_⟩
      have counted := (submissions_enqueueless .priv rfl (s := v)).trans freed
      refine .write (I := Shows n t skb) stable hv fun w hw => ⟨obeys _ _ _ counted, fun _ _ => ?_⟩
      dsimp only
      rw [submissions_snoc, counted, carried, if_pos rfl, submission]
      simp only [Ev.enqueued, Option.map_some, Option.toList_some, hw.1, hw.2]

/-- **A frame**, from its copy on. -/
theorem safe_xmitFrame (size : RingSize r.size) (found : At r s) (pos : 0 < skb.len)
    (fits : shardCount skb.len ≤ r.free) (linear : skb.dataLen = 0) (before : submissions tr = acc) :
    Safe Env rule (xmitFrame skb r.tail r.size r.free) tr
      (fun exit tr _ => submissions tr = acc ++ carried skb exit) s := by
  have hfree := r.busy_add_free
  have hbusy := r.busy_lt
  refine .act (env_stable_at r) found fun u hu => ⟨obeys _ _ _ before, ?_⟩
  have begun := (submissions_enqueueless (.beginCopy r.tail skb.len) rfl (s := u)).trans before
  refine (safe_copied obeys size r.tail_lt pos (by omega) linear hu.numDesc hu.tail begun).seq ?_
  rintro k tr' v ⟨copied, rfl, enqueue⟩
  rw [if_neg (size.not_asInt_gt fits (by omega))]
  exact (enqueue copied rfl).seq fun res tr'' w h => safe_xmitEnqueued obeys h.1 h.2

theorem safe_hardStartXmit (size : RingSize r.size) (found : At r s)
    (before : submissions tr = acc) :
    Safe Env rule (xpnetHardStartXmit (some skb)) tr
      (fun exit tr _ => submissions tr = acc ++ carried skb exit) s := by
  have stable := env_stable_at r
  refine .look stable found fun t ht => ⟨obeys _ _ _ before, ?_⟩
  have looked := (submissions_enqueueless .priv rfl (s := t)).trans before
  change Safe Env rule (xmitFrom t (some skb)) _ _ t
  refine xmitFrom_cases (P := fun p => Safe Env rule p (tr ++ [(t, .priv)])
    (fun exit tr _ => submissions tr = acc ++ carried skb exit) t) ?refused ?full ?checked
  case refused =>
    exact fun _ => safe_refused obeys (txErrorDrop_still _) (fun _ _ _ => XmitExit.noConfusion) looked
  case full => exact fun _ _ => safe_refused obeys (p := .ret .txbusy) trivial XmitExit.noConfusion looked
  case checked =>
    rw [ht.free size, ht.tail, ht.numDesc]
    intro _ _ pos hlen linear
    have fits : shardCount skb.len ≤ r.free := shardCount_le (Nat.le_trans hlen (u32Mul_le _ _))
    refine .look stable ht fun u hu => ⟨obeys _ _ _ looked, ?_⟩
    have loaded := (submissions_enqueueless (.load r.tail) rfl (s := u)).trans looked
    split
    · exact safe_refused obeys ⟨still_id trivial, fun _ => trivial⟩ (fun _ => XmitExit.noConfusion) loaded
    · refine .look stable hu fun v hv => ⟨obeys _ _ _ loaded, ?_⟩
      have loaded := (submissions_enqueueless (.load r.tail) rfl (s := v)).trans loaded
      split
      · exact safe_refused obeys (p := .ret .txbusy) trivial XmitExit.noConfusion loaded
      · exact safe_xmitFrame obeys size hv (Nat.pos_of_ne_zero pos) fits linear loaded

omit obeys in
/-- **`xpnet_start_xmit`** hands over the frame it is given, or nothing. -/
theorem safe_startXmit (size : RingSize r.size) (found : At r s)
    (obeys : ∀ tr s lab, (∃ exit, submissions tr = acc ++ carried skb exit) → rule tr s lab)
    (before : submissions tr = acc) :
    Safe Env rule (xpnetStartXmit skb) tr
      (fun exit tr _ => submissions tr = acc ++ carried skb exit) s := by
  have refused : acc ++ carried skb .txdrop = acc := List.append_nil acc
  have obeys₀ : ∀ tr s lab, submissions tr = acc → rule tr s lab := fun tr s lab h =>
    obeys tr s lab ⟨.txdrop, by rw [refused, h]⟩
  refine .look (env_stable_at r) found fun t ht => ⟨obeys₀ _ _ _ before, ?_⟩
  have looked := (submissions_enqueueless .priv rfl (s := t)).trans before
  simp only [id, startXmitFrom]
  split
  · exact safe_refused obeys₀ ⟨still_id trivial, fun _ => trivial⟩ (fun _ => XmitExit.noConfusion) looked
  · refine (safe_hardStartXmit obeys₀ size ht looked).seq fun exit tr' u after => ?_
    have completes : Always Enqueueless (completeAfter t.queue.xpqNumDesc exit) := by
      unfold completeAfter
      split
      · exact (txComplete_always (fun _ => enqueueless_of_looks) (fun _ => rfl) rfl _).bind
          fun _ => trivial
      · trivial
    have returns : Returns (· = exit) (completeAfter t.queue.xpqNumDesc exit) := by
      unfold completeAfter
      split
      · exact .bind fun _ => rfl
      · exact rfl
    have kept := safe_quiet (s := u) (fun tr s lab h => obeys tr s lab ⟨exit, h⟩) completes after
    refine (kept.and_returns returns).mono ?_
    rintro _ _ _ ⟨same, rfl⟩
    exact same

end Submissions

end Call

/-! ### Runs -/

section Runs

variable {n : Nat} {s₀ s : State} {frames : List SkBuff} {p : TxProg Unit} {tr : List (State × Ev)}

/-- What was handed over is some of the frames, in their order. -/
def Carried (frames : List SkBuff) (tr : List (State × Ev)) : Prop :=
  ∃ accepted : List SkBuff, accepted.Sublist frames ∧ submissions tr = accepted.map wireShards

/-- One more frame is accepted, or is not. -/
theorem Carried.next {done : List SkBuff} (carries : Carried done tr) {skb : SkBuff} {exit : XmitExit}
    {tr' : List (State × Ev)} (after : submissions tr' = submissions tr ++ carried skb exit) :
    Carried (done ++ [skb]) tr' := by
  obtain ⟨accepted, sub, before⟩ := carries
  rw [before, carried] at after
  split at after
  · exact ⟨accepted ++ [skb], sub.append (.refl _), by rw [after, List.map_append]; rfl⟩
  · exact ⟨accepted, sub.trans (List.sublist_append_left _ _), by rw [after, List.append_nil]⟩

/-- With `left` still to be sent. -/
structure Sending (n : Nat) (a0 : Bool) (frames left : List SkBuff) (tr : List (State × Ev))
    (s : State) : Prop where
  idle : SomeIdle n a0 s
  carries : ∃ done, done ++ left = frames ∧ Carried done tr

theorem safe_runXmit (size : RingSize n) (init : Initial n s₀) :
    Safe Env (fun tr _ _ => Carried frames tr) (runXmit frames) []
      (fun _ tr s => Sending n s₀.isA0 frames [] tr s) s₀ := by
  refine Safe.forM (I := Sending n s₀.isA0 frames) ?stable ?round frames ?start
  case stable =>
    exact fun tr s s' step h => ⟨env_stable_someIdle _ _ _ _ step h.idle, h.carries⟩
  case start => exact ⟨⟨_, rfl, init.idle size.pos⟩, [], rfl, [], .slnil, rfl⟩
  case round =>
    rintro skb left tr s ⟨⟨r, rfl, idle⟩, done, parts, carries⟩
    have parts : (done ++ [skb]) ++ left = frames := by rw [← parts, List.append_assoc]; rfl
    have obeys : ∀ tr' s lab, (∃ exit, submissions tr' = submissions tr ++ carried skb exit) →
        (fun tr (_ : State) (_ : Ev) => Carried frames tr) tr' s lab := by
      rintro tr' _ _ ⟨exit, after⟩
      obtain ⟨accepted, sub, same⟩ := carries.next after
      exact ⟨accepted, sub.trans (parts ▸ List.sublist_append_left _ _), same⟩
    have call := safe_startXmit size idle.base.indices obeys rfl
    have verified := wp_startXmit (c := False) size skb ⟨r, rfl, idle⟩
    refine (call.and_wp (wp_unassumed (fun _ _ h => h.elim) verified)).seq ?_
    rintro exit tr' t ⟨after, idle⟩ u steps
    exact ⟨(env_stable_someIdle _ _).steps steps idle, done ++ [skb], parts, carries.next after⟩

/-- **The frames handed over.** Whatever the device does, the shards that a run has handed
over so far are those of frames it was given, whole, in their order and each at most
once. -/
theorem submissions_of_frames (size : RingSize n) (init : Initial n s₀)
    (run : Reach Env (fun _ _ => True) (runXmit frames) s₀ p s tr) : Carried frames tr := by
  have safe := run.safe (safe_runXmit size init)
  cases p with
  | ret _ =>
      obtain ⟨-, done, parts, carries⟩ := safe s .refl
      exact (List.append_nil done).symm.trans parts ▸ carries
  | act l u k => exact (safe s .refl).1
  | diverge =>
      exact ((reach_unassumed run).wp (wp_runXmit_initial (c := False) size frames init)).elim

/-! ### The ring as a queue of shards -/

/-- An action that changes no shard but the one it stores to. -/
def KeepsShards (lab : Ev) (u : State → State) : Prop :=
  ∀ s, (u s).mode = s.mode ∧ ∀ i, lab.target ≠ some i →
    wireShard s.mode ((u s).desc i) = wireShard s.mode (s.desc i)

theorem keepsShards_same {lab : Ev} {u : State → State} (mode : ∀ s, (u s).mode = s.mode)
    (desc : ∀ s i, (u s).desc i = s.desc i) : KeepsShards lab u :=
  fun s => ⟨mode s, fun i _ => by rw [desc]⟩

theorem keepsShards_updDesc {lab : Ev} {i : Nat} (target : lab.target = some i) (f : Desc → Desc) :
    KeepsShards lab fun s => s.updDesc i f := by
  refine fun s => ⟨rfl, fun j hj => ?_⟩
  have hne : j ≠ i := fun h => hj (h ▸ target)
  rw [updDesc_of_ne s f hne]

theorem keepsShards_arm {lab : Ev} {i : Nat} (target : lab.target = some i) (f : Desc → Desc) :
    KeepsShards lab fun s => { s.updDesc i f with armed := i :: s.armed } :=
  fun s => keepsShards_updDesc target f s

theorem keepsShards_numShards (t k : Nat) :
    KeepsShards .priv fun s => s.updDesc t fun d => { d with numShards := k } := by
  refine fun s => ⟨rfl, fun j _ => ?_⟩
  by_cases h : j = t
  · subst h
    rw [updDesc_self]
    rfl
  · rw [updDesc_of_ne s _ h]

theorem setupShards_keepsShards (n t : Nat) :
    ∀ last idx max, Always KeepsShards (setupShards n t last idx max)
  | _, _, 0 => trivial
  | last, idx, max + 1 => by
      refine ⟨keepsShards_updDesc rfl _, fun _ => ⟨keepsShards_updDesc rfl _, fun _ => ?_⟩⟩
      by_cases h : idx = t
      · simp only [h, if_true]
        exact ⟨keepsShards_updDesc rfl _, fun _ => setupShards_keepsShards n t _ _ max⟩
      · simp only [h, if_false]
        exact ⟨keepsShards_arm rfl _, fun _ => setupShards_keepsShards n t _ _ max⟩

theorem keepsShards_id (lab : Ev) : KeepsShards lab id :=
  keepsShards_same (fun _ => rfl) fun _ _ => rfl

theorem handOverShards_keepsShards (t last k : Nat) :
    Always KeepsShards (handOverShards t last k) := by
  have kick : ∀ isA0, Always KeepsShards (kickQueue isA0 t) := by
    intro isA0
    cases isA0 with
    | false => trivial
    | true =>
        exact ⟨keepsShards_same (fun _ => rfl) fun _ _ => rfl, fun _ =>
          ⟨keepsShards_same (fun _ => rfl) fun _ _ => rfl, fun _ => trivial⟩⟩
  exact ⟨keepsShards_id _, fun _ => ⟨keepsShards_updDesc rfl _, fun _ =>
    ⟨keepsShards_numShards t k, fun _ => ⟨keepsShards_id _, fun _ =>
      ⟨keepsShards_arm rfl _, fun _ => ⟨keepsShards_id _, fun _ => kick _⟩⟩⟩⟩⟩⟩

theorem skbStatEnqueue_keepsShards (k : Nat) : Always KeepsShards (xpnetSkbStatEnqueue k) := by
  refine ⟨keepsShards_id _, fun s => (checkShards_always (fun _ => keepsShards_id _)
    (fun _ => keepsShards_id _) (fun _ => keepsShards_id _) _ _ _).bind fun res => ?_⟩
  cases res with
  | ok =>
      exact (setupShards_keepsShards _ _ _ _ _).bind fun _ =>
        (handOverShards_keepsShards _ _ _).bind fun _ => trivial
  | queueBusy => trivial
  | queueError => trivial

/-- The actions of a call. -/
theorem startXmit_takes {P : Ev → (State → State) → Prop} (same : ∀ lab, P lab id)
    (counts : ∀ f, P .priv fun s => s.updStats f)
    (writes : ∀ i lab f, BufWrite i lab f → P lab fun s => s.updDesc i f)
    (enqueues : ∀ k, Takes P (xpnetSkbStatEnqueue k))
    (tail : ∀ t k n, P (.moveTail t k) fun s =>
      { s.updQueue fun q => { q with tail := xpnetAddAndWrap q.tail k n } with armed := [] })
    (head : ∀ i, P (.moveHead i) fun s =>
      s.updQueue fun q => { q with head := xpnetAddAndWrap q.head 1 q.xpqNumDesc })
    (rewinds : P .rewind fun s => s.updQueue fun q => { q with head := q.xpqNumDesc - 1, tail := 0 })
    (skb : SkBuff) : Takes P (xpnetStartXmit skb) := by
  have drop : Takes P (txErrorDrop (some skb)) :=
    ⟨counts _, fun _ => ⟨same _, fun _ => ⟨counts _, fun _ => trivial⟩⟩⟩
  have enqueued : ∀ t n shards res, Takes P (xmitEnqueued skb t n shards res) := by
    intro t n shards res
    cases res with
    | ok => exact ⟨same _, fun _ => ⟨counts _, fun _ => ⟨tail _ _ _, fun _ => trivial⟩⟩⟩
    | queueBusy => trivial
    | queueError => exact ⟨counts _, fun _ => trivial⟩
  have frame : ∀ t n free, Takes P (xmitFrame skb t n free) := by
    intro t n free
    refine ⟨same _, fun _ => (skbToShards_takes (same _) writes skb).bind fun shards => ?_⟩
    have enqueue := (enqueues shards).bind fun res => enqueued t n shards res
    by_cases hmore : asInt shards > asInt free
    · simp only [hmore, if_true]
      exact ⟨same _, fun _ => enqueue⟩
    · simp only [hmore, if_false]
      exact enqueue
  have hard : Takes P (xpnetHardStartXmit (some skb)) := by
    refine ⟨same _, fun s => ?_⟩
    refine xmitFrom_cases (s := s) (P := Takes P) (fun _ => drop) (fun _ _ => trivial)
      fun _ _ _ _ _ => ⟨same _, fun t => ?_⟩
    change Takes P (if ownership _ then _ else _)
    split
    · exact ⟨same _, fun _ => trivial⟩
    · refine ⟨same _, fun u => ?_⟩
      change Takes P (if errorIndication _ then _ else _)
      split
      · trivial
      · exact frame _ _ _
  refine ⟨same _, fun s => ?_⟩
  change Takes P (startXmitFrom s skb)
  unfold startXmitFrom
  split
  · exact ⟨same _, fun _ => trivial⟩
  · refine hard.bind fun exit => ?_
    unfold completeAfter
    split
    · exact (txComplete_always (P := P) (fun _ _ => same _) head rewinds _).takes.bind
        fun _ => trivial
    · trivial

theorem startXmit_keepsShards (skb : SkBuff) : Takes KeepsShards (xpnetStartXmit skb) :=
  startXmit_takes keepsShards_id (fun _ => keepsShards_same (fun _ => rfl) fun _ _ => rfl)
    (fun _ _ f write => keepsShards_updDesc write.target f)
    (fun k => (skbStatEnqueue_keepsShards k).takes)
    (fun _ _ _ => keepsShards_same (fun _ => rfl) fun _ _ => rfl)
    (fun _ => keepsShards_same (fun _ => rfl) fun _ _ => rfl)
    (keepsShards_same (fun _ => rfl) fun _ _ => rfl) skb

theorem runXmit_keepsShards (frames : List SkBuff) : Takes KeepsShards (runXmit frames) :=
  .forM (f := fun skb => do let _ ← xpnetStartXmit skb)
    (fun skb => (startXmit_keepsShards skb).bind fun _ => trivial) frames

/-- What was in flight before and what was handed over since are what was retired since and
what is in flight. -/
def Flowed (before : List WireShard) (tr : List (State × Ev)) (s : State) : Prop :=
  s.isA0 = false ∧
    ∃ gone, before ++ (submissions tr).flatten = gone ++ s.wire ∧ gone.length = (retired tr).length

theorem Flowed.start (flag : s.isA0 = false) : Flowed s.wire [] s := by
  refine ⟨flag, [], ?_, rfl⟩
  rw [submissions, List.filterMap_nil, List.flatten_nil, List.append_nil, List.nil_append]

variable {before : List WireShard}

theorem Flowed.env {s' : State} (step : Env s s') (flowed : Flowed before tr s) :
    Flowed before tr s' := by
  obtain ⟨flag, gone, parts, count⟩ := flowed
  obtain ⟨hin, -, hflag, -⟩ := env_inflight step
  have hmasked := env_masked step
  refine ⟨hflag.trans flag, gone, parts.trans (congrArg (gone ++ ·) ?_), count⟩
  rw [State.wire, State.wire, hin]
  refine List.map_congr_left fun i _ => ?_
  rw [← wireShard_maskDesc, ← masked_inj_desc hmasked i, ← masked_inj_mode hmasked,
    wireShard_maskDesc]

/-- Shards in flight are not stored to. -/
theorem KeepsShards.map {lab : Ev} {u : State → State} (keeps : KeepsShards lab u)
    {slots : List Nat} (others : ∀ i ∈ slots, lab.target ≠ some i) :
    (slots.map fun i => wireShard (u s).mode ((u s).desc i)) =
      slots.map fun i => wireShard s.mode (s.desc i) := by
  refine List.map_congr_left fun i hi => ?_
  rw [(keeps s).1, (keeps s).2 i (others i hi)]

theorem Flowed.host {lab : Ev} {u : State → State} (guar : TxGuar False s lab (u s))
    (keeps : KeepsShards lab u) (flowed : Flowed before tr s) :
    Flowed before (tr ++ [(s, lab)]) (u s) := by
  obtain ⟨flag, gone, parts, count⟩ := flowed
  have fifo := guar.fifo flag
  refine ⟨guar.flag.trans flag, ?_⟩
  have other : (u s).inflight = s.inflight → lab.enqueued = none →
      (retired (tr ++ [(s, lab)])).length = (retired tr).length →
      ∃ gone, before ++ (submissions (tr ++ [(s, lab)])).flatten = gone ++ (u s).wire ∧
        gone.length = (retired (tr ++ [(s, lab)])).length := by
    intro hin none same
    refine ⟨gone, ?_, count.trans same.symm⟩
    rw [submissions_enqueueless _ none, parts, State.wire, State.wire, hin,
      keeps.map fun i hi h => fifo.notReused i h hi]
  have step := fifo.step
  cases lab with
  | moveHead i =>
      obtain ⟨-, -, hin⟩ := step
      refine ⟨gone ++ [wireShard s.mode (s.desc i)], ?_, ?_⟩
      · rw [submissions_enqueueless _ rfl, parts, State.wire, State.wire, hin, List.map_cons,
          keeps.map (fun i _ h => by cases h), List.append_assoc]
        rfl
      · rw [List.length_append, count, retired, retired, List.flatMap_append, List.length_append]
        rfl
  | moveTail t k =>
      have hin : (u s).inflight = s.inflight ++ slots s.queue.xpqNumDesc t k := step
      refine ⟨gone, ?_, ?_⟩
      · rw [submissions_snoc, List.flatten_append, ← List.append_assoc, parts, State.wire,
          State.wire, hin, keeps.map (fun i _ h => by cases h), List.map_append, List.append_assoc]
        simp [submission, Ev.enqueued]
      · rw [count, retired, retired, List.flatMap_append]
        simp
  | headBusy i => exact step.elim
  | shardBusy i => exact step.elim
  | _ => exact other step rfl (by simp [retired])

/-- **The ring carries the frames.** With the A0 flag clear, in every state of every run the
shards in flight, as the device finds them there, are those of frames the run was given,
some of them, whole and in their order, less as many as were retired. -/
theorem ring_carries_frames (size : RingSize n) (init : Initial n s₀) (flag : s₀.isA0 = false)
    (run : Reach Env (fun _ _ => True) (runXmit frames) s₀ p s tr) :
    ∃ accepted : List SkBuff, accepted.Sublist frames ∧
      s.wire = (accepted.flatMap wireShards).drop (retired tr).length := by
  obtain ⟨accepted, sub, carries⟩ := submissions_of_frames size init run
  have idle := init.idle size.pos
  have empty : s₀.wire = [] := by
    rw [State.wire, idle.base.indices.inflight size, emptyRing_inflight]
    rfl
  obtain ⟨-, gone, parts, count⟩ := (reach_unassumed run).invariant_taking
    (wp_runXmit_initial (c := False) size frames init) (runXmit_keepsShards frames)
    (Flowed.start flag)
    (fun _ _ _ step flowed => flowed.env step) fun _ _ _ _ guar keeps flowed => flowed.host guar keeps
  refine ⟨accepted, sub, ?_⟩
  rw [empty, List.nil_append] at parts
  rw [List.flatMap_def, ← carries, parts, ← count, List.drop_left]

/-- Two frames on the driver's own ring, with the first retired. -/
theorem ring_carries_frames_two_frames :
    let config := (runXmit [zeroFrame 0 1, zeroFrame 0 1]).play firstOnly
      (freshState 0 .b0Compressed xpnetTxNumDescs)
    config.2.wire.length = 1 ∧ ∃ (accepted : List SkBuff) (tr : List (State × Ev)),
      accepted.Sublist [zeroFrame 0 1, zeroFrame 0 1] ∧
        config.2.wire = (accepted.flatMap wireShards).drop (retired tr).length := by
  intro config
  have moves : ∀ f, some f ∈ firstOnly → ∀ s, Env s (f s) := by
    intro f hf s
    simp only [firstOnly, List.mem_append, List.mem_cons, List.mem_replicate] at hf
    rcases hf with ⟨-, h⟩ | h | ⟨-, h⟩
    · cases h
    · cases h
      exact env_move _ s
    · cases h
  have inflight : config.2.inflight = [1] := by decide +kernel
  obtain ⟨tr, run⟩ := Reach.of_play_free (runXmit [zeroFrame 0 1, zeroFrame 0 1])
    (freshState 0 .b0Compressed xpnetTxNumDescs) firstOnly moves
  obtain ⟨accepted, sub, wire⟩ := ring_carries_frames ringSize_txNumDescs
    (initial_freshState 0 .b0Compressed _) rfl run
  exact ⟨by rw [State.wire, List.length_map, inflight]; rfl, accepted, tr, sub, wire⟩

end Runs

end XpNet.Tx

/-
`xpnet_start_xmit` beside others who use the interfaces.

The transmit path below the interfaces does not look at them. So a call that runs while
others stop queues, count packets, open and close interfaces does to the ring what it does
without them (`runs_startXmit_beside`).
-/

import XpNet.Tx.Paths

namespace XpNet.Tx

open XpNet.Interference
open Relation (ReflTransGen)

/-- The state with these interfaces. -/
def State.withNetdev (netdev : Nat → NetDevice) (s : State) : State := { s with netdev := netdev }

section Fields

variable (nd : Nat → NetDevice) (s : State)

@[simp] theorem withNetdev_queue : (s.withNetdev nd).queue = s.queue := rfl
@[simp] theorem withNetdev_isA0 : (s.withNetdev nd).isA0 = s.isA0 := rfl
@[simp] theorem withNetdev_mode : (s.withNetdev nd).mode = s.mode := rfl
@[simp] theorem withNetdev_dmaTrigger : (s.withNetdev nd).dmaTrigger = s.dmaTrigger := rfl
@[simp] theorem withNetdev_desc (i : Nat) : (s.withNetdev nd).desc i = s.desc i := rfl

end Fields

/-! ### The path does not look at interfaces -/

section Path

variable {α : Type} {lab : Ev} {i : Nat}

theorem look_apart {g : State → TxProg α} (same : ∀ nd s, g (s.withNetdev nd) = g s)
    (rest : ∀ s, Apart State.withNetdev (g s)) :
    Apart State.withNetdev (Prog.look lab id >>= g) := ⟨fun nd s => ⟨rfl, same nd s⟩, rest⟩

theorem write_apart {u : State → State} {g : Unit → TxProg α}
    (same : ∀ nd s, u (s.withNetdev nd) = (u s).withNetdev nd)
    (rest : Apart State.withNetdev (g ())) : Apart State.withNetdev (Prog.write lab u >>= g) :=
  ⟨fun nd s => ⟨same nd s, rfl⟩, fun _ => rest⟩

theorem updDesc_apart (f : Desc → Desc) (nd : Nat → NetDevice) (s : State) :
    (s.withNetdev nd).updDesc i f = (s.updDesc i f).withNetdev nd := rfl

theorem updQueue_apart (f : Queue → Queue) (nd : Nat → NetDevice) (s : State) :
    (s.withNetdev nd).updQueue f = (s.updQueue f).withNetdev nd := rfl

theorem updStats_apart (f : Stats → Stats) (nd : Nat → NetDevice) (s : State) :
    (s.withNetdev nd).updStats f = (s.updStats f).withNetdev nd := rfl

theorem storeDesc_apart {f : Desc → Desc} {g : Unit → TxProg α}
    (rest : Apart State.withNetdev (g ())) : Apart State.withNetdev (storeDesc lab i f >>= g) :=
  write_apart (updDesc_apart f) rest

theorem bumpStats_apart {f : Stats → Stats} {g : Unit → TxProg α}
    (rest : Apart State.withNetdev (g ())) : Apart State.withNetdev (bumpStats f >>= g) :=
  write_apart (updStats_apart f) rest

theorem swapShard_apart (i : Nat) : Apart State.withNetdev (swapShard i) := by
  apply look_apart
  · intro nd s
    simp only [withNetdev_desc, withNetdev_mode]
  · intro s
    split
    · exact ⟨fun nd s => ⟨updDesc_apart _ nd s, rfl⟩, fun _ => trivial⟩
    · trivial

theorem emit_apart {g : Unit → TxProg α} (rest : Apart State.withNetdev (g ())) :
    Apart State.withNetdev (Prog.emit lab >>= g) := ⟨fun _ _ => ⟨rfl, rfl⟩, fun _ => rest⟩

theorem loadQword0_apart {g : BitVec 64 → TxProg α} (rest : ∀ q, Apart State.withNetdev (g q)) :
    Apart State.withNetdev (loadQword0 i >>= g) := ⟨fun _ _ => ⟨rfl, rfl⟩, fun _ => rest _⟩

theorem fillShard_apart (skb : SkBuff) (copied i : Nat) :
    Apart State.withNetdev (fillShard skb copied i) := by
  apply storeDesc_apart
  split
  · exact storeDesc_apart (storeDesc_apart (storeDesc_apart (swapShard_apart i)))
  · exact storeDesc_apart (swapShard_apart i)

theorem skbToShardsLoop_apart (skb : SkBuff) (n copied i idx : Nat) :
    Apart State.withNetdev (skbToShardsLoop skb n copied i idx) := by
  fun_induction skbToShardsLoop skb n copied i idx with
  | case1 copied i idx _ ih => exact (fillShard_apart skb copied i).bind fun _ => ih
  | case2 copied i idx _ => trivial

theorem checkShards_apart (n : Nat) (max : Nat) : ∀ idx,
    Apart State.withNetdev (checkShards n idx max) := by
  induction max with
  | zero => exact fun _ => trivial
  | succ max ih =>
      intro idx
      apply loadQword0_apart
      intro q
      split
      · exact emit_apart trivial
      · apply loadQword0_apart
        intro q
        split
        · exact emit_apart trivial
        · exact ih _

theorem setupShards_apart (n tail : Nat) (max : Nat) : ∀ last idx,
    Apart State.withNetdev (setupShards n tail last idx max) := by
  induction max with
  | zero => exact fun _ _ => trivial
  | succ max ih =>
      intro last idx
      apply storeDesc_apart
      apply storeDesc_apart
      split
      · exact storeDesc_apart (ih _ _)
      · exact ⟨fun _ _ => ⟨rfl, rfl⟩, fun _ => ih _ _⟩

theorem kickQueue_apart (isA0 : Bool) (tail : Nat) :
    Apart State.withNetdev (kickQueue isA0 tail) := by
  unfold kickQueue
  split
  · exact write_apart (fun _ _ => rfl) ⟨fun _ _ => ⟨rfl, rfl⟩, fun _ => trivial⟩
  · trivial

theorem handOverShards_apart (tail last shards : Nat) :
    Apart State.withNetdev (handOverShards tail last shards) := by
  apply loadQword0_apart
  intro q
  apply storeDesc_apart
  apply write_apart (updDesc_apart _)
  apply loadQword0_apart
  intro q
  apply write_apart fun _ _ => rfl
  exact ⟨fun _ _ => ⟨rfl, rfl⟩, fun s => kickQueue_apart s.isA0 tail⟩

theorem skbStatEnqueue_apart (shards : Nat) :
    Apart State.withNetdev (xpnetSkbStatEnqueue shards) := by
  apply look_apart
  · intro nd s
    simp only [withNetdev_queue]
  · intro s
    apply (checkShards_apart _ _ _).bind
    intro res
    cases res with
    | ok =>
        exact (setupShards_apart _ _ _ _ _).bind fun last =>
          (handOverShards_apart _ last _).bind fun _ => trivial
    | queueBusy => trivial
    | queueError => trivial

theorem xmitEnqueued_apart (skb : SkBuff) (tail n shards : Nat) (res : EnqueueResult) :
    Apart State.withNetdev (xmitEnqueued skb tail n shards res) := by
  cases res with
  | ok => exact emit_apart (bumpStats_apart (write_apart (fun _ _ => rfl) trivial))
  | queueBusy => trivial
  | queueError => exact bumpStats_apart trivial

theorem xmitFrame_apart (skb : SkBuff) (tail n free : Nat) :
    Apart State.withNetdev (xmitFrame skb tail n free) := by
  have copy : Apart State.withNetdev (xpnetSkbToShards skb) := by
    apply look_apart
    · intro nd s
      simp only [withNetdev_queue]
    · exact fun s => skbToShardsLoop_apart skb _ _ _ _
  apply emit_apart
  apply copy.bind
  intro shards
  have enqueue := (skbStatEnqueue_apart shards).bind fun res =>
    xmitEnqueued_apart skb tail n shards res
  split
  · exact emit_apart enqueue
  · exact enqueue

theorem txErrorDrop_apart (skb : SkBuff) : Apart State.withNetdev (txErrorDrop (some skb)) :=
  bumpStats_apart (emit_apart (bumpStats_apart trivial))

theorem xmitFrom_apart (s : State) (skb : SkBuff) :
    Apart State.withNetdev (xmitFrom s (some skb)) := by
  apply xmitFrom_cases (P := Apart State.withNetdev)
  · exact fun _ => txErrorDrop_apart skb
  · exact fun _ _ => trivial
  · intro _ _ _ _ _
    apply loadQword0_apart
    intro q
    split
    · exact emit_apart trivial
    · apply loadQword0_apart
      intro q
      split
      · trivial
      · exact xmitFrame_apart _ _ _ _

theorem hardStartXmit_apart (skb : SkBuff) :
    Apart State.withNetdev (xpnetHardStartXmit (some skb)) := by
  apply look_apart
  · intro nd s
    unfold xmitFrom
    rw [withNetdev_queue, withNetdev_isA0]
  · exact fun s => xmitFrom_apart s skb

theorem awaitOwnership_apart (head attempts : Nat) :
    Apart State.withNetdev (awaitOwnership head attempts) := by
  induction attempts with
  | zero => trivial
  | succ attempts ih =>
      apply loadQword0_apart
      intro q
      split
      · exact ih
      · trivial

theorem txCompleteLoop_apart (n tail iter : Nat) : ∀ head,
    Apart State.withNetdev (txCompleteLoop n tail head iter) := by
  induction iter with
  | zero => exact fun _ => trivial
  | succ iter ih =>
      intro head
      unfold txCompleteLoop
      dsimp only
      split
      · exact emit_apart trivial
      · apply loadQword0_apart
        intro q
        split
        · exact emit_apart trivial
        · apply (awaitOwnership_apart _ _).bind
          intro _
          apply loadQword0_apart
          intro q
          split
          · exact emit_apart trivial
          · exact write_apart (updQueue_apart _) (ih _)

theorem txComplete_apart (maxiter : Nat) : Apart State.withNetdev (xpnetTxComplete maxiter) := by
  apply look_apart
  · intro nd s
    rw [withNetdev_queue, withNetdev_isA0]
  · intro s
    apply (txCompleteLoop_apart _ _ _ _).bind
    intro _
    unfold rewindA0
    split
    · exact ⟨fun nd s => ⟨updQueue_apart _ nd s, rfl⟩, fun _ => trivial⟩
    · trivial

/-- `xpnet_start_xmit` has nothing to do with the interfaces. -/
theorem startXmit_apart (skb : SkBuff) : Apart State.withNetdev (xpnetStartXmit skb) := by
  apply look_apart
  · intro nd s
    unfold startXmitFrom
    rw [withNetdev_queue, withNetdev_dmaTrigger]
  · intro s
    unfold startXmitFrom
    split
    · exact emit_apart trivial
    · apply (hardStartXmit_apart skb).bind
      intro exit
      unfold completeAfter
      split
      · exact (txComplete_apart _).bind fun _ => trivial
      · trivial

end Path

/-! ### What a call does not write -/

/-- An action that leaves the size of the ring, the DMA engine and the headers of the
interfaces as they are. -/
def Fixes (_ : Ev) (u : State → State) : Prop :=
  ∀ s, (u s).queue.xpqNumDesc = s.queue.xpqNumDesc ∧ (u s).dmaTrigger = s.dmaTrigger ∧
    (u s).headers = s.headers

theorem fixes_id (lab : Ev) : Fixes lab id := fun _ => ⟨rfl, rfl, rfl⟩

theorem fixes_updDesc {lab : Ev} (i : Nat) (f : Desc → Desc) :
    Fixes lab fun s => s.updDesc i f := fun _ => ⟨rfl, rfl, rfl⟩

theorem fixes_arm {lab : Ev} (i : Nat) (f : Desc → Desc) :
    Fixes lab fun s => { s.updDesc i f with armed := i :: s.armed } := fun _ => ⟨rfl, rfl, rfl⟩

theorem setupShards_fixes (n t : Nat) (max : Nat) : ∀ last idx,
    Always Fixes (setupShards n t last idx max) := by
  induction max with
  | zero => exact fun _ _ => trivial
  | succ max ih =>
      intro last idx
      refine ⟨fixes_updDesc _ _, fun _ => ⟨fixes_updDesc _ _, fun _ => ?_⟩⟩
      change Always Fixes (if idx = t then _ else _ : TxProg Nat)
      split
      · exact ⟨fixes_updDesc _ _, fun _ => ih _ _⟩
      · exact ⟨fixes_arm _ _, fun _ => ih _ _⟩

theorem skbStatEnqueue_fixes (k : Nat) : Always Fixes (xpnetSkbStatEnqueue k) := by
  refine ⟨fixes_id _, fun s => (checkShards_always (fun _ => fixes_id _) (fun _ => fixes_id _)
    (fun _ => fixes_id _) _ _ _).bind fun res => ?_⟩
  have kick : ∀ isA0 t, Always Fixes (kickQueue isA0 t) := by
    intro isA0 t
    unfold kickQueue
    split
    · exact ⟨fun _ => ⟨rfl, rfl, rfl⟩, fun _ => ⟨fun _ => ⟨rfl, rfl, rfl⟩, fun _ => trivial⟩⟩
    · trivial
  have handOver : ∀ t last k, Always Fixes (handOverShards t last k) := by
    intro t last k
    exact ⟨fixes_id _, fun _ => ⟨fixes_updDesc _ _, fun _ => ⟨fixes_updDesc _ _, fun _ =>
      ⟨fixes_id _, fun _ => ⟨fixes_arm _ _, fun _ => ⟨fixes_id _, fun _ => kick _ _⟩⟩⟩⟩⟩⟩
  cases res with
  | ok =>
      exact (setupShards_fixes _ _ _ _ _).bind fun _ => (handOver _ _ _).bind fun _ => trivial
  | queueBusy => trivial
  | queueError => trivial

theorem startXmit_fixes (skb : SkBuff) : Takes Fixes (xpnetStartXmit skb) :=
  startXmit_takes fixes_id (fun _ _ => ⟨rfl, rfl, rfl⟩) (fun i _ f _ => fixes_updDesc i f)
    (fun k => (skbStatEnqueue_fixes k).takes) (fun _ _ _ _ => ⟨rfl, rfl, rfl⟩)
    (fun _ _ => ⟨rfl, rfl, rfl⟩) (fun _ => ⟨rfl, rfl, rfl⟩) skb

/-! ### A call beside others -/

/-- What the device and the users of the interfaces may do. -/
def Around (s s' : State) : Prop :=
  s'.headers = s.headers ∧ ∃ t, ReflTransGen Env s t ∧ s' = t.withNetdev s'.netdev

theorem env_withNetdev {s s' : State} (step : Env s s') (nd : Nat → NetDevice) :
    Env (s.withNetdev nd) (s'.withNetdev nd) := by
  obtain ⟨move, rfl⟩ := step
  refine ⟨move, ?_⟩
  have device : ∀ i g, (onOwned i g s).withNetdev nd = onOwned i g (s.withNetdev nd) := by
    intro i g
    unfold onOwned
    rw [apply_ite (State.withNetdev nd)]
    rfl
  cases move with
  | complete i => exact device i clearOwn
  | fault i => exact device i setError
  | memory ok => rfl

theorem Around.withNetdev {s s' : State} (around : Around s s') (nd : Nat → NetDevice) :
    ReflTransGen Env (s.withNetdev nd) (s'.withNetdev nd) := by
  obtain ⟨-, t, steps, same⟩ := around
  rw [same]
  exact steps.lift (State.withNetdev nd) fun _ _ step => env_withNetdev step nd

theorem Around.fixed {s s' : State} (around : Around s s') :
    s'.queue.xpqNumDesc = s.queue.xpqNumDesc ∧ s'.dmaTrigger = s.dmaTrigger := by
  obtain ⟨-, t, steps, same⟩ := around
  rw [same]
  change t.queue.xpqNumDesc = s.queue.xpqNumDesc ∧ t.dmaTrigger = s.dmaTrigger
  clear same
  induction steps with
  | refl => exact ⟨rfl, rfl⟩
  | tail _ step ih =>
      obtain ⟨_, _, rfl⟩ := env_bitEnv step
      exact ih

section Calls

variable {n : Nat} {s s' : State} {frames : List SkBuff} {skb : SkBuff} {exit : XmitExit}
  {tr : List (State × Ev)}

theorem Flowing.withNetdev (flowing : Flowing n frames s) (nd : Nat → NetDevice) :
    Flowing n frames (s.withNetdev nd) := by
  obtain ⟨⟨r, size, idle⟩, carries⟩ := flowing
  have base : Base r false (s.withNetdev nd) :=
    ⟨⟨idle.base.indices.numDesc, idle.base.indices.head, idle.base.indices.tail⟩,
      idle.base.flag, idle.base.linked, idle.base.fifo⟩
  exact ⟨⟨r, size, base, idle.armed⟩, carries⟩

theorem Flowing.around (flowing : Flowing n frames s) (around : Around s s') :
    Flowing n frames s' := by
  obtain ⟨-, t, steps, same⟩ := around
  rw [same]
  exact (flowing.steps steps).withNetdev _

/-- **One call** does to the ring what it does without the others. -/
theorem Flowing.beside (size : RingSize n) (flowing : Flowing n frames s)
    (run : Runs Around (xpnetStartXmit skb) s tr exit s') : Flowing n (frames ++ [skb]) s' := by
  obtain ⟨tr', alone⟩ := (startXmit_apart skb).runs (v := s.netdev)
    (fun _ _ around => around.withNetdev _) run
  exact (flowing.startXmit size alone).withNetdev s'.netdev

end Calls

end XpNet.Tx

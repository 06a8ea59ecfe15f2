/-
Which buffers the transmit path releases, and what it leaves alone while it works
on the ring.

`freed` reads off a trace the buffers it releases. Every call of
`xpnet_start_xmit` releases the buffer it was given exactly once, or answers busy
and does not release it (`startXmit_emits`).
-/

import XpNet.Interference.Track
import XpNet.Tx.Rules

namespace XpNet.Tx

open XpNet.Interference

/-- The buffer an action releases, by whether it is an expanded copy. -/
def Ev.freed : Ev → List Bool
  | .kfreeSkb expanded => [expanded]
  | _ => []

/-- The buffers a trace releases, in order. -/
def freed (tr : List (State × Ev)) : List Bool := tr.flatMap fun a => a.2.freed

/-- An update that leaves the interfaces alone. -/
def KeepsNetdev (_ : Ev) (u : State → State) : Prop := ∀ s, (u s).netdev = s.netdev

/-- What a transmit call leaves alone while it works on the ring, and the device
always. -/
structure Outside where
  netdev : Nat → NetDevice
  stats : Stats
  dmaTrigger : Nat

def State.outside (s : State) : Outside := ⟨s.netdev, s.stats, s.dmaTrigger⟩

def KeepsOutside (_ : Ev) (u : State → State) : Prop := ∀ s, (u s).outside = s.outside

theorem KeepsOutside.netdev {lab : Ev} {u : State → State} (keeps : KeepsOutside lab u) :
    KeepsNetdev lab u := fun s => congrArg Outside.netdev (keeps s)

/-- What a transmit call leaves of the queue while it enqueues a frame, and the
device always. -/
structure Front where
  status : QueueStatus
  numDesc : Nat
  head : Nat
  tail : Nat
  isA0 : Bool

def State.front (s : State) : Front :=
  ⟨s.queue.status, s.queue.xpqNumDesc, s.queue.head, s.queue.tail, s.isA0⟩

/-- An update of the descriptors, the registers or the ghost. -/
def OnDescs (_ : Ev) (u : State → State) : Prop :=
  ∀ s, (u s).outside = s.outside ∧ (u s).front = s.front

theorem OnDescs.netdev {lab : Ev} {u : State → State} (keeps : OnDescs lab u) :
    KeepsNetdev lab u := fun s => congrArg Outside.netdev (keeps s).1

/-- The action releases no buffer and works on the descriptors. -/
abbrev Inner : Ev → (State → State) → Prop := Silent OnDescs Ev.freed

/-- What a program releases when it returns, after `acc`; it changes no interface. -/
abbrev Frees {α : Type} (p : TxProg α) (acc : List Bool) (F : α → List Bool) : Prop :=
  Emits KeepsNetdev Ev.freed p acc F

/-- The program only works on the descriptors. -/
abbrev Works {α : Type} (p : TxProg α) (acc : List Bool) : Prop :=
  Emits OnDescs Ev.freed p acc fun _ => acc

theorem inner_of {lab : Ev} {u : State → State} (label : lab.freed = [])
    (keeps : ∀ s, (u s).outside = s.outside ∧ (u s).front = s.front) : Inner lab u :=
  ⟨keeps, label⟩

theorem quiet_of {lab : Ev} {u : State → State} (label : lab.freed = [])
    (keeps : ∀ s, (u s).netdev = s.netdev) : Silent KeepsNetdev Ev.freed lab u := ⟨keeps, label⟩

theorem Works.frees {α : Type} {p : TxProg α} {acc : List Bool} (works : Works p acc) :
    Frees p acc fun _ => acc := works.mono fun _ _ => OnDescs.netdev

/-- A part of the state that the work on the descriptors leaves alone. -/
def Aside {δ : Type} (part : State → δ) : Prop :=
  ∀ s t : State, t.outside = s.outside → t.front = s.front → part t = part s

theorem aside_outside : Aside State.outside := fun _ _ outside _ => outside

theorem aside_front : Aside State.front := fun _ _ _ front => front

theorem Works.tracks {α δ : Type} {p : TxProg α} {part : State → δ} {d : δ} (aside : Aside part)
    (works : Works p []) : Tracks part p d fun _ e => e = d :=
  Emits.tracks (Emits.mono (fun _ _ keeps s => aside _ _ (keeps s).1 (keeps s).2) works)

/-- A run that only works on the descriptors. -/
theorem runs_works {α : Type} {p : TxProg α} {rely : State → State → Prop} {s s' : State}
    {tr : List (State × Ev)} {a : α} (works : Works p [])
    (env : ∀ s s', rely s s' → s'.outside = s.outside) (run : Runs rely p s tr a s') :
    s'.outside = s.outside :=
  run.tracks env (works.tracks aside_outside)

section Programs

variable {acc : List Bool}

theorem swapShard_works (i : Nat) : Works (swapShard i) acc := by
  refine .silent (inner_of rfl fun _ => ⟨rfl, rfl⟩) fun s => ?_
  simp only [Prog.bind, id]
  split
  · exact .silent (inner_of rfl fun _ => ⟨rfl, rfl⟩) fun _ => rfl
  · trivial

theorem fillShard_works (skb : SkBuff) (copied i : Nat) : Works (fillShard skb copied i) acc := by
  have copy : Works (storeDesc
      (.memcpy i ((skb.data.drop copied).take (bytesToCopy skb.len copied))) i
      (fun d => setVa (memcpy d.bufSta.va
        ((skb.data.drop copied).take (bytesToCopy skb.len copied))) d) >>= fun _ => swapShard i)
      acc :=
    .silent (inner_of rfl fun _ => ⟨rfl, rfl⟩) fun _ => swapShard_works i
  refine .silent (inner_of rfl fun _ => ⟨rfl, rfl⟩) fun _ => ?_
  by_cases hshort : skb.len < 128
  · simp only [hshort, if_true]
    exact .silent (inner_of rfl fun _ => ⟨rfl, rfl⟩) fun _ =>
      .silent (inner_of rfl fun _ => ⟨rfl, rfl⟩) fun _ => copy
  · simp only [hshort, if_false]
    exact copy

theorem skbToShardsLoop_works (skb : SkBuff) (n copied i idx : Nat) :
    Works (skbToShardsLoop skb n copied i idx) acc := by
  fun_induction skbToShardsLoop skb n copied i idx with
  | case1 copied i idx _ ih => exact (fillShard_works skb copied i).bind fun _ => ih
  | case2 copied i idx _ => rfl

theorem skbToShards_works (skb : SkBuff) : Works (xpnetSkbToShards skb) acc :=
  .silent (inner_of rfl fun _ => ⟨rfl, rfl⟩) fun _ => skbToShardsLoop_works skb _ _ _ _

theorem setupShards_inner (numDesc tail : Nat) :
    ∀ last idx max, Always Inner (setupShards numDesc tail last idx max)
  | _, _, 0 => trivial
  | last, idx, max + 1 => by
      refine ⟨inner_of rfl fun _ => ⟨rfl, rfl⟩, fun _ => ⟨inner_of rfl fun _ => ⟨rfl, rfl⟩, fun _ => ?_⟩⟩
      by_cases h : idx = tail
      · simp only [h, if_true]
        exact ⟨inner_of rfl fun _ => ⟨rfl, rfl⟩, fun _ => setupShards_inner numDesc tail _ _ max⟩
      · simp only [h, if_false]
        exact ⟨inner_of rfl fun _ => ⟨rfl, rfl⟩, fun _ => setupShards_inner numDesc tail _ _ max⟩

theorem handOverShards_inner (tail last shards : Nat) :
    Always Inner (handOverShards tail last shards) := by
  have kick : ∀ isA0, Always Inner (kickQueue isA0 tail) := by
    intro isA0
    cases isA0 with
    | false => trivial
    | true => exact ⟨inner_of rfl fun _ => ⟨rfl, rfl⟩, fun _ => ⟨inner_of rfl fun _ => ⟨rfl, rfl⟩, fun _ => trivial⟩⟩
  exact ⟨inner_of rfl fun _ => ⟨rfl, rfl⟩, fun _ => ⟨inner_of rfl fun _ => ⟨rfl, rfl⟩, fun _ =>
    ⟨inner_of rfl fun _ => ⟨rfl, rfl⟩, fun _ => ⟨inner_of rfl fun _ => ⟨rfl, rfl⟩, fun _ =>
    ⟨inner_of rfl fun _ => ⟨rfl, rfl⟩, fun _ => ⟨inner_of rfl fun _ => ⟨rfl, rfl⟩, fun _ => kick _⟩⟩⟩⟩⟩⟩

theorem checkShards_inner (numDesc idx max : Nat) : Always Inner (checkShards numDesc idx max) :=
  checkShards_always (fun _ => inner_of rfl fun _ => ⟨rfl, rfl⟩)
    (fun _ => inner_of rfl fun _ => ⟨rfl, rfl⟩) (fun _ => inner_of rfl fun _ => ⟨rfl, rfl⟩) _ _ _

theorem skbStatEnqueue_inner (shards : Nat) : Always Inner (xpnetSkbStatEnqueue shards) := by
  refine ⟨inner_of rfl fun _ => ⟨rfl, rfl⟩, fun s => (checkShards_inner _ _ _).bind fun res => ?_⟩
  cases res with
  | ok => exact (setupShards_inner _ _ _ _ _).bind fun last =>
      (handOverShards_inner _ _ _).bind fun _ => trivial
  | queueBusy => trivial
  | queueError => trivial

theorem txComplete_quiet (maxiter : Nat) :
    Always (Silent KeepsOutside Ev.freed) (xpnetTxComplete maxiter) :=
  txComplete_always
    (fun lab looks => ⟨fun _ => rfl, by cases lab <;> first | rfl | exact looks.elim⟩)
    (fun _ => ⟨fun _ => rfl, rfl⟩) ⟨fun _ => rfl, rfl⟩ maxiter

theorem txComplete_tracks (maxiter : Nat) {d : Outside} :
    Tracks State.outside (xpnetTxComplete maxiter) d fun _ e => e = d := by
  have quiet : Emits KeepsOutside Ev.freed (xpnetTxComplete maxiter) [] fun _ => [] :=
    (txComplete_quiet maxiter).emits
  exact Emits.tracks quiet

section Walk

variable {δ : Type} {part : State → δ} {d : δ} {F : XmitExit → δ → Prop} {skb : SkBuff}

/-- A part that only the outcome of `xpnet_skb_stat_enqueue` can change. -/
theorem xmitFrame_tracks (aside : Aside part) {tail n : Nat}
    (enqueued : ∀ shards res, Tracks part (xmitEnqueued skb tail n shards res) d F) (free : Nat) :
    Tracks part (xmitFrame skb tail n free) d F := by
  have enqueue : ∀ shards, Tracks part (xpnetSkbStatEnqueue shards >>=
      xmitEnqueued skb tail n shards) d F := by
    intro shards
    have works : Works (xpnetSkbStatEnqueue shards) [] := (skbStatEnqueue_inner shards).emits
    refine (works.tracks aside).bind ?_
    rintro res e rfl
    exact enqueued shards res
  refine .act (fun _ => aside _ _ rfl rfl) fun _ _ =>
    ((skbToShards_works skb).tracks aside).bind ?_
  rintro shards e rfl
  by_cases hmore : asInt shards > asInt free
  · simp only [hmore, if_true]
    exact .act (fun _ => aside _ _ rfl rfl) fun _ _ => enqueue shards
  · simp only [hmore, if_false]
    exact enqueue shards

theorem xmitChecked_tracks (aside : Aside part) {tail n : Nat}
    (enqueued : ∀ shards res, Tracks part (xmitEnqueued skb tail n shards res) d F)
    (busy : F .txbusy d) (isA0 : Bool) (free : Nat) :
    Tracks part (xmitChecked isA0 skb tail n free) d F := by
  refine .act (fun _ => aside _ _ rfl rfl) fun s _ => ?_
  change Tracks _ (if ownership _ then _ else _) _ _
  split
  · exact .act (fun _ => aside _ _ rfl rfl) fun _ _ => busy
  · refine .act (fun _ => aside _ _ rfl rfl) fun t _ => ?_
    change Tracks _ (if errorIndication _ then _ else _) _ _
    split
    · exact busy
    · exact xmitFrame_tracks aside enqueued free

theorem hardStartXmit_tracks (aside : Aside part)
    (enqueued : ∀ tail n shards res, Tracks part (xmitEnqueued skb tail n shards res) d F)
    (busy : F .txbusy d) (dropped : Tracks part (txErrorDrop (some skb)) d F) :
    Tracks part (xpnetHardStartXmit (some skb)) d F := by
  refine .act (fun _ => aside _ _ rfl rfl) fun s _ => ?_
  exact xmitFrom_cases (P := fun p => Tracks part p d F) (fun _ => dropped) (fun _ _ => busy)
    fun _ _ _ _ _ => xmitChecked_tracks aside (enqueued _ _) busy s.isA0 _

end Walk

/-- What is released of a buffer when a call ends with `exit`. -/
def releasedBy (skb : SkBuff) (exit : XmitExit) : List Bool :=
  if exit.rc = .busy then [] else [skb.expanded]

theorem retTxdrop_frees (skb : SkBuff) : Frees (retTxdrop (some skb)) [] (releasedBy skb) :=
  ⟨fun _ => rfl, fun _ => .silent (quiet_of rfl fun _ => rfl) fun _ => rfl⟩

theorem txErrorDrop_frees (skb : SkBuff) : Frees (txErrorDrop (some skb)) [] (releasedBy skb) :=
  .silent (quiet_of rfl fun _ => rfl) fun _ => retTxdrop_frees skb

theorem xmitEnqueued_frees (skb : SkBuff) (tail n shards : Nat) (res : EnqueueResult) :
    Frees (xmitEnqueued skb tail n shards res) [] (releasedBy skb) := by
  cases res with
  | ok => exact ⟨fun _ => rfl, fun _ => .silent (quiet_of rfl fun _ => rfl) fun _ =>
      .silent (quiet_of rfl fun _ => rfl) fun _ => rfl⟩
  | queueBusy => rfl
  | queueError => exact .silent (quiet_of rfl fun _ => rfl) fun _ => rfl

theorem xmitFrame_frees (skb : SkBuff) (tail n free : Nat) :
    Frees (xmitFrame skb tail n free) [] (releasedBy skb) := by
  have enqueue : ∀ shards, Frees (xpnetSkbStatEnqueue shards >>=
      xmitEnqueued skb tail n shards) [] (releasedBy skb) :=
    fun shards => (Works.frees (skbStatEnqueue_inner shards).emits).bind fun res =>
      xmitEnqueued_frees skb tail n shards res
  refine .silent (quiet_of rfl fun _ => rfl) fun _ =>
    (skbToShards_works skb).frees.bind fun shards => ?_
  by_cases hmore : asInt shards > asInt free
  · simp only [hmore, if_true]
    exact .silent (quiet_of rfl fun _ => rfl) fun _ => enqueue shards
  · simp only [hmore, if_false]
    exact enqueue shards

theorem xmitChecked_frees (isA0 : Bool) (skb : SkBuff) (tail n free : Nat) :
    Frees (xmitChecked isA0 skb tail n free) [] (releasedBy skb) := by
  refine .silent (quiet_of rfl fun _ => rfl) fun s => ?_
  change Frees (if ownership _ then _ else _) _ _
  split
  · exact .silent (quiet_of rfl fun _ => rfl) fun _ => rfl
  · refine .silent (quiet_of rfl fun _ => rfl) fun t => ?_
    change Frees (if errorIndication _ then _ else _) _ _
    split
    · rfl
    · exact xmitFrame_frees skb tail n free

theorem hardStartXmit_frees (skb : SkBuff) :
    Frees (xpnetHardStartXmit (some skb)) [] (releasedBy skb) := by
  refine .silent (quiet_of rfl fun _ => rfl) fun s => ?_
  exact xmitFrom_cases (P := fun p => Frees p [] (releasedBy skb)) (fun _ => txErrorDrop_frees skb)
    (fun _ _ => rfl) fun _ _ _ _ _ => xmitChecked_frees _ skb _ _ _

/-- **`xpnet_start_xmit`** releases its buffer once, or answers busy. -/
theorem startXmit_frees (skb : SkBuff) : Frees (xpnetStartXmit skb) [] (releasedBy skb) := by
  refine .silent (quiet_of rfl fun _ => rfl) fun s => ?_
  change Frees (startXmitFrom s skb) _ _
  unfold startXmitFrom
  split
  · exact ⟨fun _ => rfl, fun _ => rfl⟩
  · refine (hardStartXmit_frees skb).bind fun exit => ?_
    unfold completeAfter
    split
    · exact ((txComplete_quiet _).emits.mono fun _ _ => KeepsOutside.netdev).bind fun _ => rfl
    · rfl

end Programs

end XpNet.Tx

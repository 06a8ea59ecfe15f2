/-
What every action of the transmit path guarantees, under any behaviour of the
device: it clears ownership bits and sets error bits of descriptors it owns, at
any time and in any order.

`TxGuar` has three parts.

* `StoreOk`: the action stores to a descriptor the device owns only to set up a
  shard of the frame at hand whose SOP descriptor is not handed over yet.
* `ChainOk`: when the SOP descriptor is handed over, the device's walk from it
  visits the frame's shards exactly under the condition of `follow_frame_iff`.
* `FifoOk`: elsewhere than on A0 the ring is a first-in first-out queue whose
  free part the host owns.

The first part needs that the copy of a frame starts on free descriptors. That
is the assumption `CopyOnFree`, which `FifoOk` makes unnecessary elsewhere than
on A0. The file walks through one transmit call, phase by phase: the copy
(`Copying`), the setup of the descriptors (`Setup`), the frame with its EOP set
(`Ready`), and the frame handed over (`Base`).
-/

import XpNet.Tx.Chain
import XpNet.Tx.Indices

namespace XpNet.Tx

open XpNet.Interference

/-! ### Views of the ring -/

/-- The slots between `head` and `tail`, oldest first. -/
def State.inflight (s : State) : List Nat :=
  slots s.queue.xpqNumDesc (xpnetAddAndWrap s.queue.head 1 s.queue.xpqNumDesc)
    (xpnetGetBusyDesc s.queue.xpqNumDesc s.queue.head s.queue.tail)

/-- The slots from `tail` forward through `head`. -/
def State.freeRegion (s : State) : List Nat :=
  slots s.queue.xpqNumDesc s.queue.tail
    (s.queue.xpqNumDesc - xpnetGetBusyDesc s.queue.xpqNumDesc s.queue.head s.queue.tail)

theorem At.inflight {r : Ring} {s : State} (h : At r s) (size : RingSize r.size) :
    s.inflight = r.inflight := by
  unfold State.inflight Ring.inflight
  rw [h.busy size, h.numDesc, h.head,
    xpnetAddAndWrap_eq size (Nat.le_of_lt r.head_lt) size.pos]

theorem At.freeRegion {r : Ring} {s : State} (h : At r s) (size : RingSize r.size) :
    s.freeRegion = r.freeRegion := by
  unfold State.freeRegion Ring.freeRegion
  rw [h.busy size, h.numDesc, h.tail]

/-! ### The guarantee -/

/-- The slots of a frame of `len` bytes from `t` on are the host's. -/
def FreeAt (s : State) (t len : Nat) : Prop :=
  ∀ i ∈ slots s.queue.xpqNumDesc t (shardCount len), s.owned i = false

/-- The assumption that a frame is copied to free descriptors only, if `c`. -/
def CopyOnFree (c : Prop) (s : State) (lab : Ev) : Prop :=
  c → ∀ t len, lab = .beginCopy t len → FreeAt s t len

def StoreOk (s : State) (lab : Ev) : Prop :=
  ∀ i, lab.target = some i → s.owned i = true → i ∈ s.armed ∧ s.queue.tail ∉ s.armed

def ChainOk (s : State) (lab : Ev) (s' : State) : Prop :=
  ∀ t k, lab = .handOver t k → t = s.queue.tail ∧
    (s'.queue.follow s'.queue.xpqNumDesc t = (slots s'.queue.xpqNumDesc t k, true) ↔
      k = 1 ∨ (s.isA0 = false ∧ t + k ≤ s'.queue.xpqNumDesc))

/-- Every free slot the device owns is a shard of the frame being enqueued. -/
def HostFree (s : State) : Prop := ∀ i ∈ s.freeRegion, s.owned i = true → i ∈ s.armed

/-- What an action does to the queue of slots in flight. -/
def FifoStep (s : State) (lab : Ev) (s' : State) : Prop :=
  match lab with
  | .headBusy _ | .shardBusy _ => False
  | .moveHead i => s.owned i = false ∧ s'.queue.head = i ∧ s.inflight = i :: s'.inflight
  | .moveTail t k => s'.inflight = s.inflight ++ slots s.queue.xpqNumDesc t k
  | _ => s'.inflight = s.inflight

structure FifoOk (s : State) (lab : Ev) (s' : State) : Prop where
  hostFree : HostFree s'
  notReused : ∀ i, lab.target = some i → i ∉ s.inflight
  step : FifoStep s lab s'

structure TxGuar (c : Prop) (s : State) (lab : Ev) (s' : State) : Prop where
  flag : s'.isA0 = s.isA0
  store : c ∨ s.isA0 = false → StoreOk s lab
  chain : ChainOk s lab s'
  fifo : s.isA0 = false → FifoOk s lab s'

/-! ### What the environment keeps -/

theorem onOwned_desc (s : State) (i j : Nat) {g : BitVec 64 → BitVec 64}
    (own : ∀ q, ownership (g q) = true → ownership q = true) (end_ : ∀ q, eop (g q) = eop q) :
    ∃ q, (onOwned j g s).desc i = setQword0 q (s.desc i) ∧
      (ownership q = true → ownership (s.desc i).qword0 = true) ∧
      eop q = eop (s.desc i).qword0 := by
  unfold onOwned
  split
  · by_cases hj : i = j
    · subst hj
      exact ⟨_, updDesc_self _ _ _, own _, end_ _⟩
    · exact ⟨_, updDesc_of_ne _ _ hj, id, rfl⟩
  · exact ⟨_, rfl, id, rfl⟩

/-- One move of the environment, on one descriptor. -/
theorem env_desc {s s' : State} (h : Env s s') (i : Nat) : ∃ q,
    s'.desc i = setQword0 q (s.desc i) ∧
      (ownership q = true → ownership (s.desc i).qword0 = true) ∧
      eop q = eop (s.desc i).qword0 := by
  obtain ⟨m, rfl⟩ := h
  cases m with
  | complete j => exact onOwned_desc s i j (by simp) (by simp)
  | fault j => exact onOwned_desc s i j (by simp) (by simp)
  | memory ok => exact ⟨_, rfl, id, rfl⟩

theorem onOwned_rest (i : Nat) (g : BitVec 64 → BitVec 64) (s : State) :
    { s with
      allocOk := (onOwned i g s).allocOk
      queue := { s.queue with descMeta := (onOwned i g s).desc } } = onOwned i g s := by
  unfold onOwned
  split <;> rfl

/-- A move of the environment is one that `BitEnv` allows. -/
theorem env_bitEnv {s s' : State} (h : Env s s') : BitEnv s s' := by
  have hdesc : s'.desc = fun i => { s.desc i with qword0 := (s'.desc i).qword0 } := by
    funext i
    obtain ⟨q, hq, -⟩ := env_desc h i
    rw [hq]
    rfl
  refine ⟨fun i => (s'.desc i).qword0, s'.allocOk, ?_⟩
  rw [← hdesc]
  obtain ⟨m, rfl⟩ := h
  cases m with
  | complete j => exact (onOwned_rest j clearOwn s).symm
  | fault j => exact (onOwned_rest j setError s).symm
  | memory ok => rfl

theorem env_keepsBuffers : KeepsBuffers Env :=
  fun s s' i h => bitEnv_keepsBuffers s s' i (env_bitEnv h)

theorem env_stable_free (i : Nat) : Stable Env fun s => s.owned i = false := by
  intro s s' h holds
  obtain ⟨q, hq, hown, -⟩ := env_desc h i
  simp only [State.owned, hq, setQword0] at holds ⊢
  simpa [holds] using hown

theorem env_stable_eop (i : Nat) (b : Bool) : Stable Env fun s => eop (s.desc i).qword0 = b := by
  intro s s' h holds
  obtain ⟨q, hq, -, heop⟩ := env_desc h i
  rw [hq]
  exact heop.trans holds

theorem env_stable_armed (P : List Nat → Prop) : Stable Env fun s => P s.armed := by
  intro s s' h holds
  obtain ⟨_, _, rfl⟩ := env_bitEnv h
  exact holds

/-! ### Between the phases -/

/-- What holds at every point of a call whose ring is `r`. -/
structure Base (r : Ring) (a0 : Bool) (s : State) : Prop where
  indices : At r s
  flag : s.isA0 = a0
  linked : Linked a0 s.queue
  fifo : a0 = false → ∀ i ∈ r.freeRegion, s.owned i = true → i ∈ s.armed

theorem env_stable_base (r : Ring) (a0 : Bool) : Stable Env (Base r a0) := by
  intro s s' h base
  have hdesc := env_desc h
  obtain ⟨_, _, hs⟩ := env_bitEnv h
  refine ⟨bitEnv_stable_at r s s' (env_bitEnv h) base.indices, ?_, ?_, fun ha i hi hown => ?_⟩
  · rw [hs]
    exact base.flag
  · rw [hs]
    exact base.linked
  · have harmed : s'.armed = s.armed := by rw [hs]
    rw [harmed]
    refine base.fifo ha i hi ?_
    by_contra hfree
    have := env_stable_free i s s' h (by simpa using hfree)
    rw [this] at hown
    cases hown

/-- An update of descriptor `i` that keeps its address and link, and sets its
ownership bit only when the slot is listed as armed. -/
theorem Base.upd {r : Ring} {a0 : Bool} {s : State} (base : Base r a0 s) (i : Nat) {f : Desc → Desc}
    (arm : List Nat) (keeps : ∀ d, (f d).cdp = d.cdp ∧ (f d).qword3 = d.qword3)
    (sub : ∀ x ∈ s.armed, x ∈ arm)
    (own : ownership (f (s.desc i)).qword0 = true → s.owned i = true ∨ i ∈ arm) :
    Base r a0 { s.updDesc i f with armed := arm } where
  indices := ⟨base.indices.numDesc, base.indices.head, base.indices.tail⟩
  flag := base.flag
  linked := by
    intro j hj
    have hlink := base.linked j hj
    by_cases hji : j = i
    · subst hji
      have hupd : ({ s.updDesc j f with armed := arm } : State).queue.descMeta j = f (s.desc j) :=
        updDesc_self s j f
      rw [hupd, (keeps _).1, (keeps _).2]
      exact hlink
    · have hupd : ({ s.updDesc i f with armed := arm } : State).queue.descMeta j = s.desc j :=
        updDesc_of_ne s f hji
      rw [hupd]
      exact hlink
  fifo := by
    intro ha j hj hown
    by_cases hji : j = i
    · subst hji
      have hupd : ({ s.updDesc j f with armed := arm } : State).desc j = f (s.desc j) :=
        updDesc_self s j f
      rw [State.owned, hupd] at hown
      rcases own hown with h | h
      · exact sub _ (base.fifo ha j hj h)
      · exact h
    · have hupd : ({ s.updDesc i f with armed := arm } : State).desc j = s.desc j :=
        updDesc_of_ne s f hji
      rw [State.owned, hupd] at hown
      exact sub _ (base.fifo ha j hj hown)

/-- The same, for an update that leaves `qword[0]` alone. -/
theorem Base.upd_quiet {r : Ring} {a0 : Bool} {s : State} (base : Base r a0 s) (i : Nat)
    {f : Desc → Desc} (keeps : ∀ d, (f d).cdp = d.cdp ∧ (f d).qword3 = d.qword3)
    (qword0 : ∀ d, (f d).qword0 = d.qword0) : Base r a0 (s.updDesc i f) :=
  base.upd i s.armed keeps (fun _ h => h) fun h => .inl (by rwa [qword0] at h)

section Guarantee

variable {r : Ring} {a0 : Bool} {c : Prop} {s s' : State} {lab : Ev}

/-- The labels `FifoStep` and `ChainOk` say nothing particular about. -/
def Ev.ordinary : Ev → Prop
  | .headBusy _ | .shardBusy _ | .moveHead _ | .moveTail _ _ | .handOver _ _ => False
  | _ => True

theorem fifoStep_ordinary (h : lab.ordinary) (same : s'.inflight = s.inflight) :
    FifoStep s lab s' := by
  cases lab <;> first | exact same | exact h.elim

theorem Base.fifoOk (size : RingSize r.size) (base : Base r a0 s) (base' : Base r a0 s')
    (ha : a0 = false) (step : s'.inflight = s.inflight → FifoStep s lab s')
    (target : ∀ i, lab.target = some i → i ∈ r.freeRegion) : FifoOk s lab s' where
  hostFree := fun i hi => base'.fifo ha i (by rwa [← base'.indices.freeRegion size])
  notReused := fun i hi => by
    rw [base.indices.inflight size]
    exact r.not_inflight_of_free (target i hi)
  step := step (by rw [base.indices.inflight size, base'.indices.inflight size])

/-- An ordinary action within one ring. -/
theorem Base.guar (size : RingSize r.size) (base : Base r a0 s) (base' : Base r a0 s')
    (h : lab.ordinary)
    (target : ∀ i, lab.target = some i → i ∈ r.freeRegion ∧
      (c ∨ a0 = false → s.owned i = true → i ∈ s.armed ∧ r.tail ∉ s.armed)) :
    TxGuar c s lab s' where
  flag := base'.flag.trans base.flag.symm
  store := fun hc i hi hown => by
    rw [base.indices.tail]
    exact (target i hi).2 (base.flag ▸ hc) hown
  chain := fun t k hlab => by
    subst hlab
    exact h.elim
  fifo := fun ha => base.fifoOk size base' (base.flag ▸ ha) (fifoStep_ordinary h) fun i hi =>
    (target i hi).1

/-- An ordinary action that stores to no descriptor. -/
theorem Base.guar_none (size : RingSize r.size) (base : Base r a0 s) (base' : Base r a0 s')
    (h : lab.ordinary) (none : lab.target = none) : TxGuar c s lab s' :=
  base.guar size base' h fun i hi => by rw [none] at hi; cases hi

end Guarantee

end XpNet.Tx

/-
The queues of `xp_netdev.h`, which the transmit and the receive side share: the
descriptors in memory the device reads and writes, what the driver keeps beside
them, and how `xpnet_queue_desc_link` chains them.
-/

import XpNet.Common

namespace XpNet

/-! ### Structures -/

/-- `xpnet_shards_struct_t`. -/
structure Shard where
  va : Image
  dma : Nat
  len : Nat

/-- `xpnet_desc_struct_t`, with the descriptor its `va` points to. -/
structure Desc where
  numShards : Nat
  cdp : Nat
  bufSta : Shard
  qword0 : BitVec 64
  qword1 : Nat
  qword2 : Nat
  qword3 : Nat

/-- `xpnet_queue_struct_t`. -/
structure Queue where
  xpqNumDesc : Nat
  status : QueueStatus
  tail : Nat
  head : Nat
  dma : Nat
  descMeta : Nat → Desc

/-- The words of a descriptor are counted from 0 to 3. -/
instance neZero_four : NeZero 4 := ⟨by decide⟩

def setQword0 (q : BitVec 64) (d : Desc) : Desc := { d with qword0 := q }
def setLen (len : Nat) (d : Desc) : Desc := { d with bufSta := { d.bufSta with len := len } }
def setVa (va : Image) (d : Desc) : Desc := { d with bufSta := { d.bufSta with va := va } }

/-- The bytes a reader of the descriptor gets when it undoes the byte swap. -/
def Desc.bytes (mode : AddressMode) (d : Desc) : List UInt8 := wireBytes d.bufSta.va d.qword1 mode

/-! ### Links -/

/-- `xpnet_queue_desc_link(q, circular)`: link every descriptor to the next. -/
def xpnetQueueDescLink (q : Queue) (circular : Bool) : Queue :=
  let linked (i : Nat) : Desc :=
    { q.descMeta i with qword3 := (q.descMeta ((i + 1) % q.xpqNumDesc)).cdp }
  let chain : Nat → Desc := fun i => if i < q.xpqNumDesc then linked i else q.descMeta i
  { q with
    descMeta :=
      if circular then chain
      else Function.update chain (q.xpqNumDesc - 1)
        { chain (q.xpqNumDesc - 1) with qword3 := 0 } }

/-- The descriptor at a DMA address. -/
def Queue.descAt (q : Queue) (addr : Nat) : Option Nat :=
  (List.range q.xpqNumDesc).find? fun i => (q.descMeta i).cdp == addr

/-- Every descriptor has its place in the array, and each but the last is linked to
the next; on A0 the transmit side links none. -/
def Linked (a0 : Bool) (q : Queue) : Prop :=
  ∀ i < q.xpqNumDesc, (q.descMeta i).cdp = q.dma + i * xpnetDescSize ∧
    (q.descMeta i).qword3 =
      if a0 = false ∧ i + 1 < q.xpqNumDesc then q.dma + (i + 1) * xpnetDescSize else 0

/-- `xpnet_queue_desc_link(q, false)` makes an open chain. -/
theorem linked_queueDescLink {q : Queue} (pos : 0 < q.xpqNumDesc)
    (cdp : ∀ i < q.xpqNumDesc, (q.descMeta i).cdp = q.dma + i * xpnetDescSize) :
    Linked false (xpnetQueueDescLink q false) := by
  intro i hi
  have hi' : i < q.xpqNumDesc := hi
  have hmod : ∀ j, j < q.xpqNumDesc → j % q.xpqNumDesc = j := fun _ => Nat.mod_eq_of_lt
  simp only [xpnetQueueDescLink, Bool.false_eq_true, if_false, true_and]
  by_cases hlast : i = q.xpqNumDesc - 1
  · subst hlast
    simp [hi', cdp _ hi', show ¬ q.xpqNumDesc - 1 + 1 < q.xpqNumDesc by omega]
  · have hnext : i + 1 < q.xpqNumDesc := by omega
    simp [hlast, hi', hnext, cdp _ hi', cdp _ hnext, hmod _ hnext]

/-- Linking leaves `qword[0]` alone. -/
theorem queueDescLink_qword0 (q : Queue) (circular : Bool) (i : Nat) :
    ((xpnetQueueDescLink q circular).descMeta i).qword0 = (q.descMeta i).qword0 := by
  have hchain : ∀ j, (if j < q.xpqNumDesc then
      { q.descMeta j with qword3 := (q.descMeta ((j + 1) % q.xpqNumDesc)).cdp }
      else q.descMeta j).qword0 = (q.descMeta j).qword0 := by
    intro j
    split
    · rfl
    · rfl
  cases circular with
  | true =>
    simp only [xpnetQueueDescLink, if_true]
    exact hchain i
  | false =>
    simp only [xpnetQueueDescLink, Bool.false_eq_true, if_false]
    by_cases hlast : i = q.xpqNumDesc - 1
    · subst hlast
      rw [Function.update_self]
      exact hchain _
    · rw [Function.update_of_ne hlast]
      exact hchain i

/-- Every descriptor is found at its own address. -/
theorem Linked.descAt {q : Queue} {a0 : Bool} (linked : Linked a0 q) {i : Nat}
    (hi : i < q.xpqNumDesc) :
    q.descAt (q.dma + i * xpnetDescSize) = some i := by
  unfold Queue.descAt
  rw [List.find?_eq_some_iff_getElem]
  refine ⟨by simp [(linked i hi).1], i, by simpa using hi, by simp, fun j hj => ?_⟩
  have hne : q.dma + j * xpnetDescSize ≠ q.dma + i * xpnetDescSize := by
    simp only [xpnetDescSize]
    omega
  simp only [List.getElem_range, (linked j (by omega)).1]
  simpa using hne

end XpNet

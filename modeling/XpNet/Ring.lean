/-
Rings of slots with a consumer index and a producer index.

`slots n t k` are the `k` slots of an `n`-slot ring that start at `t`, in ring
order. A `Ring` is a ring with its two indices in range: `head` is the slot the
consumer finished last, `tail` the slot the producer fills next, and one slot
is kept free so that an empty ring and a full one differ. What lies between
`head` and `tail` is `inflight`, a first-in first-out queue of slots:

* `Ring.inflight_push`: filling `k` free slots appends them to the queue.
* `Ring.inflight_pop`: finishing a slot removes the oldest one.
* `Ring.mem_inflight_or_free`, `Ring.not_inflight_of_free`: every slot is in
  flight or in the free region, and never both.
-/

import Mathlib.Data.List.Nodup
import Mathlib.Data.List.Range

namespace XpNet

/-- The `j`-th slot from `t` in a ring of `n` slots. -/
def slot (n t j : Nat) : Nat := (t + j) % n

/-- The `k` slots of an `n`-slot ring from `t` on, in ring order. -/
def slots (n t k : Nat) : List Nat := (List.range k).map (slot n t)

section Slots

variable {n t j k : Nat}

theorem slot_lt (hn : 0 < n) (t j : Nat) : slot n t j < n := Nat.mod_lt _ hn

@[simp] theorem slot_zero (ht : t < n) : slot n t 0 = t := Nat.mod_eq_of_lt ht

/-- Less than one turn from an index in range, a slot is reached with at most
one wrap. -/
theorem slot_eq (ht : t < n) (hj : j ≤ n) : slot n t j = if t + j < n then t + j else t + j - n := by
  unfold slot
  split
  · rename_i h
    exact Nat.mod_eq_of_lt h
  · rename_i h
    rw [Nat.mod_eq_sub_mod (Nat.le_of_not_lt h), Nat.mod_eq_of_lt (by omega)]

theorem slot_slot (n t i j : Nat) : slot n (slot n t i) j = slot n t (i + j) := by
  simp [slot, Nat.add_assoc]

/-- Within one turn, distinct offsets are distinct slots. -/
theorem slot_inj {i j : Nat} (ht : t < n) (hi : i < n) (hj : j < n)
    (h : slot n t i = slot n t j) : i = j := by
  rw [slot_eq ht (Nat.le_of_lt hi), slot_eq ht (Nat.le_of_lt hj)] at h
  split at h <;> split at h <;> omega

/-- Every slot is reached from every index. -/
theorem exists_slot {i : Nat} (ht : t < n) (hi : i < n) : ∃ j < n, slot n t j = i := by
  by_cases h : t ≤ i
  · refine ⟨i - t, by omega, ?_⟩
    rw [slot_eq ht (by omega), if_pos (by omega)]
    omega
  · refine ⟨i + n - t, by omega, ?_⟩
    rw [slot_eq ht (by omega), if_neg (by omega)]
    omega

@[simp] theorem slots_zero (n t : Nat) : slots n t 0 = [] := rfl

@[simp] theorem length_slots (n t k : Nat) : (slots n t k).length = k := by simp [slots]

theorem mem_slots {i : Nat} : i ∈ slots n t k ↔ ∃ j < k, slot n t j = i := by simp [slots]

theorem slots_add (n t j k : Nat) : slots n t (j + k) = slots n t j ++ slots n (slot n t j) k := by
  simp only [slots, List.range_add, List.map_append, List.map_map]
  congr 1
  exact List.map_congr_left fun i _ => (slot_slot n t j i).symm

theorem slots_succ (n t k : Nat) : slots n t (k + 1) = slot n t 0 :: slots n (slot n t 1) k := by
  rw [Nat.add_comm k 1, slots_add]
  rfl

theorem nodup_slots (ht : t < n) (hk : k ≤ n) : (slots n t k).Nodup := by
  refine List.Nodup.map_on (fun i hi j hj h => ?_) List.nodup_range
  exact slot_inj ht (Nat.lt_of_lt_of_le (List.mem_range.mp hi) hk)
    (Nat.lt_of_lt_of_le (List.mem_range.mp hj) hk) h

theorem slot_not_mem_slots (ht : t < n) (hj : j < n) (hk : k ≤ j) : slot n t j ∉ slots n t k := by
  intro h
  obtain ⟨i, hi, eq⟩ := mem_slots.mp h
  have := slot_inj ht (by omega) hj eq
  omega

end Slots

/-- A ring whose indices are in range. -/
structure Ring where
  size : Nat
  head : Nat
  tail : Nat
  head_lt : head < size
  tail_lt : tail < size

namespace Ring

variable (r : Ring)

theorem size_pos : 0 < r.size := Nat.zero_lt_of_lt r.head_lt

/-- The number of filled slots: the distance from the slot after `head` to `tail`. -/
def busy : Nat := (r.size + r.tail - (r.head + 1)) % r.size

/-- The number of slots that may still be filled. -/
def free : Nat := r.size - 1 - r.busy

/-- The filled slots, oldest first. -/
def inflight : List Nat := slots r.size (slot r.size r.head 1) r.busy

/-- The slots from `tail` forward through `head`. -/
def freeRegion : List Nat := slots r.size r.tail (r.size - r.busy)

theorem busy_eq : r.busy = if r.head < r.tail then r.tail - r.head - 1
    else r.size + r.tail - r.head - 1 := by
  have hh := r.head_lt
  have ht := r.tail_lt
  unfold busy
  split
  · rw [show r.size + r.tail - (r.head + 1) = r.size + (r.tail - r.head - 1) by omega,
      Nat.add_mod_left, Nat.mod_eq_of_lt (by omega)]
  · rw [Nat.mod_eq_of_lt (by omega)]
    omega

theorem busy_lt : r.busy < r.size := Nat.mod_lt _ r.size_pos

theorem busy_add_free : r.busy + r.free = r.size - 1 := by
  have := r.busy_lt
  unfold free
  omega

/-- The free slots start where the filled ones end. -/
theorem slot_busy : slot r.size (slot r.size r.head 1) r.busy = r.tail := by
  have hh := r.head_lt
  have ht := r.tail_lt
  rw [slot_slot, slot_eq hh (by have := r.busy_lt; omega), busy_eq]
  split <;> split <;> omega

/-- Fill `k` slots. -/
def push (k : Nat) : Ring where
  size := r.size
  head := r.head
  tail := slot r.size r.tail k
  head_lt := r.head_lt
  tail_lt := slot_lt r.size_pos _ _

/-- Finish the oldest slot. -/
def pop : Ring where
  size := r.size
  head := slot r.size r.head 1
  tail := r.tail
  head_lt := slot_lt r.size_pos _ _
  tail_lt := r.tail_lt

theorem busy_push {k : Nat} (hk : k ≤ r.free) : (r.push k).busy = r.busy + k := by
  have hh := r.head_lt
  have ht := r.tail_lt
  have hb := r.busy_add_free
  have hbusy := r.busy_eq
  have htail : (r.push k).tail = slot r.size r.tail k := rfl
  rw [slot_eq ht (by omega)] at htail
  have := (r.push k).busy_eq
  simp only [htail] at this
  simp only [push] at this ⊢
  split at this <;> split at this <;> split at hbusy <;> omega

theorem busy_pop (h : 0 < r.busy) : r.pop.busy + 1 = r.busy := by
  have hh := r.head_lt
  have ht := r.tail_lt
  have hbusy := r.busy_eq
  have hhead : r.pop.head = slot r.size r.head 1 := rfl
  rw [slot_eq hh (by omega)] at hhead
  have := r.pop.busy_eq
  simp only [hhead] at this
  simp only [pop] at this ⊢
  split at this <;> split at this <;> split at hbusy <;> omega

/-- **First in.** Filled slots join the end of the queue. -/
theorem inflight_push {k : Nat} (hk : k ≤ r.free) :
    (r.push k).inflight = r.inflight ++ slots r.size r.tail k := by
  have h : (r.push k).inflight = slots r.size (slot r.size r.head 1) (r.push k).busy := rfl
  rw [h, r.busy_push hk, slots_add, slot_busy]
  rfl

/-- **First out.** The slot finished is the oldest one. -/
theorem inflight_pop (h : 0 < r.busy) : r.inflight = slot r.size r.head 1 :: r.pop.inflight := by
  have hs := slot_lt r.size_pos r.head 1
  rw [inflight, ← r.busy_pop h, slots_succ, slot_zero hs]
  rfl

/-- While slots are in flight, the slot after `head` is not `tail`. -/
theorem head_succ_ne_tail (h : 0 < r.busy) : slot r.size r.head 1 ≠ r.tail := by
  have hh := r.head_lt
  have ht := r.tail_lt
  rw [slot_eq hh (by omega)]
  rw [busy_eq] at h
  split at h <;> split <;> omega

/-- The ring as one turn: what is in flight, then the free region. -/
theorem inflight_append_freeRegion :
    r.inflight ++ r.freeRegion = slots r.size (slot r.size r.head 1) r.size := by
  have hb := r.busy_lt
  have split_turn : r.size = r.busy + (r.size - r.busy) := by omega
  conv => rhs; arg 3; rw [split_turn]
  rw [slots_add, slot_busy]
  rfl

theorem mem_inflight_or_free {i : Nat} (hi : i < r.size) : i ∈ r.inflight ∨ i ∈ r.freeRegion := by
  rw [← List.mem_append, inflight_append_freeRegion]
  exact mem_slots.mpr (exists_slot (slot_lt r.size_pos _ _) hi)

theorem not_inflight_of_free {i : Nat} (hi : i ∈ r.freeRegion) : i ∉ r.inflight := by
  intro h
  have nodup := nodup_slots (slot_lt r.size_pos r.head 1) (Nat.le_refl r.size)
  rw [← inflight_append_freeRegion, List.nodup_append] at nodup
  exact nodup.2.2 i h i hi rfl

/-- The free slots a push may fill lie in the free region. -/
theorem slots_subset_freeRegion {k : Nat} (hk : k ≤ r.free) {i : Nat}
    (hi : i ∈ slots r.size r.tail k) : i ∈ r.freeRegion := by
  obtain ⟨j, hj, rfl⟩ := mem_slots.mp hi
  have := r.busy_add_free
  have := r.busy_lt
  exact mem_slots.mpr ⟨j, by omega, rfl⟩

theorem freeRegion_push {k : Nat} (hk : k ≤ r.free) {i : Nat}
    (hi : i ∈ (r.push k).freeRegion) : i ∈ r.freeRegion := by
  have hlt : i < r.size := by
    obtain ⟨j, -, rfl⟩ := mem_slots.mp hi
    exact slot_lt r.size_pos _ _
  refine (r.mem_inflight_or_free hlt).resolve_left fun h => ?_
  refine (r.push k).not_inflight_of_free hi ?_
  rw [r.inflight_push hk]
  exact List.mem_append_left _ h

/-- Finishing a slot adds just that slot to the free region. -/
theorem freeRegion_pop (h : 0 < r.busy) {i : Nat} (hi : i ∈ r.pop.freeRegion) :
    i ∈ r.freeRegion ∨ i = slot r.size r.head 1 := by
  have hlt : i < r.size := by
    obtain ⟨j, -, rfl⟩ := mem_slots.mp hi
    exact slot_lt r.size_pos _ _
  rcases r.mem_inflight_or_free hlt with hin | hfree
  · rw [r.inflight_pop h] at hin
    exact .inr ((List.mem_cons.mp hin).resolve_right (r.pop.not_inflight_of_free hi))
  · exact .inl hfree

end Ring

end XpNet

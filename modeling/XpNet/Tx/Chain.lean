/-
The descriptor chain of a TX queue, as the device walks it.

`Queue.follow` is the device: from a descriptor it goes on along `qword[3]`
until it meets the descriptor with EOP, a zero link, or an address that is no
descriptor's. Initialization leaves no link on A0, and elsewhere a chain from
slot 0 to the last slot, open at its end (`linked_txQueueInit`).

`follow_frame_iff` settles for which frames the walk from the first descriptor
visits exactly the frame's shards: those of one shard, and elsewhere than on A0
those that do not wrap.
-/

import XpNet.Tx.Rules

namespace XpNet

/-- The descriptors the device visits from `i` on, and whether it reached EOP. -/
def Queue.follow (q : Queue) : Nat → Nat → List Nat × Bool
  | 0, _ => ([], false)
  | fuel + 1, i =>
    if eop (q.descMeta i).qword0 then ([i], true)
    else if (q.descMeta i).qword3 = 0 then ([i], false)
    else match q.descAt (q.descMeta i).qword3 with
      | some j => (i :: (q.follow fuel j).1, (q.follow fuel j).2)
      | none => ([i], false)

section Follow

variable {q : Queue} {a0 : Bool}

theorem follow_of_eop {i fuel : Nat} (pos : 0 < fuel) (h : eop (q.descMeta i).qword0 = true) :
    q.follow fuel i = ([i], true) := by
  cases fuel with
  | zero => omega
  | succ fuel => simp [Queue.follow, h]

/-- Without EOP and without a link the walk ends short of EOP. -/
theorem follow_of_no_link {i : Nat} (fuel : Nat) (notEop : eop (q.descMeta i).qword0 = false)
    (noLink : (q.descMeta i).qword3 = 0) : (q.follow fuel i).2 = false := by
  cases fuel with
  | zero => rfl
  | succ fuel => simp [Queue.follow, notEop, noLink]

/-- One step of the walk along an open chain. -/
theorem Linked.follow_next (linked : Linked false q) {i fuel : Nat} (hi : i + 1 < q.xpqNumDesc)
    (notEop : eop (q.descMeta i).qword0 = false) :
    q.follow (fuel + 1) i = (i :: (q.follow fuel (i + 1)).1, (q.follow fuel (i + 1)).2) := by
  have hlink := (linked i (by omega)).2
  rw [if_pos ⟨rfl, hi⟩] at hlink
  have hne : q.dma + (i + 1) * xpnetDescSize ≠ 0 := by
    simp only [xpnetDescSize]
    omega
  simp only [Queue.follow, notEop, Bool.false_eq_true, if_false, hlink, hne, linked.descAt hi]

/-- A frame that does not wrap is walked to its end. -/
theorem Linked.follow_frame (linked : Linked false q) {k : Nat} : ∀ {t fuel : Nat}, 0 < k →
    t + k ≤ q.xpqNumDesc → k ≤ fuel →
    (∀ m < k, eop (q.descMeta (t + m)).qword0 = decide (m + 1 = k)) →
    q.follow fuel t = (slots q.xpqNumDesc t k, true) := by
  induction k with
  | zero => omega
  | succ k ih =>
      intro t fuel _ hfit hfuel heop
      obtain ⟨fuel, rfl⟩ := Nat.exists_eq_add_of_le' (show 1 ≤ fuel by omega)
      rw [slots_succ, slot_zero (show t < q.xpqNumDesc by omega)]
      have hfirst := heop 0 (by omega)
      by_cases hk : k = 0
      · subst hk
        simp only [Nat.add_zero] at hfirst
        exact follow_of_eop (by omega) hfirst
      · have hnot : eop (q.descMeta t).qword0 = false := by
          simpa [hk] using hfirst
        have hnext : slot q.xpqNumDesc t 1 = t + 1 := Nat.mod_eq_of_lt (by omega)
        have rest : q.follow fuel (t + 1) = (slots q.xpqNumDesc (t + 1) k, true) := by
          apply ih (by omega) (by omega) (by omega)
          intro m hm
          rw [show t + 1 + m = t + (m + 1) by omega, heop (m + 1) (by omega)]
          simp
        rw [linked.follow_next (by omega) hnot, rest, hnext]

/-- A chain that runs into the end of the ring before EOP ends there. -/
theorem Linked.follow_open (linked : Linked false q) {d : Nat} : ∀ {t fuel : Nat},
    t + d + 1 = q.xpqNumDesc → (∀ m ≤ d, eop (q.descMeta (t + m)).qword0 = false) →
    (q.follow fuel t).2 = false := by
  induction d with
  | zero =>
      intro t fuel hend heop
      have hlink := (linked t (by omega)).2
      rw [if_neg (by omega)] at hlink
      exact follow_of_no_link fuel (heop 0 (by omega)) hlink
  | succ d ih =>
      intro t fuel hend heop
      cases fuel with
      | zero => rfl
      | succ fuel =>
          rw [linked.follow_next (i := t) (by omega) (heop 0 (by omega))]
          apply ih (by omega)
          intro m hm
          rw [show t + 1 + m = t + (m + 1) by omega]
          exact heop (m + 1) (by omega)

/-- **The walk of a frame.** With EOP on the last of its `k` shards only, the
walk from the first visits exactly the shards if and only if there is one shard,
or the descriptors are linked and the frame does not wrap. -/
theorem follow_frame_iff (linked : Linked a0 q) {t k : Nat} (ht : t < q.xpqNumDesc) (hk : 0 < k)
    (hle : k ≤ q.xpqNumDesc)
    (heop : ∀ m < k, eop (q.descMeta (slot q.xpqNumDesc t m)).qword0 = decide (m + 1 = k)) :
    q.follow q.xpqNumDesc t = (slots q.xpqNumDesc t k, true) ↔
      k = 1 ∨ (a0 = false ∧ t + k ≤ q.xpqNumDesc) := by
  have hfirst := heop 0 hk
  rw [slot_zero ht] at hfirst
  by_cases hone : k = 1
  · subst hone
    refine iff_of_true ?_ (.inl rfl)
    rw [follow_of_eop (by omega) hfirst, slots_succ, slot_zero ht, slots_zero]
  · have hnot : eop (q.descMeta t).qword0 = false := by simpa [Ne.symm hone] using hfirst
    cases a0 with
    | true =>
        -- A0: the first descriptor has no link
        refine iff_of_false (fun h => ?_) (by simp [hone])
        have hlink := (linked t ht).2
        simp only [Bool.true_eq_false, false_and, if_false] at hlink
        have hstop := follow_of_no_link q.xpqNumDesc hnot hlink
        rw [h] at hstop
        cases hstop
    | false =>
        by_cases hfit : t + k ≤ q.xpqNumDesc
        · refine iff_of_true ?_ (.inr ⟨rfl, hfit⟩)
          apply linked.follow_frame hk hfit hle
          intro m hm
          have := heop m hm
          rwa [slot, Nat.mod_eq_of_lt (show t + m < q.xpqNumDesc by omega)] at this
        · refine iff_of_false (fun h => ?_) (by simp [hone, hfit])
          have hstop : (q.follow q.xpqNumDesc t).2 = false := by
            apply linked.follow_open (d := q.xpqNumDesc - 1 - t) (by omega)
            intro m hm
            have := heop m (by omega)
            rw [slot, Nat.mod_eq_of_lt (show t + m < q.xpqNumDesc by omega)] at this
            simpa [show ¬ m + 1 = k by omega] using this
          rw [h] at hstop
          cases hstop

end Follow

end XpNet

namespace XpNet.Tx

theorem linked_txQueueInit (a0 : Bool) {n : Nat} (pos : 0 < n) (dma : Nat) (bufs : Nat → Shard) :
    Linked a0 (xpnetTxQueueInit a0 n dma bufs) := by
  cases a0 with
  | true => exact fun i _ => ⟨rfl, rfl⟩
  | false => exact linked_queueDescLink pos fun _ _ => rfl

/-- No descriptor starts with its ownership bit set. -/
theorem qword0_txQueueInit (a0 : Bool) (n dma : Nat) (bufs : Nat → Shard) (i : Nat) :
    ownership ((xpnetTxQueueInit a0 n dma bufs).descMeta i).qword0 = false := by
  have hzero : ((xpnetTxQueueInit a0 n dma bufs).descMeta i).qword0 = 0 := by
    cases a0 with
    | true => rfl
    | false => exact queueDescLink_qword0 _ false i
  rw [hzero]
  decide

end XpNet.Tx

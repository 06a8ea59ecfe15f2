/-
The chain of the receive descriptors.

`xpnet_queue_desc_link` builds an open chain, and the wrap of the poll relies on it: the
device stops behind the last slot until the host has given it the CDP again. But
`__xpnet_rx_desc_reset` stores `qword[3]` again, with the next slot that
`xpnet_add_and_wrap` gives, and that starts over at the first. It stores what is there
in every slot but the one that the tail starts over from (`relinks_iff`). So the chain
keeps its shape, over every run of the polls, exactly when the device completes this
slot with nothing that a poll rejects (`rx_chain_kept_iff`).
-/

import XpNet.Interference.Upheld
import XpNet.Rx.Stores
import XpNet.Rx.Polls

namespace XpNet.Rx

open XpNet.Interference

/-! ### Where the tail starts over -/

/-- The slot after which `xpnet_add_and_wrap` gives the first: the last of the ring, or
before it the one where the sum passes the end of `u32`. -/
def lastSlot (n : Nat) : Nat := min (n - 1) (2 ^ 32 - 1 - n)

/-- What `__xpnet_rx_desc_reset` links slot `i` to is what it is linked to. -/
def Relinks (n dma i : Nat) : Prop := i ≠ lastSlot n ∨ dma = 0 ∧ lastSlot n = n - 1

section Slots

variable {n dma i : Nat}

theorem lastSlot_lt (pos : 0 < n) : lastSlot n < n := by
  unfold lastSlot
  omega

theorem xpnetAddAndWrap_of_lt (hi : i < lastSlot n) : xpnetAddAndWrap i 1 n = i + 1 := by
  unfold lastSlot at hi
  have hsum : i + n < 2 ^ 32 := by omega
  have hnext : i + n + 1 < 2 ^ 32 := by omega
  have hcomm : i + n + 1 = n + (i + 1) := by omega
  unfold xpnetAddAndWrap u32Add
  rw [Nat.mod_eq_of_lt hsum, Nat.mod_eq_of_lt hnext, hcomm, Nat.add_mod_left,
    Nat.mod_eq_of_lt (by omega)]

theorem xpnetAddAndWrap_lastSlot (pos : 0 < n) (hsize : n < 2 ^ 32) :
    xpnetAddAndWrap (lastSlot n) 1 n = 0 := by
  unfold xpnetAddAndWrap u32Add
  rcases Nat.lt_or_ge (2 ^ 31) n with hlarge | hsmall
  -- the sum passes the end of `u32`
  · have hlast : lastSlot n + n = 2 ^ 32 - 1 := by
      unfold lastSlot
      omega
    rw [hlast]
    exact Nat.zero_mod n
  -- the tail passes the end of the ring
  · have hlast : lastSlot n + n + 1 = n + n := by
      unfold lastSlot
      omega
    have hsum : lastSlot n + n < 2 ^ 32 := by omega
    rw [Nat.mod_eq_of_lt hsum, hlast]
    rcases Nat.lt_or_ge (n + n) (2 ^ 32) with hlt | hge
    · rw [Nat.mod_eq_of_lt hlt, Nat.add_mod_left, Nat.mod_self]
    · have hwhole : n + n = 2 ^ 32 := by omega
      rw [hwhole, Nat.mod_self, Nat.zero_mod]

theorem xpnetAddAndWrap_le_lastSlot (pos : 0 < n) (hsize : n < 2 ^ 32) (hi : i ≤ lastSlot n) :
    xpnetAddAndWrap i 1 n ≤ lastSlot n := by
  rcases Nat.lt_or_eq_of_le hi with hlt | rfl
  · rw [xpnetAddAndWrap_of_lt hlt]
    exact hlt
  · rw [xpnetAddAndWrap_lastSlot pos hsize]
    exact Nat.zero_le _

/-- The reset and `xpnet_queue_desc_link` agree. -/
theorem relinks_iff (pos : 0 < n) (hsize : n < 2 ^ 32) (hi : i ≤ lastSlot n) :
    dma + xpnetAddAndWrap i 1 n * xpnetDescSize =
      (if i + 1 < n then dma + (i + 1) * xpnetDescSize else 0) ↔ Relinks n dma i := by
  have hlast : lastSlot n ≤ n - 1 := Nat.min_le_left _ _
  rcases Nat.lt_or_eq_of_le hi with hlt | rfl
  · have hnext : i + 1 < n := by omega
    rw [xpnetAddAndWrap_of_lt hlt, if_pos hnext]
    exact iff_of_true rfl (.inl (Nat.ne_of_lt hlt))
  · rw [xpnetAddAndWrap_lastSlot pos hsize, Nat.zero_mul, Nat.add_zero]
    unfold Relinks
    by_cases hnext : lastSlot n + 1 < n
    · rw [if_pos hnext]
      simp only [xpnetDescSize]
      omega
    · rw [if_neg hnext]
      have hend : lastSlot n = n - 1 := by omega
      simp [hend]

end Slots

/-! ### The device -/

/-- The device gives a descriptor that it owns any bytes and any `qword[0]` and
`qword[1]`, but the one that the tail starts over from only those of `completions`; and
memory for socket buffers comes and goes. -/
inductive Finishes (completions : BitVec 64 → Nat → Prop) (n : Nat) : State → State → Prop where
  | desc (s : State) (i : Nat) (va : Image) (qword0 : BitVec 64) (qword1 : Nat)
      (own : s.owned i = true) (allowed : i = lastSlot n → completions qword0 qword1) :
      Finishes completions n s (s.updDesc i (writeBack qword0 va qword1))
  | memory (s : State) (ok : Bool) : Finishes completions n s { s with allocOk := ok }

/-- The chain has the shape that `xpnet_queue_desc_link` built, and a device that fills the
last slot and goes on along its link has no descriptor. -/
def ChainKept (n : Nat) (s : State) : Prop :=
  Linked false s.queue ∧ ∀ qword0 va qword1, (fill s (n - 1) qword0 va qword1).current = none

theorem chainKept_of_linked {n : Nat} {s : State} (pos : 0 < n) (hn : s.queue.xpqNumDesc = n)
    (linked : Linked false s.queue) : ChainKept n s := by
  refine ⟨linked, fun qword0 va qword1 => ?_⟩
  have hlink := (linked (n - 1) (by omega)).2
  rw [if_neg (by omega)] at hlink
  have hstops : (fill s (n - 1) qword0 va qword1).running = false := by
    change ((s.desc (n - 1)).qword3 != 0) = false
    rw [State.desc, hlink]
    rfl
  rw [State.current, hstops]
  rfl

/-! ### What is kept -/

/-- The queue with its chain, and a tail that the macro has given. -/
structure Chained (n dma : Nat) (mode : AddressMode) (s : State) : Prop where
  mode_eq : s.mode = mode
  num_eq : s.queue.xpqNumDesc = n
  dma_eq : s.queue.dma = dma
  tail_le : s.queue.tail ≤ lastSlot n
  linked : Linked false s.queue

/-- What the host owns of the slot that the tail starts over from has been completed. -/
def LastDone (completions : BitVec 64 → Nat → Prop) (n : Nat) (s : State) : Prop :=
  s.owned (lastSlot n) = false →
    completions (s.desc (lastSlot n)).qword0 (s.desc (lastSlot n)).qword1

/-- The queue between two rounds. -/
structure Polled (completions : BitVec 64 → Nat → Prop) (n dma : Nat) (mode : AddressMode)
    (s : State) : Prop where
  chained : Chained n dma mode s
  lastDone : LastDone completions n s

/-- The host holds slot `i`, which is as `d`. -/
structure AtSlot (completions : BitVec 64 → Nat → Prop) (n dma : Nat) (mode : AddressMode)
    (i : Nat) (d : Desc) (s : State) : Prop where
  chained : Chained n dma mode s
  desc_eq : s.desc i = d
  own : ownership d.qword0 = false
  lastDone : i ≠ lastSlot n → LastDone completions n s

section Kept

variable {completions : BitVec 64 → Nat → Prop} {n dma : Nat} {mode : AddressMode} {i : Nat}
  {d : Desc} {s s' : State}

/-- A change of a descriptor that leaves its link. -/
theorem Chained.upd (chained : Chained n dma mode s) {f : Desc → Desc}
    (keeps : (f (s.desc i)).cdp = (s.desc i).cdp ∧ (f (s.desc i)).qword3 = (s.desc i).qword3) :
    Chained n dma mode (s.updDesc i f) :=
  ⟨chained.mode_eq, chained.num_eq, chained.dma_eq, chained.tail_le,
    linked_updDesc chained.linked i keeps⟩

/-- A change of what is not the queue. -/
theorem Chained.of_queue (chained : Chained n dma mode s) (hqueue : s'.queue = s.queue)
    (hmode : s'.mode = s.mode) : Chained n dma mode s' where
  mode_eq := hmode.trans chained.mode_eq
  num_eq := by rw [hqueue, chained.num_eq]
  dma_eq := by rw [hqueue, chained.dma_eq]
  tail_le := hqueue ▸ chained.tail_le
  linked := hqueue ▸ chained.linked

/-- The slot of which a reset takes the address. -/
theorem Chained.next_cdp (chained : Chained n dma mode s) (pos : 0 < n) :
    (s.desc (xpnetAddAndWrap i 1 n)).cdp = dma + xpnetAddAndWrap i 1 n * xpnetDescSize := by
  have hnext : xpnetAddAndWrap i 1 n < n := Nat.mod_lt _ pos
  rw [← chained.dma_eq]
  exact (chained.linked _ (by rwa [chained.num_eq])).1

theorem stable_chained : Stable (Finishes completions n) (Chained n dma mode) := by
  rintro s s' step chained
  cases step with
  | desc i va qword0 qword1 own allowed => exact chained.upd ⟨rfl, rfl⟩
  | memory ok => exact chained.of_queue rfl rfl

theorem stable_lastDone : Stable (Finishes completions n) (LastDone completions n) := by
  rintro s s' step done
  cases step with
  | desc i va qword0 qword1 own allowed =>
      intro hown
      by_cases hi : lastSlot n = i
      · subst hi
        rw [updDesc_self]
        exact allowed rfl
      · rw [State.owned, updDesc_of_ne s _ hi] at hown
        rw [updDesc_of_ne s _ hi]
        exact done hown
  | memory ok => exact done

theorem stable_polled : Stable (Finishes completions n) (Polled completions n dma mode) :=
  fun s s' step polled =>
    ⟨stable_chained s s' step polled.chained, stable_lastDone s s' step polled.lastDone⟩

theorem stable_atSlot : Stable (Finishes completions n) (AtSlot completions n dma mode i d) := by
  intro s s' step held
  refine ⟨stable_chained s s' step held.chained, ?_, held.own,
    fun hi => stable_lastDone s s' step (held.lastDone hi)⟩
  cases step with
  | desc j va qword0 qword1 own allowed =>
      have hne : i ≠ j := by
        rintro rfl
        rw [State.owned, held.desc_eq, held.own] at own
        cases own
      exact (updDesc_of_ne s _ hne).trans held.desc_eq
  | memory ok => exact held.desc_eq

/-- Another slot that is changed leaves the one that the tail starts over from. -/
theorem LastDone.upd (done : LastDone completions n s) (hi : i ≠ lastSlot n) (f : Desc → Desc) :
    LastDone completions n (s.updDesc i f) := by
  intro hown
  rw [State.owned, updDesc_of_ne s _ hi.symm] at hown
  rw [updDesc_of_ne s _ hi.symm]
  exact done hown

/-- A store that leaves the ownership bit clear. -/
theorem AtSlot.store (held : AtSlot completions n dma mode i d s) {f : Desc → Desc} {d' : Desc}
    (hf : f d = d') (hbits : d'.qword0 = d.qword0) (keeps : Chained n dma mode (s.updDesc i f)) :
    AtSlot completions n dma mode i d' (s.updDesc i f) where
  chained := keeps
  desc_eq := by rw [updDesc_self, held.desc_eq, hf]
  own := by
    rw [hbits]
    exact held.own
  lastDone := fun hi => (held.lastDone hi).upd hi f

/-- One that also leaves the link. -/
theorem AtSlot.storeData (held : AtSlot completions n dma mode i d s) {f : Desc → Desc} {d' : Desc}
    (hf : f d = d') (hbits : d'.qword0 = d.qword0)
    (keeps : d'.cdp = d.cdp ∧ d'.qword3 = d.qword3) :
    AtSlot completions n dma mode i d' (s.updDesc i f) := by
  refine held.store hf hbits (held.chained.upd ?_)
  rw [held.desc_eq, hf]
  exact keeps

/-- A slot whose ownership bit the host sets. -/
theorem Polled.give (chained : Chained n dma mode s)
    (done : i ≠ lastSlot n → LastDone completions n s) {bits : BitVec 64}
    (hbits : ownership bits = true) :
    Polled completions n dma mode (s.updDesc i (setQword0 bits)) := by
  refine ⟨chained.upd ⟨rfl, rfl⟩, ?_⟩
  by_cases hi : i = lastSlot n
  · subst hi
    intro hown
    rw [State.owned, updDesc_self] at hown
    cases hbits.symm.trans hown
  · exact (done hi).upd hi _

/-- A slot that the host leaves as it has been completed. -/
theorem AtSlot.polled (held : AtSlot completions n dma mode i d s)
    (allowed : i = lastSlot n → completions d.qword0 d.qword1) :
    Polled completions n dma mode s := by
  refine ⟨held.chained, ?_⟩
  by_cases hi : i = lastSlot n
  · intro _
    rw [← hi, held.desc_eq]
    exact allowed hi
  · exact held.lastDone hi

/-- The link that a reset stores is the one that is there. -/
theorem AtSlot.relink (held : AtSlot completions n dma mode i d s) (pos : 0 < n)
    (hsize : n < 2 ^ 32) (hi : i ≤ lastSlot n) (relinks : Relinks n dma i) :
    d.qword3 = dma + xpnetAddAndWrap i 1 n * xpnetDescSize := by
  have hin : i < s.queue.xpqNumDesc := by
    rw [held.chained.num_eq]
    exact Nat.lt_of_le_of_lt hi (lastSlot_lt pos)
  have hlink : (s.desc i).qword3 = _ := (held.chained.linked i hin).2
  rw [held.chained.num_eq, held.chained.dma_eq] at hlink
  rw [(relinks_iff pos hsize hi).mpr relinks, ← held.desc_eq]
  simpa only [true_and] using hlink

end Kept

/-! ### The polls -/

/-- What a program of the driver keeps of the chain. -/
abbrev Chains {α : Type} (completions : BitVec 64 → Nat → Prop) (n dma : Nat) (mode : AddressMode)
    (p : RxProg α) (Q : α → State → Prop) (s : State) : Prop :=
  Upholds (Finishes completions n) (Chained n dma mode) p Q s

section Polls

variable {completions : BitVec 64 → Nat → Prop} {n dma : Nat} {mode : AddressMode} {i size : Nat}
  {d : Desc} {s : State}

theorem Polled.ret {α : Type} (polled : Polled completions n dma mode s) (a : α) :
    Chains completions n dma mode (.ret a) (fun _ t => Polled completions n dma mode t) s :=
  .ret stable_polled polled fun _ h => ⟨h.chained, h⟩

/-- A store that leaves the chain and the descriptors alone. -/
theorem Polled.write {β : Type} (polled : Polled completions n dma mode s) {lab : Ev}
    {u : State → State} {f : Unit → RxProg β} {Q : β → State → Prop}
    (keeps : ∀ t, Polled completions n dma mode t → Polled completions n dma mode (u t))
    (rest : ∀ t, Polled completions n dma mode t → Chains completions n dma mode (f ()) Q t) :
    Chains completions n dma mode (Prog.write lab u >>= f) Q s :=
  .write stable_polled polled fun t ht => ⟨ht.chained, rest _ (keeps t ht)⟩

/-- `__xpnet_rx_desc_reset` gives the slot to the device again. -/
theorem chains_rxDescReset (pos : 0 < n) (hsize : n < 2 ^ 32) (hi : i ≤ lastSlot n)
    (relinks : Relinks n dma i) (held : AtSlot completions n dma mode i d s) :
    Chains completions n dma mode (xpnetRxDescReset n i)
      (fun _ t => Polled completions n dma mode t) s := by
  refine .look stable_atSlot held fun t ht => ⟨ht.chained, ?_⟩
  rw [ht.chained.next_cdp pos, ← ht.relink pos hsize hi relinks]
  refine .write stable_atSlot ht fun u hu => ⟨hu.chained, ?_⟩
  have hlinked := hu.storeData (f := fun e => { e with qword3 := d.qword3 }) rfl rfl ⟨rfl, rfl⟩
  refine .write stable_atSlot hlinked fun v hv => ⟨hv.chained, ?_⟩
  have hbuffer := hv.storeData (f := fun e => { e with qword2 := e.bufSta.dma }) rfl rfl ⟨rfl, rfl⟩
  refine .write stable_atSlot hbuffer fun w hw => ⟨hw.chained, ?_⟩
  have hlen := hw.storeData (f := fun e => { e with qword1 := xpnetMaxPacketSize }) rfl rfl
    ⟨rfl, rfl⟩
  refine .act stable_atSlot hlen fun x hx => ⟨hx.chained, ?_⟩
  exact (Polled.give hx.chained hx.lastDone ownership_ownBit).ret ()

/-- And `xpnet_rx_desc_enable` once more. -/
theorem chains_rejectDesc (pos : 0 < n) (hsize : n < 2 ^ 32) (hi : i ≤ lastSlot n)
    (relinks : Relinks n dma i) (held : AtSlot completions n dma mode i d s)
    (count : Stats → Stats) :
    Chains completions n dma mode (rejectDesc n i count)
      (fun _ t => Polled completions n dma mode t) s := by
  refine .seq (chains_rxDescReset pos hsize hi relinks held) fun _ t ht => ?_
  refine .seq (M := fun _ t => Polled completions n dma mode t) ?enable fun _ u hu => ?count
  case enable =>
    refine .look stable_polled ht fun u hu => ⟨hu.chained, ?_⟩
    refine .act stable_polled hu fun v hv => ⟨hv.chained, ?_⟩
    exact (Polled.give hv.chained (fun _ => hv.lastDone) (ownership_enabledBits _)).ret ()
  case count =>
    refine .act stable_polled hu fun v hv => ⟨hv.chained, ?_⟩
    have hcounted : Polled completions n dma mode { v with stats := count v.stats } :=
      ⟨hv.chained.of_queue rfl rfl, hv.lastDone⟩
    exact hcounted.ret ()

theorem chains_swapBuffer (held : AtSlot completions n dma mode i d s) :
    Chains completions n dma mode (swapBuffer mode i size)
      (fun _ t => ∃ d, AtSlot completions n dma mode i d t) s := by
  refine .look stable_atSlot held fun t ht => ⟨ht.chained, ?_⟩
  split
  · rename_i va _
    refine .act stable_atSlot ht fun u hu => ⟨hu.chained, ?_⟩
    have hswapped := hu.storeData (f := setVa va) rfl rfl ⟨rfl, rfl⟩
    exact .ret stable_atSlot hswapped fun _ h => ⟨h.chained, _, h⟩
  · exact .diverge stable_atSlot ht fun _ h => h.chained

/-- Giving the queue its CDP and enabling it. -/
theorem chains_restartAtZero (tail : Nat) (polled : Polled completions n dma mode s) :
    Chains completions n dma mode (restartAtZero tail)
      (fun _ t => Polled completions n dma mode t) s := by
  unfold restartAtZero
  split
  · refine polled.write (fun t ht => ?cdp) fun t ht => ?_
    case cdp => exact ⟨ht.chained.of_queue rfl rfl, ht.lastDone⟩
    refine .act stable_polled ht fun u hu => ⟨hu.chained, ?_⟩
    have henabled : Polled completions n dma mode { u with running := true } :=
      ⟨hu.chained.of_queue rfl rfl, hu.lastDone⟩
    exact henabled.ret ()
  · exact polled.ret ()

/-- What follows the swap leaves the link of the slot, and moves the tail on. -/
theorem chains_handOver (pos : 0 < n) (hsize : n < 2 ^ 32) (hi : i ≤ lastSlot n)
    (held : AtSlot completions n dma mode i d s) :
    Chains completions n dma mode (handOver n i size)
      (fun _ t => Polled completions n dma mode t) s := by
  refine .look stable_atSlot held fun t ht => ⟨ht.chained, ?_⟩
  refine .write stable_atSlot ht fun u hu => ⟨hu.chained, ?_⟩
  have hlen := hu.storeData (f := fun e => { e with qword1 := e.bufSta.len }) rfl rfl ⟨rfl, rfl⟩
  refine .write stable_atSlot hlen fun v hv => ⟨hv.chained, ?_⟩
  have hgiven := Polled.give hv.chained hv.lastDone ownership_ownBit
  refine hgiven.write (fun w hw => ?tail) fun w hw => ?_
  case tail =>
    exact ⟨⟨hw.chained.mode_eq, hw.chained.num_eq, hw.chained.dma_eq,
      xpnetAddAndWrap_le_lastSlot pos hsize hi, hw.chained.linked⟩, hw.lastDone⟩
  refine .seq (chains_restartAtZero _ hw) fun _ x hx => ?_
  refine .act stable_polled hx fun y hy => ⟨hy.chained, ?_⟩
  have hdelivered : Polled completions n dma mode
      { y with delivered := y.delivered ++ [readBytes (t.desc i).bufSta.va size] } :=
    ⟨hy.chained.of_queue rfl rfl, hy.lastDone⟩
  exact hdelivered.ret ()

/-- The packet that is taken. -/
theorem chains_takePacket (pos : 0 < n) (hsize : n < 2 ^ 32) (hi : i ≤ lastSlot n)
    (held : AtSlot completions n dma mode i d s) :
    Chains completions n dma mode (takePacket mode n i size)
      (fun _ t => Polled completions n dma mode t) s := by
  rw [takePacket_eq]
  exact .seq (chains_swapBuffer held) fun _ _ ⟨_, ht⟩ => chains_handOver pos hsize hi ht

section Rounds

variable (pos : 0 < n) (hsize : n < 2 ^ 32)
  (hgood : (dma = 0 ∧ lastSlot n = n - 1) ∨ ∀ qword0 qword1, completions qword0 qword1 →
    ownership qword0 = false → ¬ Rejected mode qword0 qword1)

include hgood in
/-- Where the reset would break the chain, nothing is rejected. -/
theorem relinks_of_rejected (allowed : i = lastSlot n → completions d.qword0 d.qword1)
    (hown : ownership d.qword0 = false) (hrej : Rejected mode d.qword0 d.qword1) :
    Relinks n dma i := by
  by_cases hi : i = lastSlot n
  · rcases hgood with hzero | hgood
    · exact .inr hzero
    · exact absurd hrej (hgood _ _ (allowed hi) hown)
  · exact .inl hi

include pos hsize hgood

theorem chains_pollOwned (hi : i ≤ lastSlot n) (held : AtSlot completions n dma mode i d s)
    (allowed : i = lastSlot n → completions d.qword0 d.qword1) :
    Chains completions n dma mode (pollOwned mode n i)
      (fun _ t => Polled completions n dma mode t) s := by
  refine .write stable_atSlot held fun t ht => ⟨ht.chained, ?_⟩
  have hdefer : AtSlot completions n dma mode i d { t with jiffiesDefer := 0 } :=
    ⟨ht.chained.of_queue rfl rfl, ht.desc_eq, ht.own, ht.lastDone⟩
  refine .look stable_atSlot hdefer fun u hu => ⟨hu.chained, ?_⟩
  rw [hu.desc_eq]
  dsimp only
  split
  · rename_i hlong
    have relinks := relinks_of_rejected hgood allowed hu.own (.inr hlong)
    exact .seq (chains_rejectDesc pos hsize hi relinks hu _) fun _ _ hv => hv.ret _
  · refine .look stable_atSlot hu fun v hv => ⟨hv.chained, ?_⟩
    split
    · exact .seq (chains_takePacket pos hsize hi hv) fun _ _ hw => hw.ret _
    · exact (hv.polled allowed).ret _

theorem chains_pollRound (polled : Polled completions n dma mode s) :
    Chains completions n dma mode pollRound (fun _ t => Polled completions n dma mode t) s := by
  refine .look stable_polled polled fun t ht => ⟨ht.chained, ?_⟩
  have hi := ht.chained.tail_le
  simp only [id, ht.chained.mode_eq, ht.chained.num_eq]
  have allowed : ∀ {u : State}, Polled completions n dma mode u →
      u.owned t.queue.tail = false → t.queue.tail = lastSlot n →
      completions (u.desc t.queue.tail).qword0 (u.desc t.queue.tail).qword1 := by
    intro u hu hown htail
    rw [htail] at hown ⊢
    exact hu.lastDone hown
  refine .look stable_polled ht fun u hu => ⟨hu.chained, ?_⟩
  split
  · rename_i hone
    have hone : (u.desc t.queue.tail).qword0 = 1 := by simpa using hone
    have hown : u.owned t.queue.tail = false := by
      rw [State.owned, hone]
      decide
    have relinks := relinks_of_rejected hgood (allowed hu hown) hown (.inl hone)
    have held : AtSlot completions n dma mode t.queue.tail (u.desc t.queue.tail) u :=
      ⟨hu.chained, rfl, hown, fun _ => hu.lastDone⟩
    exact .seq (chains_rejectDesc pos hsize hi relinks held _) fun _ _ hv => hv.ret _
  · refine .look stable_polled hu fun v hv => ⟨hv.chained, ?_⟩
    split
    · exact hv.ret _
    · rename_i howned
      have hown : v.owned t.queue.tail = false := Bool.eq_false_iff.mpr howned
      exact chains_pollOwned pos hsize hgood hi ⟨hv.chained, rfl, hown, fun _ => hv.lastDone⟩
        (allowed hv hown)

theorem chains_pollLoop (fuel count : Nat) (polled : Polled completions n dma mode s) :
    Chains completions n dma mode (pollLoop fuel count)
      (fun _ t => Polled completions n dma mode t) s := by
  induction fuel generalizing count s with
  | zero => exact polled.ret _
  | succ fuel ih =>
      refine .seq (chains_pollRound pos hsize hgood polled) fun exit t ht => ?_
      cases exit with
      | none => exact ih _ ht
      | some exit => exact ht.ret _

theorem chains_runPolls (polls : List Nat) (polled : Polled completions n dma mode s) :
    Chains completions n dma mode (runPolls polls)
      (fun _ t => Polled completions n dma mode t) s := by
  refine Upholds.forM stable_polled (fun _ h => h.chained) (fun maxiter t ht => ?_) polls polled
  exact .seq (chains_pollLoop pos hsize hgood maxiter 0 ht) fun _ _ hu => hu.ret _

end Rounds

end Polls

/-! ### A rejection where the tail starts over -/

/-- What the poll makes of a descriptor whose packet it takes. -/
def takenDesc (va : Image) (d : Desc) : Desc :=
  { setVa va d with qword0 := ownBit, qword1 := d.bufSta.len }

/-- The host is at slot `k`, and the device owns the slots from there on. -/
structure AheadOf (n dma : Nat) (mode : AddressMode) (k : Nat) (s : State) : Prop where
  chained : Chained n dma mode s
  tail_eq : s.queue.tail = k
  ahead : ∀ i < n, k ≤ i → s.owned i = true

/-- The chain is another one. -/
def ChainLost (s : State) (_ : Ev) : Prop := ¬ Linked false s.queue

section Break

variable {completions : BitVec 64 → Nat → Prop} {n dma : Nat} {mode : AddressMode} {i k size : Nat}
  {s : State}

/-- Done alone, taking a packet changes its descriptor, and moves the tail. -/
theorem exec_takePacket_queue {va : Image}
    (hswap : xpnetEndianSwap32 (s.desc i).bufSta.va size mode = some va) :
    ∃ s', (takePacket mode n i size).exec s = some ((), s') ∧ s'.mode = s.mode ∧
      s'.queue = { (s.updDesc i (takenDesc va)).queue with tail := xpnetAddAndWrap i 1 n } := by
  have hmerge : (((s.updDesc i (setVa va)).updDesc i fun d =>
      { d with qword1 := d.bufSta.len }).updDesc i (setQword0 ownBit)) =
      s.updDesc i (takenDesc va) := by
    simp [State.updDesc, State.desc, takenDesc, setVa, setQword0]
  unfold takePacket swapBuffer restartAtZero storeDesc
  simp only [Prog.look_bind, Prog.act_bind, Prog.exec_act, Prog.write_bind, id, hswap, hmerge]
  split
  · exact ⟨_, rfl, rfl, rfl⟩
  · exact ⟨_, rfl, rfl, rfl⟩

theorem not_rejected_of_frameOk {qword1 : Nat} (ok : FrameOk mode qword1) :
    ¬ Rejected mode 0 qword1 :=
  not_or.mpr ⟨by decide, Nat.not_lt.mpr ok.1⟩

/-- Done alone, a poll of one round takes a packet without an error. -/
theorem exec_poll_frameOk {d : Desc} (hd : s.desc s.queue.tail = d) (hbits : d.qword0 = 0)
    (ok : FrameOk s.mode d.qword1) (hmem : s.allocOk = true) :
    ∃ va s', (xpnetRxQueueProcess 1).exec s = some ((1, .maxiter), s') ∧ s'.mode = s.mode ∧
      s'.queue = { (s.updDesc s.queue.tail (takenDesc va)).queue with
        tail := xpnetAddAndWrap s.queue.tail 1 s.queue.xpqNumDesc } := by
  let s₁ : State := { s with jiffiesDefer := 0 }
  have hd₁ : s₁.desc s.queue.tail = d := hd
  obtain ⟨s', htake, hmode, hqueue⟩ := exec_takePacket_queue (n := s.queue.xpqNumDesc) (s := s₁)
    (i := s.queue.tail) (xpnetEndianSwap32_of_frameOk (hd₁ ▸ ok) _)
  rw [hd₁] at htake
  have hown : ownership d.qword0 = false := by
    rw [hbits]
    decide
  have hround : pollRound.exec s = some (none, s') := by
    rw [exec_pollRound_of_not_rejected hown (hbits ▸ not_rejected_of_frameOk ok) hd, if_pos hmem]
    exact Prog.exec_bind_some.mpr ⟨(), s', htake, rfl⟩
  exact ⟨_, s', Prog.exec_bind_some.mpr ⟨_, s', hround, rfl⟩, hmode, hqueue⟩

/-- The device gives a slot a packet, and the poll takes it. -/
theorem AheadOf.next (completions : BitVec 64 → Nat → Prop) (h : AheadOf n dma mode k s)
    (hk : k < lastSlot n) :
    ∃ t s', Relation.ReflTransGen (Finishes completions n) s t ∧
      (xpnetRxQueueProcess 1).exec t = some ((1, .maxiter), s') ∧
      AheadOf n dma mode (k + 1) s' := by
  have hkn : k < n := by
    unfold lastSlot at hk
    omega
  let s₁ : State := { s with allocOk := true }
  let t := s₁.updDesc k (writeBack 0 (fun _ => 0) (17 * 2 ^ 16))
  have hchained : Chained n dma mode s₁ := h.chained.of_queue rfl rfl
  have tchained : Chained n dma mode t := hchained.upd ⟨rfl, rfl⟩
  have htail : t.queue.tail = k := h.tail_eq
  have hdesc : t.desc t.queue.tail = writeBack 0 (fun _ => 0) (17 * 2 ^ 16) (s₁.desc k) := by
    rw [htail]
    exact updDesc_self s₁ k _
  obtain ⟨va, s', hexec, hmode, hqueue⟩ := exec_poll_frameOk hdesc rfl (frameOk_byte _) rfl
  rw [htail, tchained.num_eq, xpnetAddAndWrap_of_lt hk] at hqueue
  have hkept : Chained n dma mode (t.updDesc k (takenDesc va)) := tchained.upd ⟨rfl, rfl⟩
  refine ⟨t, s', ?_, hexec, ⟨⟨?_, ?_, ?_, ?_, ?_⟩, ?_, ?_⟩⟩
  · have filled : Finishes completions n s₁ t :=
      .desc s₁ k (fun _ => 0) 0 _ (h.ahead k hkn (Nat.le_refl k)) fun hlast =>
        absurd hlast (Nat.ne_of_lt hk)
    exact (Relation.ReflTransGen.single (.memory s true)).tail filled
  · exact hmode.trans tchained.mode_eq
  · rw [hqueue]
    exact hkept.num_eq
  · rw [hqueue]
    exact hkept.dma_eq
  · rw [hqueue]
    exact hk
  · rw [hqueue]
    exact hkept.linked
  · rw [hqueue]
  · intro i hi hki
    have hne : i ≠ k := by omega
    have hsame : s'.desc i = s.desc i := by
      rw [State.desc, hqueue]
      exact (updDesc_of_ne t _ hne).trans (updDesc_of_ne s₁ _ hne)
    rw [State.owned, hsame]
    exact h.ahead i hi (by omega)

/-- A reset of the slot that the tail starts over from changes its link. -/
theorem may_reset_lastSlot {rely : State → State → Prop} (pos : 0 < n) (hsize : n < 2 ^ 32)
    (chained : Chained n dma mode s) (breaks : ¬ Relinks n dma (lastSlot n))
    (count : Stats → Stats) :
    May rely ChainLost (rejectDesc n (lastSlot n) count) s := by
  let next := (s.desc (xpnetAddAndWrap (lastSlot n) 1 n)).cdp
  have hlost : ¬ Linked false
      (s.updDesc (lastSlot n) fun d => { d with qword3 := next }).queue := by
    intro linked
    have hin : lastSlot n < s.queue.xpqNumDesc := by
      rw [chained.num_eq]
      exact lastSlot_lt pos
    have hlink : ((s.updDesc (lastSlot n) fun d => { d with qword3 := next }).desc
        (lastSlot n)).qword3 = if false = false ∧ lastSlot n + 1 < s.queue.xpqNumDesc then
          s.queue.dma + (lastSlot n + 1) * xpnetDescSize else 0 := (linked (lastSlot n) hin).2
    rw [updDesc_self, chained.num_eq, chained.dma_eq] at hlink
    have hnext : next = dma + xpnetAddAndWrap (lastSlot n) 1 n * xpnetDescSize :=
      chained.next_cdp pos
    refine breaks ((relinks_iff pos hsize (Nat.le_refl _)).mp ?_)
    rw [← hnext]
    simpa only [true_and] using hlink
  exact May.seq (.look (.write (.here rfl hlost)))

section Lost

variable (pos : 0 < n) (hsize : n < 2 ^ 32) (breaks : ¬ Relinks n dma (lastSlot n))
  {qword0 : BitVec 64} {qword1 : Nat} (allowed : completions qword0 qword1)
  (hown : ownership qword0 = false) (hrej : Rejected mode qword0 qword1)

include pos hsize breaks allowed hown hrej

/-- A poll finds the slot that the tail starts over from rejected. -/
theorem may_reject_lastSlot (polls : List Nat) (h : AheadOf n dma mode (lastSlot n) s) :
    May (Finishes completions n) ChainLost (runPolls (1 :: polls)) s := by
  let t := s.updDesc (lastSlot n) (writeBack qword0 (fun _ => 0) qword1)
  have tchained : Chained n dma mode t := h.chained.upd ⟨rfl, rfl⟩
  have htail : t.queue.tail = lastSlot n := h.tail_eq
  have hdesc : t.desc t.queue.tail = writeBack qword0 (fun _ => 0) qword1 (s.desc (lastSlot n)) := by
    rw [htail]
    exact updDesc_self s _ _
  have filled : Finishes completions n s t :=
    .desc s _ _ _ _ (h.ahead _ (lastSlot_lt pos) (Nat.le_refl _)) fun _ => allowed
  have round : May (Finishes completions n) ChainLost pollRound t := by
    refine may_pollRound ?_ ?_ fun count u hqueue hmode => ?_
    · rw [State.owned, hdesc]
      exact hown
    · rw [hdesc, tchained.mode_eq]
      exact hrej
    · rw [htail, tchained.num_eq]
      exact may_reset_lastSlot pos hsize (tchained.of_queue hqueue hmode) breaks count
  exact .env filled round.seq.seq.seq

/-- The tail comes to the slot that it starts over from, by induction on the slots before
it. -/
theorem may_lose_chain (m : Nat) (hm : k + m = lastSlot n) (h : AheadOf n dma mode k s) :
    May (Finishes completions n) ChainLost (runPolls (List.replicate (m + 1) 1)) s := by
  induction m generalizing k s with
  | zero =>
      obtain rfl : k = lastSlot n := hm
      exact may_reject_lastSlot pos hsize breaks allowed hown hrej [] h
  | succ m ih =>
      obtain ⟨t, s', steps, hexec, h'⟩ := h.next completions (by omega)
      have rest := ih (by omega) h'
      have poll : ((do let _ ← xpnetRxQueueProcess 1; pure ()) : RxProg Unit).exec t =
          some ((), s') := Prog.exec_bind_some.mpr ⟨_, s', hexec, rfl⟩
      have more : May (Finishes completions n) ChainLost
          ((do let _ ← xpnetRxQueueProcess 1; pure ()) >>= fun _ =>
            runPolls (List.replicate (m + 1) 1)) t := .later poll rest
      exact more.reach (.steps .start steps)

end Lost

end Break

/-! ### Every run -/

section Every

variable {completions : BitVec 64 → Nat → Prop} {n dma : Nat} {bufs : Nat → Image × Nat}
  {s₀ : State}

/-- The queue of `xpnet_rx_queue_init` is chained, and all the device's. -/
theorem aheadOf_init (pos : 0 < n) (init : s₀.queue = xpnetRxQueueInit n dma bufs) :
    AheadOf n dma s₀.mode 0 s₀ := by
  obtain ⟨hlinked, harmed⟩ := linkAndEnable_spec (q := filledQueue n dma bufs) pos
    fun _ _ => ⟨rfl, rfl⟩
  rw [← xpnetRxQueueInit_eq] at hlinked harmed
  refine ⟨⟨rfl, by rw [init]; rfl, by rw [init]; rfl, ?_, by rwa [init]⟩, by rw [init]; rfl, ?_⟩
  · rw [init]
    exact Nat.zero_le _
  · intro i hi _
    have hbits : (s₀.desc i).qword0 = ownBit := by
      rw [State.desc, init]
      exact harmed i hi
    rw [State.owned, hbits]
    exact ownership_ownBit

/-- **The chain of the receive descriptors.** After `xpnet_rx_queue_init`, over every
sequence of polls, with the device completing descriptors between any two actions: the
chain keeps its shape in every state, and the device stops at its end, exactly when the
device completes the slot that the tail starts over from with nothing that a poll
rejects (or the link to the first slot is the end of the chain, at address 0). -/
theorem rx_chain_kept_iff (n dma : Nat) (bufs : Nat → Image × Nat)
    (completions : BitVec 64 → Nat → Prop) (s₀ : State) (pos : 0 < n) (hsize : n < 2 ^ 32)
    (init : s₀.queue = xpnetRxQueueInit n dma bufs) :
    (∀ polls p s tr, Reach (Finishes completions n) (fun _ _ => True) (runPolls polls) s₀ p s tr →
      ChainKept n s) ↔
      (dma = 0 ∧ lastSlot n = n - 1) ∨ ∀ qword0 qword1, completions qword0 qword1 →
        ownership qword0 = false → ¬ Rejected s₀.mode qword0 qword1 := by
  have start := aheadOf_init pos init
  constructor
  · intro kept
    refine or_iff_not_imp_left.mpr fun hend qword0 qword1 allowed hown hrej => ?_
    have breaks : ¬ Relinks n dma (lastSlot n) := not_or.mpr ⟨fun h => h rfl, hend⟩
    obtain ⟨p, s, tr, _, run, _, hlost⟩ := may_lose_chain pos hsize breaks allowed hown hrej
      (lastSlot n) (Nat.zero_add _) start
    exact hlost (kept _ p s tr run).1
  · intro hgood polls p s tr run
    have polled : Polled completions n dma s₀.mode s₀ := by
      refine ⟨start.chained, fun hown => ?_⟩
      have howned := start.ahead (lastSlot n) (lastSlot_lt pos) (Nat.zero_le _)
      cases hown.symm.trans howned
    have chained := (run.upholds (chains_runPolls pos hsize hgood polls polled)).holds
    exact chainKept_of_linked pos chained.num_eq chained.linked

end Every

/-- A device that completes packets of 100 bytes in the last slot, and anything in the
others. -/
theorem rx_chain_kept_packets :
    (∀ polls p s tr, Reach (Finishes (fun qword0 qword1 => qword0 = 0 ∧ qword1 = 100 * 2 ^ 16)
      xpnetRxNumDescs) (fun _ _ => True) (runPolls polls)
      (freshState .b0Compressed xpnetRxNumDescs) p s tr → ChainKept xpnetRxNumDescs s) ∧
    ∀ qword0 qword1, qword0 = 0 ∧ qword1 = 100 * 2 ^ 16 → ownership qword0 = false →
      ¬ Rejected .b0Compressed qword0 qword1 := by
  have hgood : ∀ qword0 qword1, qword0 = 0 ∧ qword1 = 100 * 2 ^ 16 → ownership qword0 = false →
      ¬ Rejected .b0Compressed qword0 qword1 := by
    rintro _ _ ⟨rfl, rfl⟩ -
    unfold Rejected
    decide
  exact ⟨(rx_chain_kept_iff xpnetRxNumDescs xpnetDescSize _ _
    (freshState .b0Compressed xpnetRxNumDescs) (by decide) (by decide) rfl).mpr (.inr hgood), hgood⟩

/-- The device fills the ring but for its last slot, and reports an error there. -/
def errorInLast : List (Option (State → State)) :=
  List.replicate 9 (some completeByte) ++ some (envMove (.fault 1 (fun _ => 0) 0)) ::
    List.replicate 150 none

/-- After an error in the last slot it is linked to the first. -/
theorem rx_chain_closed :
    ¬ ∀ n s₀, Initial n s₀ → ∀ polls p s tr,
      Reach Env (fun _ _ => True) (runPolls polls) s₀ p s tr → ChainKept n s := by
  intro kept
  have moves : ∀ f, some f ∈ errorInLast → ∀ s, Env s (f s) := by
    intro f hf s
    rcases List.mem_append.mp hf with hf | hf
    · cases List.eq_of_mem_replicate hf
      exact ⟨_, rfl⟩
    · rcases List.mem_cons.mp hf with hf | hf
      · cases hf
        exact ⟨_, rfl⟩
      · cases List.eq_of_mem_replicate hf
  obtain ⟨_, run⟩ := Reach.of_play_free (runPolls [10]) (freshState .b0Compressed xpnetRxNumDescs)
    errorInLast moves
  have hlinked := (kept _ _ (initial_freshState .b0Compressed xpnetRxNumDescs) _ _ _ _ run).1
  have hclosed : (((runPolls [10]).play errorInLast
      (freshState .b0Compressed xpnetRxNumDescs)).2.desc 9).qword3 = xpnetDescSize := by
    decide +kernel
  have hend := (hlinked 9 (by decide +kernel)).2
  exact absurd (hclosed.symm.trans hend) (by decide +kernel)

end XpNet.Rx

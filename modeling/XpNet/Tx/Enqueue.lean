/-
One frame on its way into the ring, phase by phase, under any behaviour of the
device: the copy to its buffers (`Copying`), the setup of its descriptors
(`Setup`), the frame with EOP on its last descriptor (`Ready`), and the frame
handed over (`Handed`).

Each phase has a lemma for every kind of store made in it, which gives the
guarantee of the store and the phase it leads to.
-/

import XpNet.Tx.Discipline

namespace XpNet.Tx

open XpNet.Interference

/-! ### The copy -/

/-- While a frame of `k` shards is copied. -/
structure Copying (c : Prop) (r : Ring) (a0 : Bool) (k : Nat) (s : State) : Prop where
  base : Base r a0 s
  armed : s.armed = []
  free : c ∨ a0 = false → ∀ i ∈ slots r.size r.tail k, s.owned i = false

theorem env_stable_copying (c : Prop) (r : Ring) (a0 : Bool) (k : Nat) :
    Stable Env (Copying c r a0 k) := fun s s' h copying =>
  ⟨env_stable_base r a0 s s' h copying.base, env_stable_armed (· = []) s s' h copying.armed,
    fun hc i hi => env_stable_free i s s' h (copying.free hc i hi)⟩

/-- Stores to `buf_sta` leave the phase. -/
theorem Copying.bufWrite {c : Prop} {r : Ring} {a0 : Bool} {k : Nat} {s : State} {lab : Ev}
    {f : Desc → Desc} (size : RingSize r.size) (hk : k ≤ r.free) (copying : Copying c r a0 k s)
    {i : Nat} (hi : i ∈ slots r.size r.tail k) (h : BufWrite i lab f) :
    TxGuar c s lab (s.updDesc i f) ∧ Copying c r a0 k (s.updDesc i f) := by
  have hq0 : ∀ d, (f d).qword0 = d.qword0 := fun d => (h.fields d).1
  have base' : Base r a0 (s.updDesc i f) :=
    copying.base.upd_quiet i (fun d => ⟨(h.fields d).2.2.2.2.1, (h.fields d).2.2.2.1⟩) hq0
  refine ⟨copying.base.guar size base' (by cases h <;> trivial) fun j hj => ?_, base',
    copying.armed, fun hc j hj => ?_⟩
  · rw [h.target] at hj
    cases hj
    refine ⟨r.slots_subset_freeRegion hk hi, fun hc hown => ?_⟩
    rw [copying.free hc i hi] at hown
    cases hown
  · rw [owned_updDesc_of_qword0 s i j hq0]
    exact copying.free hc j hj

/-! ### The setup of the descriptors -/

/-- The first `j` of the frame's `k` shards are set up. -/
structure Setup (r : Ring) (a0 : Bool) (k j : Nat) (s : State) : Prop where
  base : Base r a0 s
  armed : ∀ i, i ∈ s.armed ↔ ∃ m, 0 < m ∧ m < j ∧ slot r.size r.tail m = i
  headFree : s.owned r.tail = false
  free : ∀ m, j ≤ m → m < k → s.owned (slot r.size r.tail m) = false
  notEop : ∀ m < j, eop (s.desc (slot r.size r.tail m)).qword0 = false

theorem env_stable_setup (r : Ring) (a0 : Bool) (k j : Nat) : Stable Env (Setup r a0 k j) :=
  fun s s' h setup =>
    ⟨env_stable_base r a0 s s' h setup.base,
      env_stable_armed (fun l => ∀ i, i ∈ l ↔ ∃ m, 0 < m ∧ m < j ∧ slot r.size r.tail m = i)
        s s' h setup.armed,
      env_stable_free _ s s' h setup.headFree,
      fun m hj hk => env_stable_free _ s s' h (setup.free m hj hk),
      fun m hm => env_stable_eop _ false s s' h (setup.notEop m hm)⟩

/-- A frame checked free is ready to be set up. -/
theorem Copying.setup {c : Prop} {r : Ring} {a0 : Bool} {k : Nat} {s : State} (pos : 0 < k)
    (copying : Copying c r a0 k s) (free : ∀ i ∈ slots r.size r.tail k, s.owned i = false) :
    Setup r a0 k 0 s where
  base := copying.base
  armed := fun i => by
    rw [copying.armed]
    simp
  headFree := by
    have := free (slot r.size r.tail 0) (mem_slots.mpr ⟨0, pos, rfl⟩)
    rwa [slot_zero r.tail_lt] at this
  free := fun m _ hm => free _ (mem_slots.mpr ⟨m, hm, rfl⟩)
  notEop := fun m hm => by omega

section SetupSteps

variable {c : Prop} {r : Ring} {a0 : Bool} {k j : Nat} {s : State}

/-- A store of `qword[1]` or `qword[2]` of the next shard. -/
theorem Setup.quiet (size : RingSize r.size) (hk : k ≤ r.free) (hj : j < k)
    (setup : Setup r a0 k j s) (w : Fin 4) {f : Desc → Desc}
    (keeps : ∀ d, (f d).cdp = d.cdp ∧ (f d).qword3 = d.qword3)
    (qword0 : ∀ d, (f d).qword0 = d.qword0) :
    TxGuar c s (.storeQword (slot r.size r.tail j) w) (s.updDesc (slot r.size r.tail j) f) ∧
      Setup r a0 k j (s.updDesc (slot r.size r.tail j) f) := by
  have base' := setup.base.upd_quiet (slot r.size r.tail j) keeps qword0
  have hown := fun i => owned_updDesc_of_qword0 s (slot r.size r.tail j) i qword0
  refine ⟨setup.base.guar size base' trivial fun i hi => ?_, base', setup.armed, ?_, ?_, ?_⟩
  · cases hi
    refine ⟨r.slots_subset_freeRegion hk (mem_slots.mpr ⟨j, hj, rfl⟩), fun _ h => ?_⟩
    rw [setup.free j (Nat.le_refl j) hj] at h
    cases h
  · rw [hown]
    exact setup.headFree
  · intro m hjm hm
    rw [hown]
    exact setup.free m hjm hm
  · intro m hm
    by_cases hme : slot r.size r.tail m = slot r.size r.tail j
    · rw [hme, updDesc_self, qword0, ← hme]
      exact setup.notEop m hm
    · rw [updDesc_of_ne _ _ hme]
      exact setup.notEop m hm

/-- The store of `qword[0]` of the next shard, armed or not. -/
theorem Setup.store (size : RingSize r.size) (hk : k ≤ r.free) (hj : j < k)
    (setup : Setup r a0 k j s) {q : BitVec 64} (notEop : eop q = false) (arm : List Nat)
    (sub : ∀ x ∈ s.armed, x ∈ arm)
    (armed : ∀ i, i ∈ arm ↔ ∃ m, 0 < m ∧ m < j + 1 ∧ slot r.size r.tail m = i)
    (own : ownership q = true → 0 < j) :
    TxGuar c s (.storeQword (slot r.size r.tail j) 0)
        { s.updDesc (slot r.size r.tail j) (setQword0 q) with armed := arm } ∧
      Setup r a0 k (j + 1)
        { s.updDesc (slot r.size r.tail j) (setQword0 q) with armed := arm } := by
  have hsize := r.busy_add_free
  have distinct : ∀ m < k, m ≠ j → slot r.size r.tail m ≠ slot r.size r.tail j := fun m hm hne h =>
    hne (slot_inj r.tail_lt (by omega) (by omega) h)
  have base' := setup.base.upd (slot r.size r.tail j) (f := setQword0 q) arm (fun _ => ⟨rfl, rfl⟩)
    sub fun h => .inr ((armed _).mpr ⟨j, own h, by omega, rfl⟩)
  have other : ∀ m < k, m ≠ j →
      ({ s.updDesc (slot r.size r.tail j) (setQword0 q) with armed := arm } : State).desc
        (slot r.size r.tail m) = s.desc (slot r.size r.tail m) :=
    fun m hm hne => updDesc_of_ne s _ (distinct m hm hne)
  have this : ({ s.updDesc (slot r.size r.tail j) (setQword0 q) with armed := arm } : State).desc
      (slot r.size r.tail j) = setQword0 q (s.desc (slot r.size r.tail j)) := updDesc_self s _ _
  refine ⟨setup.base.guar size base' trivial fun i hi => ?_, base', armed, ?_, ?_, ?_⟩
  · cases hi
    refine ⟨r.slots_subset_freeRegion hk (mem_slots.mpr ⟨j, hj, rfl⟩), fun _ h => ?_⟩
    rw [setup.free j (Nat.le_refl j) hj] at h
    cases h
  · -- the head stays free: it is this shard, stored without the bit, or another one
    by_cases h0 : j = 0
    · have hhead : slot r.size r.tail j = r.tail := by rw [h0, slot_zero r.tail_lt]
      rw [hhead] at this
      rw [hhead, State.owned, this]
      change ownership q = false
      by_contra h
      exact absurd (own (by simpa using h)) (by omega)
    · have hhead := other 0 (by omega) (Ne.symm h0)
      rw [slot_zero r.tail_lt] at hhead
      rw [State.owned, hhead]
      exact setup.headFree
  · intro m hjm hm
    rw [State.owned, other m hm (by omega)]
    exact setup.free m (by omega) hm
  · intro m hm
    by_cases hmj : m = j
    · subst hmj
      rw [this]
      exact notEop
    · rw [other m (by omega) hmj]
      exact setup.notEop m (by omega)

/-- **The setup loop** sets up the shards left, and ends at the last one. -/
theorem wp_setupShards {asm : State → Ev → Prop} (size : RingSize r.size) (hk : k ≤ r.free)
    (max : Nat) : ∀ {j last : Nat} {s : State}, j + max = k → Setup r a0 k j s →
    (0 < j → last = slot r.size r.tail (j - 1)) → 0 < k →
    wp Env asm (TxGuar c) (setupShards r.size r.tail last (slot r.size r.tail j) max)
      (fun last t => last = slot r.size r.tail (k - 1) ∧ Setup r a0 k k t) s := by
  induction max with
  | zero =>
      intro j last s hj setup hlast pos
      have hjk : j = k := by omega
      subst hjk
      exact wp_ret (env_stable_setup r a0 j j) setup fun t ht => ⟨hlast pos, ht⟩
  | succ max ih =>
      intro j last s hj setup _ pos
      have hsize := r.busy_add_free
      have hjk : j < k := by omega
      have stable := env_stable_setup r a0 k j
      have hnext : xpnetAddAndWrap (slot r.size r.tail j) 1 r.size = slot r.size r.tail (j + 1) := by
        rw [xpnetAddAndWrap_eq size (Nat.le_of_lt (slot_lt size.pos _ _)) size.pos, slot_slot]
      have htail : slot r.size r.tail j = r.tail ↔ j = 0 := by
        constructor
        · intro h
          refine slot_inj r.tail_lt (by omega) size.pos ?_
          rw [h, slot_zero r.tail_lt]
        · rintro rfl
          exact slot_zero r.tail_lt
      apply wp_write stable setup
      intro t ht _
      obtain ⟨hg, ht'⟩ := ht.quiet (c := c) size hk hjk 2 (f := fun d => { d with qword2 := d.bufSta.dma })
        (fun _ => ⟨rfl, rfl⟩) fun _ => rfl
      refine ⟨hg, wp_write stable ht' fun u hu _ => ?_⟩
      obtain ⟨hg, hu'⟩ := hu.quiet (c := c) size hk hjk 1 (f := fun d => { d with qword1 := d.bufSta.len })
        (fun _ => ⟨rfl, rfl⟩) fun _ => rfl
      refine ⟨hg, ?_⟩
      have rest : ∀ {v : State}, Setup r a0 k (j + 1) v →
          wp Env asm (TxGuar c) (setupShards r.size r.tail (slot r.size r.tail j)
            (xpnetAddAndWrap (slot r.size r.tail j) 1 r.size) max)
            (fun last t => last = slot r.size r.tail (k - 1) ∧ Setup r a0 k k t) v := by
        intro v hv
        rw [hnext]
        exact ih (by omega) hv (fun _ => by simp) pos
      by_cases h0 : j = 0
      · -- the first descriptor: SOP, and not the device's yet
        rw [if_pos (htail.mpr h0)]
        apply wp_write stable hu'
        intro v hv _
        obtain ⟨hg, hv'⟩ := hv.store (c := c) size hk hjk (q := sopBit) (by decide) v.armed
          (fun _ h => h) (fun i => by rw [hv.armed]; subst h0; constructor <;> rintro ⟨m, h⟩ <;> omega)
          (fun h => by simp at h)
        exact ⟨hg, rest hv'⟩
      · rw [if_neg (fun h => h0 (htail.mp h))]
        apply wp_write stable hu'
        intro v hv _
        have harm : ∀ i, i ∈ slot r.size r.tail j :: v.armed ↔
            ∃ m, 0 < m ∧ m < j + 1 ∧ slot r.size r.tail m = i := by
          intro i
          rw [List.mem_cons, hv.armed]
          constructor
          · rintro (rfl | ⟨m, hm0, hm, rfl⟩)
            · exact ⟨j, by omega, by omega, rfl⟩
            · exact ⟨m, hm0, by omega, rfl⟩
          · rintro ⟨m, hm0, hm, rfl⟩
            by_cases hmj : m = j
            · exact .inl (by rw [hmj])
            · exact .inr ⟨m, hm0, by omega, rfl⟩
        obtain ⟨hg, hv'⟩ := hv.store (c := c) size hk hjk (q := ownBit) (by decide)
          (slot r.size r.tail j :: v.armed) (fun _ h => List.mem_cons_of_mem _ h) harm
          (fun _ => by omega)
        exact ⟨hg, rest hv'⟩

end SetupSteps

/-! ### The hand-over -/

/-- The frame is complete in memory, and its SOP descriptor is the host's. -/
structure Ready (r : Ring) (a0 : Bool) (k : Nat) (s : State) : Prop where
  base : Base r a0 s
  armed : ∀ i ∈ s.armed, ∃ m, 0 < m ∧ m < k ∧ slot r.size r.tail m = i
  headFree : s.owned r.tail = false
  lastOnly : ∀ m < k, eop (s.desc (slot r.size r.tail m)).qword0 = decide (m + 1 = k)

theorem env_stable_ready (r : Ring) (a0 : Bool) (k : Nat) : Stable Env (Ready r a0 k) :=
  fun s s' h ready =>
    ⟨env_stable_base r a0 s s' h ready.base,
      env_stable_armed (fun l => ∀ i ∈ l, ∃ m, 0 < m ∧ m < k ∧ slot r.size r.tail m = i)
        s s' h ready.armed,
      env_stable_free _ s s' h ready.headFree,
      fun m hm => env_stable_eop _ _ s s' h (ready.lastOnly m hm)⟩

/-- The frame is handed over: what it armed lies in its own slots. -/
structure Handed (r : Ring) (a0 : Bool) (k : Nat) (s : State) : Prop where
  base : Base r a0 s
  armed : ∀ i ∈ s.armed, i ∈ slots r.size r.tail k

theorem env_stable_handed (r : Ring) (a0 : Bool) (k : Nat) : Stable Env (Handed r a0 k) :=
  fun s s' h handed =>
    ⟨env_stable_base r a0 s s' h handed.base,
      env_stable_armed (fun l => ∀ i ∈ l, i ∈ slots r.size r.tail k) s s' h handed.armed⟩

section HandOver

variable {c : Prop} {r : Ring} {a0 : Bool} {k : Nat} {s : State}

/-- The store of EOP to the last descriptor, with a `qword[0]` that was loaded
while the descriptor may have been the device's already. -/
theorem Setup.storeEop (size : RingSize r.size) (hk : k ≤ r.free) (pos : 0 < k)
    (setup : Setup r a0 k k s) {q : BitVec 64} (own : k = 1 → ownership q = false) :
    TxGuar c s (.storeQword (slot r.size r.tail (k - 1)) 0)
        (s.updDesc (slot r.size r.tail (k - 1)) (setQword0 (q ||| eopBit))) ∧
      Ready r a0 k (s.updDesc (slot r.size r.tail (k - 1)) (setQword0 (q ||| eopBit))) := by
  have hsize := r.busy_add_free
  have htail : r.tail ∉ s.armed := by
    intro h
    obtain ⟨m, hm0, hm, heq⟩ := (setup.armed _).mp h
    have := slot_inj r.tail_lt (show m < r.size by omega) size.pos
      (heq.trans (slot_zero r.tail_lt).symm)
    omega
  -- a frame of several shards has armed its last descriptor
  have hlast : 1 < k → slot r.size r.tail (k - 1) ∈ s.armed := fun h =>
    (setup.armed _).mpr ⟨k - 1, by omega, by omega, rfl⟩
  have hone : k = 1 → slot r.size r.tail (k - 1) = r.tail := by
    rintro rfl
    exact slot_zero r.tail_lt
  have base' := setup.base.upd (slot r.size r.tail (k - 1)) (f := setQword0 (q ||| eopBit)) s.armed
    (fun _ => ⟨rfl, rfl⟩) (fun _ h => h) fun h => by
      by_cases hk1 : k = 1
      · have hq := own hk1
        simp [setQword0, hq] at h
      · exact .inr (hlast (by omega))
  refine ⟨setup.base.guar size base' trivial fun i hi => ?_, base', fun i hi => ?_, ?_, ?_⟩
  · cases hi
    refine ⟨r.slots_subset_freeRegion hk (mem_slots.mpr ⟨k - 1, by omega, rfl⟩), fun _ hown => ?_⟩
    by_cases hk1 : k = 1
    · rw [hone hk1, setup.headFree] at hown
      cases hown
    · exact ⟨hlast (by omega), htail⟩
  · exact (setup.armed i).mp hi
  · by_cases hk1 : k = 1
    · rw [State.owned, hone hk1, updDesc_self]
      simp [setQword0, own hk1]
    · have hne : r.tail ≠ slot r.size r.tail (k - 1) := by
        intro h
        have := slot_inj r.tail_lt size.pos (show k - 1 < r.size by omega)
          ((slot_zero r.tail_lt).trans h)
        omega
      rw [State.owned, updDesc_of_ne _ _ hne]
      exact setup.headFree
  · intro m hm
    by_cases hmk : m = k - 1
    · rw [hmk, updDesc_self]
      simp [setQword0, show k - 1 + 1 = k by omega]
    · have hne : slot r.size r.tail m ≠ slot r.size r.tail (k - 1) := fun h =>
        hmk (slot_inj r.tail_lt (by omega) (by omega) h)
      rw [updDesc_of_ne _ _ hne, setup.notEop m hm]
      simp [show ¬ m + 1 = k by omega]

/-- **The hand-over** of the SOP descriptor, with a `qword[0]` loaded before. -/
theorem Ready.handOver (size : RingSize r.size) (hk : k ≤ r.free) (pos : 0 < k)
    (ready : Ready r a0 k s) {q : BitVec 64} (hq : eop q = decide (0 + 1 = k)) :
    TxGuar c s (.handOver r.tail k)
        { s.updDesc r.tail (setQword0 (q ||| ownBit)) with armed := r.tail :: s.armed } ∧
      Handed r a0 k
        { s.updDesc r.tail (setQword0 (q ||| ownBit)) with armed := r.tail :: s.armed } := by
  have hsize := r.busy_add_free
  have base' := ready.base.upd r.tail (f := setQword0 (q ||| ownBit)) (r.tail :: s.armed)
    (fun _ => ⟨rfl, rfl⟩) (fun _ h => List.mem_cons_of_mem _ h) fun _ => .inr List.mem_cons_self
  have hfree : r.tail ∈ r.freeRegion :=
    r.slots_subset_freeRegion hk (mem_slots.mpr ⟨0, pos, slot_zero r.tail_lt⟩)
  have heop : ∀ m < k, eop ((s.updDesc r.tail (setQword0 (q ||| ownBit))).desc
      (slot r.size r.tail m)).qword0 = decide (m + 1 = k) := by
    intro m hm
    by_cases hm0 : m = 0
    · rw [hm0, slot_zero r.tail_lt, updDesc_self]
      simpa [setQword0] using hq
    · have hne : slot r.size r.tail m ≠ r.tail := fun h =>
        hm0 (slot_inj r.tail_lt (by omega) size.pos (h.trans (slot_zero r.tail_lt).symm))
      rw [updDesc_of_ne _ _ hne]
      exact ready.lastOnly m hm
  refine ⟨⟨rfl, fun _ i hi hown => ?_, ?_, ?_⟩, base', fun i hi => ?_⟩
  · cases hi
    rw [ready.headFree] at hown
    cases hown
  · rintro t' k' heq
    cases heq
    have hnum : s.queue.xpqNumDesc = r.size := ready.base.indices.numDesc
    have walk := follow_frame_iff base'.linked (t := r.tail) (k := k)
      (by rw [base'.indices.numDesc]; exact r.tail_lt) pos
      (by rw [base'.indices.numDesc]; omega)
      (by rw [base'.indices.numDesc]; exact heop)
    rw [ready.base.flag]
    exact ⟨ready.base.indices.tail.symm, walk⟩
  · intro ha
    refine ready.base.fifoOk size base' (ready.base.flag ▸ ha) (fun same => same) fun i hi => ?_
    cases hi
    exact hfree
  · rcases List.mem_cons.mp hi with rfl | hi
    · exact mem_slots.mpr ⟨0, pos, slot_zero r.tail_lt⟩
    · obtain ⟨m, -, hm, heq⟩ := ready.armed i hi
      exact mem_slots.mpr ⟨m, hm, heq⟩

theorem wp_kickQueue {asm : State → Ev → Prop} (size : RingSize r.size) (isA0 : Bool) (tail : Nat)
    (handed : Handed r a0 k s) :
    wp Env asm (TxGuar c) (kickQueue isA0 tail) (fun _ t => Handed r a0 k t) s := by
  have stable := env_stable_handed r a0 k
  have register : ∀ {t : State} (cdp cmd : Nat), Handed r a0 k t →
      Handed r a0 k { t with cdpReg := cdp, cmdReg := cmd } := fun _ _ ht =>
    ⟨⟨⟨ht.base.indices.numDesc, ht.base.indices.head, ht.base.indices.tail⟩, ht.base.flag,
      ht.base.linked, ht.base.fifo⟩, ht.armed⟩
  unfold kickQueue
  cases isA0 with
  | false => exact wp_ret stable handed fun _ h => h
  | true =>
      apply wp_write stable handed
      intro t ht _
      have ht' := register (t.queue.dma + tail * xpnetDescSize) t.cmdReg ht
      refine ⟨ht.base.guar_none size ht'.base trivial rfl, ?_⟩
      apply wp_act stable ht'
      intro u hu _
      have hu' := register u.cdpReg (8 ||| 0) hu
      exact ⟨hu.base.guar_none size hu'.base trivial rfl, wp_ret stable hu' fun _ h => h⟩

theorem wp_handOverShards {asm : State → Ev → Prop} (size : RingSize r.size) (hk : k ≤ r.free)
    (pos : 0 < k) (setup : Setup r a0 k k s) :
    wp Env asm (TxGuar c) (handOverShards r.tail (slot r.size r.tail (k - 1)) k)
      (fun _ t => Handed r a0 k t) s := by
  have stableS := env_stable_setup r a0 k k
  have stableR := env_stable_ready r a0 k
  refine wp_look stableS setup fun t ht _ => ⟨ht.base.guar_none size ht.base trivial rfl, ?_⟩
  have own : k = 1 → ownership (t.desc (slot r.size r.tail (k - 1))).qword0 = false := by
    intro hk1
    have := ht.headFree
    rwa [State.owned, ← slot_zero r.tail_lt, ← show k - 1 = 0 by omega] at this
  apply wp_write stableS ht
  intro u hu _
  obtain ⟨hg, hu'⟩ := hu.storeEop (c := c) size hk pos own
  refine ⟨hg, wp_write stableR hu' fun v hv _ => ?_⟩
  have hv' : Ready r a0 k (v.updDesc r.tail fun d => { d with numShards := k }) := by
    refine ⟨hv.base.upd_quiet _ (fun _ => ⟨rfl, rfl⟩) fun _ => rfl, hv.armed, ?_, fun m hm => ?_⟩
    · rw [owned_updDesc_of_qword0 v _ _ (f := fun d => { d with numShards := k }) fun _ => rfl]
      exact hv.headFree
    · by_cases hme : slot r.size r.tail m = r.tail
      · rw [hme, updDesc_self, ← hme]
        exact hv.lastOnly m hm
      · rw [updDesc_of_ne _ _ hme]
        exact hv.lastOnly m hm
  refine ⟨hv.base.guar_none size hv'.base trivial rfl, ?_⟩
  refine wp_look stableR hv' fun w hw _ => ⟨hw.base.guar_none size hw.base trivial rfl, ?_⟩
  have hq : eop (w.desc r.tail).qword0 = decide (0 + 1 = k) := by
    have := hw.lastOnly 0 pos
    rwa [slot_zero r.tail_lt] at this
  apply wp_write stableR hw
  intro x hx _
  obtain ⟨hg, hx'⟩ := hx.handOver (c := c) size hk pos hq
  refine ⟨hg, wp_look (env_stable_handed r a0 k) hx' fun y hy _ => ?_⟩
  exact ⟨hy.base.guar_none size hy.base trivial rfl, wp_kickQueue size _ _ hy⟩

/-- `__xpnet_skb_stat_enqueue` hands the frame over or leaves the ring alone. -/
theorem wp_skbStatEnqueue_of_copying {asm : State → Ev → Prop} (size : RingSize r.size)
    (hk : k ≤ r.free) (pos : 0 < k) (copying : Copying c r a0 k s) :
    wp Env asm (TxGuar c) (xpnetSkbStatEnqueue k)
      (fun res t => Base r a0 t ∧ (res = .ok → Handed r a0 k t) ∧ (res ≠ .ok → t.armed = [])) s := by
  have stable := env_stable_copying c r a0 k
  refine wp_look stable copying fun t ht _ => ⟨ht.base.guar_none size ht.base trivial rfl, ?_⟩
  simp only [id, ht.base.indices.numDesc, ht.base.indices.tail]
  have check : wp Env asm (TxGuar c) (checkShards r.size r.tail k) (fun res u => Copying c r a0 k u ∧
      (res = .ok → ∀ i ∈ slots r.size r.tail k, u.owned i = false)) t := by
    refine wp_checkShards stable size env_stable_free ?_ (fun _ _ _ h => h) ?_ r.tail_lt ?_ ht
    · exact fun u i hu => hu.base.guar_none size hu.base trivial rfl
    · exact fun u i hu => hu.base.guar_none size hu.base trivial rfl
    · -- a busy shard is one the device still owns, which only A0 can show
      intro u v i hi hu hv hown
      refine ⟨rfl, fun _ j hj => (by cases hj), fun _ _ hlab => (by cases hlab), fun ha => ?_⟩
      have := hu.free (.inr (hv.base.flag ▸ ha)) i hi
      rw [hown] at this
      cases this
  apply wp_seq check
  intro res u hu
  obtain ⟨hu, free⟩ := hu
  cases res with
  | ok =>
      have loop : wp Env asm (TxGuar c)
          (setupShards r.size r.tail r.tail (slot r.size r.tail 0) k)
          (fun last v => last = slot r.size r.tail (k - 1) ∧ Setup r a0 k k v) u :=
        wp_setupShards size hk k (Nat.zero_add k) (hu.setup pos (free rfl))
          (fun h => absurd h (Nat.lt_irrefl 0)) pos
      rw [slot_zero r.tail_lt] at loop
      apply wp_seq loop
      intro last v hv
      obtain ⟨rfl, hv⟩ := hv
      apply wp_seq (wp_handOverShards size hk pos hv)
      intro _ w hw
      exact wp_ret (env_stable_handed r a0 k) hw fun x hx => ⟨hx.base, fun _ => hx, by simp⟩
  | queueBusy => exact wp_ret stable hu fun v hv => ⟨hv.base, by simp, fun _ => hv.armed⟩
  | queueError => exact wp_ret stable hu fun v hv => ⟨hv.base, by simp, fun _ => hv.armed⟩

end HandOver

end XpNet.Tx

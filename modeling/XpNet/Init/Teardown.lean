/-
What the teardowns and the failing setups of the queues leave.

A teardown returns exactly when its queues can be taken down (`teardown_isSome`). It
keeps `q->va`, so the next one frees the block of the descriptors again
(`teardown_frees_twice`), and that of the TX queues clears the pointers of the
descriptors, so the next one does not return.

The init of a queue that is refused some memory undoes itself, and the setup then
takes the queues before it down (`setup_refused`). Whether all queues can be taken
down once more after that depends on where the memory ran out (`rxSetup_removable`,
`txSetup_removable`).
-/

import XpNet.Init.Balance

namespace XpNet.Init

open XpNet.Intf (enomem)

/-- What every step of a loop in `Option` keeps, the loop keeps. -/
theorem foldlM_keeps {σ ι : Type} {f : σ → ι → Option σ} {R : σ → σ → Prop}
    (refl : ∀ s, R s s) (trans : ∀ s s' s'', R s s' → R s' s'' → R s s'')
    (step : ∀ s i s', f s i = some s' → R s s') {is : List ι} :
    ∀ {s s' : σ}, is.foldlM f s = some s' → R s s' := by
  induction is with
  | nil =>
      intro s s' heq
      cases heq
      exact refl s
  | cons i rest ih =>
      intro s s' heq
      rw [List.foldlM_cons] at heq
      obtain ⟨s₁, hstep, heq⟩ := Option.bind_eq_some_iff.mp heq
      exact trans s s₁ s' (step s i s₁ hstep) (ih heq)

/-! ### One queue taken down -/

/-- What an uninit of descriptors keeps of a queue: its pointer and its count, missing
buffers and pointers, and for RX the pointers that are there. -/
structure Kept (u : Uninit) (q q' : XpnetQueue) : Prop where
  va : q'.va = q.va
  numDesc : q'.xpqNumDesc = q.xpqNumDesc
  bufs : ∀ n, (q.xpqDescMeta n).bufVa = none → (q'.xpqDescMeta n).bufVa = none
  descs : ∀ n, (q.xpqDescMeta n).va = none → (q'.xpqDescMeta n).va = none
  keeps : u.keepVa = true → ∀ n, (q'.xpqDescMeta n).va = (q.xpqDescMeta n).va

section Uninit

variable {u : Uninit} {l l' : Ledger Resource} {q q' q'' : XpnetQueue}

theorem Kept.refl (q : XpnetQueue) : Kept u q q :=
  ⟨rfl, rfl, fun _ h => h, fun _ h => h, fun _ _ => rfl⟩

theorem Kept.trans (h : Kept u q q') (h' : Kept u q' q'') : Kept u q q'' :=
  ⟨h'.va.trans h.va, h'.numDesc.trans h.numDesc, fun n hn => h'.bufs n (h.bufs n hn),
    fun n hn => h'.descs n (h.descs n hn), fun hu n => (h'.keeps hu n).trans (h.keeps hu n)⟩

/-- A pointer that is there afterwards was there before. -/
theorem Kept.isSome (h : Kept u q q') {n : Nat} (hn : (q'.xpqDescMeta n).va.isSome = true) :
    (q.xpqDescMeta n).va.isSome = true := by
  by_contra hnone
  rw [h.descs n (by simpa using hnone)] at hn
  cases hn

theorem Kept.removable (h : Kept u q q') (hrem : Removable q') : Removable q :=
  fun n hn => h.isSome (hrem n (h.numDesc.symm ▸ hn))

theorem Kept.stays_removable (h : Kept u q q') (hu : u.keepVa = true) (hrem : Removable q) :
    Removable q' := by
  intro n hn
  rw [h.keeps hu n]
  exact hrem n (h.numDesc ▸ hn)

theorem within_dmaFree (len : Nat) (va : Option Nat) (l : Ledger Resource) :
    l.Within (dmaFreeCoherent len va l) := by
  cases va with
  | none => exact Ledger.Within.refl l
  | some block => exact Ledger.within_release l _ block

/-- What one descriptor's uninit does to the queue. -/
theorem descUninit_keeps {n : Nat} (h : descUninit u (q, l) n = some (q', l')) :
    (q.xpqDescMeta n).va.isSome = true ∧ Kept u q q' ∧ l.Within l' ∧
      (u.keepVa = false → (q'.xpqDescMeta n).va = none) := by
  unfold descUninit at h
  dsimp only at h
  by_cases hva : (q.xpqDescMeta n).va.isNone = true
  · rw [if_pos hva] at h
    cases h
  · rw [if_neg hva] at h
    cases h
    refine ⟨by simpa [Option.isSome_iff_ne_none] using hva,
      ⟨rfl, rfl, fun m hm => ?_, fun m hm => ?_, fun hu m => ?_⟩, within_dmaFree _ _ _,
      fun hu => ?_⟩
    · by_cases hmn : m = n
      · subst hmn
        rw [setDesc_self]
      · rw [setDesc_of_ne hmn]
        exact hm
    · by_cases hmn : m = n
      · subst hmn
        rw [hm] at hva
        exact absurd rfl hva
      · rw [setDesc_of_ne hmn]
        exact hm
    · by_cases hmn : m = n
      · subst hmn
        rw [setDesc_self, hu]
        rfl
      · rw [setDesc_of_ne hmn]
    · rw [setDesc_self, hu]
      rfl

theorem descsUninit_keeps {ns : List Nat}
    (h : ns.foldlM (descUninit u) (q, l) = some (q', l')) : Kept u q q' ∧ l.Within l' :=
  foldlM_keeps (R := fun (s s' : XpnetQueue × Ledger Resource) => Kept u s.1 s'.1 ∧ s.2.Within s'.2)
    (fun s => ⟨Kept.refl s.1, Ledger.Within.refl s.2⟩)
    (fun _ _ _ h h' => ⟨h.1.trans h'.1, h.2.trans h'.2⟩)
    (fun _ _ _ hstep => (descUninit_keeps hstep).2.imp_right And.left) h

/-- An uninit that returns has found every pointer. -/
theorem descsUninit_isSome {ns : List Nat} :
    ∀ {q : XpnetQueue} {l : Ledger Resource},
      ns.foldlM (descUninit u) (q, l) = some (q', l') →
      ∀ n ∈ ns, (q.xpqDescMeta n).va.isSome = true := by
  induction ns with
  | nil => exact fun _ n hn => by cases hn
  | cons m rest ih =>
      intro q l h n hn
      rw [List.foldlM_cons] at h
      obtain ⟨⟨q₁, l₁⟩, hstep, hrest⟩ := Option.bind_eq_some_iff.mp h
      obtain ⟨hva, hkept, -⟩ := descUninit_keeps hstep
      rcases List.mem_cons.mp hn with rfl | hn
      · exact hva
      · exact hkept.isSome (ih hrest n hn)

/-- A queue is taken down: its block is freed, and for TX no descriptor has its pointer
any more. -/
theorem queueUninit_keeps {metaIdx : Nat} (h : queueUninit u metaIdx q l = some (q', l')) :
    Kept u q q' ∧ l.Within l' ∧
      (∀ block, q.va = some block →
        ∃ l₁, l.Within l₁ ∧ (l₁.release (.dma descsLen) block).Within l') ∧
      (u.keepVa = false → 0 < metaIdx → (q'.xpqDescMeta 0).va = none) := by
  obtain ⟨⟨q₁, l₁⟩, hdescs, heq⟩ := Option.map_eq_some_iff.mp h
  cases heq
  obtain ⟨hkept, hwithin⟩ := descsUninit_keeps hdescs
  refine ⟨hkept, hwithin.trans (within_dmaFree _ _ _), fun block hblock => ?_, fun hu hpos => ?_⟩
  · refine ⟨l₁, hwithin, ?_⟩
    change (l₁.release (.dma descsLen) block).Within (dmaFreeCoherent descsLen q₁.va l₁)
    rw [hkept.va, hblock]
    exact Ledger.Within.refl _
  · -- the first descriptor comes first, and stays without its pointer
    obtain ⟨m, rfl⟩ := Nat.exists_eq_succ_of_ne_zero hpos.ne'
    rw [List.range_succ_eq_map, List.foldlM_cons] at hdescs
    obtain ⟨⟨q₂, l₂⟩, hfirst, hrest⟩ := Option.bind_eq_some_iff.mp hdescs
    exact (descsUninit_keeps hrest).1.descs 0 ((descUninit_keeps hfirst).2.2.2 hu)

theorem queueUninit_isSome {metaIdx : Nat} (h : queueUninit u metaIdx q l = some (q', l')) :
    ∀ n < metaIdx, (q.xpqDescMeta n).va.isSome = true := by
  obtain ⟨_, hdescs, -⟩ := Option.map_eq_some_iff.mp h
  exact fun n hn => descsUninit_isSome hdescs n (List.mem_range.mpr hn)

end Uninit

/-! ### Several queues taken down -/

section Uninits

variable {u : Uninit} {l l' : Ledger Resource} {queues queues' : Queues}

theorem uninitQueue_keeps {i : Nat} (h : uninitQueue u (queues, l) i = some (queues', l')) :
    (∀ j, Kept u (queues j) (queues' j)) ∧ l.Within l' ∧ (∀ j, j ≠ i → queues' j = queues j) ∧
      queueUninit u (queues i).xpqNumDesc (queues i) l = some (queues' i, l') := by
  obtain ⟨⟨q, l₁⟩, hq, heq⟩ := Option.map_eq_some_iff.mp h
  cases heq
  refine ⟨fun j => ?_, (queueUninit_keeps hq).2.1, fun j hj => by simp [hj], by simpa using hq⟩
  by_cases hj : j = i
  · subst hj
    simpa using (queueUninit_keeps hq).1
  · simpa [hj] using Kept.refl (queues j)

theorem uninitQueues_keeps {is : List Nat}
    (h : is.foldlM (uninitQueue u) (queues, l) = some (queues', l')) :
    (∀ j, Kept u (queues j) (queues' j)) ∧ l.Within l' :=
  foldlM_keeps (R := fun (s s' : Queues × Ledger Resource) =>
      (∀ j, Kept u (s.1 j) (s'.1 j)) ∧ s.2.Within s'.2)
    (fun s => ⟨fun j => Kept.refl (s.1 j), Ledger.Within.refl s.2⟩)
    (fun _ _ _ h h' => ⟨fun j => (h.1 j).trans (h'.1 j), h.2.trans h'.2⟩)
    (fun _ _ _ hstep => ⟨(uninitQueue_keeps hstep).1, (uninitQueue_keeps hstep).2.1⟩) h

/-- The queues that a teardown does not come to stay as they are. -/
theorem uninitQueues_others {is : List Nat} {j : Nat} (hj : j ∉ is) :
    ∀ {queues : Queues} {l : Ledger Resource},
      is.foldlM (uninitQueue u) (queues, l) = some (queues', l') → queues' j = queues j := by
  induction is with
  | nil =>
      intro queues l h
      cases h
      rfl
  | cons i rest ih =>
      intro queues l h
      obtain ⟨hne, hj⟩ := not_or.mp (mt List.mem_cons.mpr hj)
      rw [List.foldlM_cons] at h
      obtain ⟨⟨queues₁, l₁⟩, hstep, hrest⟩ := Option.bind_eq_some_iff.mp h
      rw [ih hj hrest, (uninitQueue_keeps hstep).2.2.1 j hne]

/-- Each queue of a teardown that returns could be taken down, has its block freed, and
for TX no pointer left. -/
theorem uninitQueues_frees {is : List Nat} {i : Nat} (hi : i ∈ is) :
    ∀ {queues : Queues} {l : Ledger Resource},
      is.foldlM (uninitQueue u) (queues, l) = some (queues', l') →
      Removable (queues i) ∧
      (∀ block, (queues i).va = some block →
        ∃ l₁, l.Within l₁ ∧ (l₁.release (.dma descsLen) block).Within l') ∧
      (u.keepVa = false → 0 < (queues i).xpqNumDesc → ((queues' i).xpqDescMeta 0).va = none) := by
  induction is with
  | nil => cases hi
  | cons j rest ih =>
      intro queues l heq
      rw [List.foldlM_cons] at heq
      obtain ⟨⟨queues₁, l₁⟩, hstep, hrest⟩ := Option.bind_eq_some_iff.mp heq
      obtain ⟨hkept, hwithin, -, hone⟩ := uninitQueue_keeps hstep
      by_cases hij : i = j
      · subst hij
        obtain ⟨-, -, hfrees, hclears⟩ := queueUninit_keeps hone
        obtain ⟨hkept', hwithin'⟩ := uninitQueues_keeps hrest
        refine ⟨queueUninit_isSome hone, fun block hblock => ?_,
          fun hu hpos => (hkept' i).descs 0 (hclears hu hpos)⟩
        obtain ⟨l₂, hl₂, hrelease⟩ := hfrees block hblock
        exact ⟨l₂, hl₂, hrelease.trans hwithin'⟩
      · have hmem : i ∈ rest := (List.mem_cons.mp hi).resolve_left hij
        obtain ⟨hrem, hfrees, hclears⟩ := ih hmem hrest
        rw [(hkept i).va] at hfrees
        rw [(hkept i).numDesc] at hclears
        refine ⟨(hkept i).removable hrem, fun block hblock => ?_, hclears⟩
        obtain ⟨l₂, hl₂, hrelease⟩ := hfrees block hblock
        exact ⟨l₂, hwithin.trans hl₂, hrelease⟩

/-- A teardown returns exactly when its queues can be taken down. -/
theorem teardown_isSome (u : Uninit) (num : Nat) (queues : Queues) (l : Ledger Resource) :
    (queuesTeardown u num queues l).isSome = true ↔ ∀ i < num, Removable (queues i) := by
  constructor
  · intro h i hi
    obtain ⟨⟨queues', l'⟩, heq⟩ := Option.isSome_iff_exists.mp h
    exact (uninitQueues_frees (List.mem_range.mpr hi) heq).1
  · intro hrem
    obtain ⟨queues', l', heq, -⟩ := teardown_owes (u := u) l hrem
    rw [heq]
    rfl

/-- A block that is already freed when its queue is taken down. -/
theorem teardown_frees_twice {num i block : Nat} {l'' : Ledger Resource}
    (h : queuesTeardown u num queues l = some (queues', l')) (hi : i < num)
    (hva : (queues i).va = some block) (hfreed : block ∈ l.names) (hlater : l'.Within l'') :
    ¬ l''.Sound := by
  obtain ⟨l₁, hwithin, hrelease⟩ :=
    (uninitQueues_frees (List.mem_range.mpr hi) h).2.1 block hva
  exact Ledger.not_sound_of_release (hwithin.names hfreed) (hrelease.trans hlater)

end Uninits

/-! ### A queue that is refused memory -/

/-- The queue gets all its memory. -/
def QueueMemory.Grants (mem : QueueMemory) : Prop :=
  mem.descs = true ∧ ∀ n < xpnetRxNumDescs, mem.buf n = true

/-- The init of a queue that fails, and has released what it obtained. -/
def UndoesItself (init : QueueInit) : Prop :=
  ∀ (q : XpnetQueue) (l : Ledger Resource),
    ∃ rc q' l', init q l = some (rc, q', l') ∧ rc < 0 ∧ ∀ owned, l.Owes owned → l'.Owes owned

section Refusal

variable {u : Uninit} {mem : QueueMemory}

/-- The loop over RX descriptors stops at the first that gets no buffer, which it leaves as
it was. -/
theorem rxDescsInit_refused {n : Nat} (hn : n < xpnetRxNumDescs) (hno : mem.buf n ≠ true)
    (hbefore : ∀ k < n, mem.buf k = true) {q : XpnetQueue} (hva : q.va.isSome = true)
    (l : Ledger Resource) :
    ∃ q' l', descsInit (rxDescInit mem) (List.range xpnetRxNumDescs) q l =
        (some (n, -enomem), q', l') ∧
      q' = { q with xpqDescMeta := q'.xpqDescMeta } ∧
      (∀ k < n, (q'.xpqDescMeta k).va = q.va) ∧ q'.xpqDescMeta n = q.xpqDescMeta n ∧
      OwesMore l l' (bufsOwned rxUninit q' (List.range n)) := by
  obtain ⟨rest, hrange⟩ := range_split hn
  obtain ⟨q', l', hloop, hq', hup, hsame, howes⟩ := descsInit_owes (u := rxUninit)
    (fun _ d => d.bufVa.isSome = true ∧ d.bufLen = xpnetMaxPacketSize) List.nodup_range
    (fun k hk => rxDescInit_owes (hbefore k (List.mem_range.mp hk))) (l := l) hva
  have hfail : descsInit (rxDescInit mem) (n :: rest) q' l' = (some (n, -enomem), q', l') := by
    have henomem : -enomem ≠ 0 := by decide
    simp [descsInit, rxDescInit, xpnetPreallocBuf, dmaAllocCoherent, hno, henomem]
  refine ⟨q', l', ?_, hq', fun k hk => (hup k (List.mem_range.mpr hk)).1, hsame n (by simp), howes⟩
  rw [hrange, descsInit_append (n :: rest) hloop, hfail]

/-- An RX queue that does not get all its memory. Without its block it is as it was.
Otherwise it keeps the pointer to the block, which is freed, and counts descriptors of
which one has neither its pointer nor a buffer, unless they were there before. -/
theorem rxQueueInit_refused (h : ¬ mem.Grants) (q : XpnetQueue) (l : Ledger Resource) :
    ∃ q' l', xpnetRxQueueInit mem q l = some (-enomem, q', l') ∧
      (∀ owned, l.Owes owned → l'.Owes owned) ∧
      (mem.descs = false ∧ q' = { q with va := none } ∨
        mem.descs = true ∧ q'.xpqNumDesc = xpnetRxNumDescs ∧
          (∃ block, q'.va = some block ∧ block ∈ l'.names) ∧
          ∃ n < xpnetRxNumDescs,
            ((q.xpqDescMeta n).va = none → (q'.xpqDescMeta n).va = none) ∧
            ((q.xpqDescMeta n).bufVa = none → (q'.xpqDescMeta n).bufVa = none)) := by
  by_cases hdescs : mem.descs = true
  · obtain ⟨n, hn, hno, hbefore⟩ := exists_first fun hbufs => h ⟨hdescs, hbufs⟩
    obtain ⟨q₁, l₁, hloop, hq₁, hup, hsame, howes⟩ := rxDescsInit_refused hn hno hbefore
      (q := { q with
        va := some (l.obtain (.dma descsLen)).1
        xpqNumDesc := xpnetRxNumDescs
        status := some .stopped }) rfl (l.obtain (.dma descsLen)).2
    have hva : q₁.va = some (l.obtain (.dma descsLen)).1 := by rw [hq₁]
    obtain ⟨q₂, l₂, huninit, howes₂⟩ := firstUninit_owes (u := rxUninit) l₁
      (fun k hk => by rw [hup k hk]; rfl : ∀ k < n, (q₁.xpqDescMeta k).va.isSome = true)
    have hinit : xpnetRxQueueInit mem q l = some (-enomem, q₂, l₂) := by
      simp only [xpnetRxQueueInit, dmaAllocCoherent, hdescs, if_true, Option.isNone_some,
        Bool.false_eq_true, if_false]
      rw [hloop, finishInit, xpnetRxQueueUninit, huninit]
      rfl
    obtain ⟨hkept, -, hfrees, -⟩ := queueUninit_keeps huninit
    refine ⟨q₂, l₂, hinit, fun owned owes => ?_, Or.inr ⟨hdescs, ?_, ⟨_, hkept.va.trans hva, ?_⟩,
      n, hn, fun hnone => ?_, fun hnone => ?_⟩⟩
    · apply howes₂
      rw [add_assoc, hva]
      exact howes _ (owes.obtain (.dma descsLen))
    · rw [hkept.numDesc, hq₁]
    · obtain ⟨l₃, -, hrelease⟩ := hfrees _ hva
      exact hrelease.names List.mem_cons_self
    · exact hkept.descs n (by rw [hsame]; exact hnone)
    · exact hkept.bufs n (by rw [hsame]; exact hnone)
  · refine ⟨{ q with va := none }, l, ?_, fun _ owes => owes, Or.inl ⟨by simpa using hdescs, rfl⟩⟩
    simp [xpnetRxQueueInit, dmaAllocCoherent, hdescs]

/-- A TX queue that does not get its block counts its descriptors all the same. -/
theorem txQueueInit_refused (h : ¬ mem.descs = true) (q : XpnetQueue) (l : Ledger Resource) :
    xpnetTxQueueInit mem q l =
      some (-enomem, { q with xpqNumDesc := xpnetTxNumDescs, va := none }, l) := by
  simp [xpnetTxQueueInit, dmaAllocCoherent, h]

theorem rxQueueInit_undoes (h : ¬ mem.Grants) : UndoesItself (xpnetRxQueueInit mem) := by
  intro q l
  obtain ⟨q', l', hinit, howes, -⟩ := rxQueueInit_refused h q l
  exact ⟨-enomem, q', l', hinit, by decide, howes⟩

theorem txQueueInit_undoes (h : ¬ mem.descs = true) : UndoesItself (xpnetTxQueueInit mem) :=
  fun q l => ⟨_, _, l, txQueueInit_refused h q l, by decide, fun _ owes => owes⟩

end Refusal

/-! ### A setup that is refused memory -/

section Setups

variable {u : Uninit}

/-- A setup in which some queue is refused comes to the first such, with the ones before
it up; that one undoes itself, and the teardown undoes the ones before it. -/
theorem setup_refused (granted : Nat → Prop) (good : Nat → Nat → XpnetDesc → Prop)
    {init : Nat → QueueInit} (inits : ∀ i, granted i → InitsQueue u (good i) (init i))
    (undoes : ∀ i, ¬ granted i → UndoesItself (init i)) {num : Nat}
    (h : ¬ ∀ i < num, granted i) (queues : Queues) (l : Ledger Resource) :
    ∃ j queues₁ l₁ l₂ rc queues' l', j < num ∧ ¬ granted j ∧ (∀ i < j, granted i) ∧
      init j (queues j) l₁ = some (rc, queues₁ j, l₂) ∧ rc < 0 ∧
      (∀ i < j, QueueUp (good i) (queues₁ i)) ∧ (∀ i, j < i → queues₁ i = queues i) ∧
      queuesTeardown u j queues₁ l₂ = some (queues', l') ∧
      queuesSetup u init (List.range num) queues l = some (rc, queues', l') ∧
      ∀ owned, l.Owes owned → l'.Owes owned := by
  obtain ⟨j, hj, hno, hbefore⟩ := exists_first h
  obtain ⟨rest, hrange⟩ := range_split hj
  obtain ⟨queues₀, l₁, heq, hup, hsame, howes⟩ := setup_owes good List.nodup_range
    (fun i hi => inits i (hbefore i (List.mem_range.mp hi))) queues l
  obtain ⟨rc, q, l₂, hinit, hrc, howes₂⟩ := undoes j hno (queues₀ j) l₁
  have hstays : ∀ i < j, Function.update queues₀ j q i = queues₀ i := fun i hi =>
    Function.update_of_ne hi.ne _ _
  have hups : ∀ i < j, QueueUp (good i) (Function.update queues₀ j q i) := fun i hi => by
    rw [hstays i hi]
    exact hup i (List.mem_range.mpr hi)
  obtain ⟨queues', l', hdown, howes₃⟩ := teardown_owes (u := u) l₂
    (fun i hi => (hups i hi).removable)
  rw [queuesOwned_congr fun i hi => hstays i (List.mem_range.mp hi)] at howes₃
  refine ⟨j, Function.update queues₀ j q, l₁, l₂, rc, queues', l', hj, hno, hbefore, ?_, hrc, hups,
    fun i hi => ?_, hdown, ?_, fun owned owes => howes₃ _ (howes₂ _ (howes _ owes))⟩
  · rw [Function.update_self, ← hsame j (by simp)]
    exact hinit
  · rw [Function.update_of_ne hi.ne', hsame i (by simpa using hi.le)]
  · rw [hrange, queuesSetup_append heq, queuesSetup, hinit]
    simp only [Option.bind_some, if_pos hrc, hdown, Option.map_some]

theorem removable_zeroQueue : Removable zeroQueue := fun n hn => absurd hn (Nat.not_lt_zero n)

/-- When all queues can be taken down after a setup: each queue that it came to got its
memory, or was left such that it can be. -/
theorem setup_removable (granted left : Nat → Prop) (good : Nat → Nat → XpnetDesc → Prop)
    {init : Nat → QueueInit} (inits : ∀ i, granted i → InitsQueue u (good i) (init i))
    (undoes : ∀ i, ¬ granted i → UndoesItself (init i))
    (leaves : ∀ i l rc q l', ¬ granted i → init i zeroQueue l = some (rc, q, l') →
      (Removable q ↔ left i))
    (keeps : ∀ i, left i → u.keepVa = true) (num : Nat) (l : Ledger Resource) :
    ∃ rc queues' l',
      queuesSetup u init (List.range num) (fun _ => zeroQueue) l = some (rc, queues', l') ∧
      ((∀ i < num, Removable (queues' i)) ↔
        ∀ i < num, (∀ k < i, granted k) → granted i ∨ left i) := by
  by_cases hall : ∀ i < num, granted i
  · obtain ⟨queues', l', heq, hup, -, -⟩ := setup_owes good List.nodup_range
      (fun i hi => inits i (hall i (List.mem_range.mp hi))) (fun _ => zeroQueue) l
    exact ⟨0, queues', l', heq, iff_of_true (fun i hi => (hup i (List.mem_range.mpr hi)).removable)
      fun i hi _ => Or.inl (hall i hi)⟩
  · obtain ⟨j, queues₁, l₁, l₂, rc, queues', l', hj, hno, hbefore, hinit, -, hup, hafter, hdown,
      heq, -⟩ := setup_refused granted good inits undoes hall (fun _ => zeroQueue) l
    have hsame : ∀ i, j ≤ i → queues' i = queues₁ i := fun i hi =>
      uninitQueues_others (by simpa using hi) hdown
    have hrefused := leaves j l₁ rc _ l₂ hno hinit
    refine ⟨rc, queues', l', heq, fun hrem i hi hfirst => ?_, fun hcomes => ?_⟩
    · rcases lt_trichotomy i j with hlt | rfl | hgt
      · exact Or.inl (hbefore i hlt)
      · rw [← hsame i le_rfl] at hrefused
        exact Or.inr (hrefused.mp (hrem i hi))
      · exact absurd (hfirst j hgt) hno
    · have hleft := (hcomes j hj hbefore).resolve_left hno
      intro i hi
      rcases lt_trichotomy i j with hlt | rfl | hgt
      · exact ((uninitQueues_keeps hdown).1 i).stays_removable (keeps j hleft)
          (hup i hlt).removable
      · rw [hsame i le_rfl]
        exact hrefused.mpr hleft
      · rw [hsame i hgt.le, hafter i hgt]
        exact removable_zeroQueue

/-- The RX setup: the first queue that does not get all its memory does not even get its
block. -/
theorem rxSetup_removable (mem : Nat → QueueMemory) (num : Nat) (l : Ledger Resource) :
    ∃ rc queues' l', xpnetRxQueueSetup mem num (fun _ => zeroQueue) l = some (rc, queues', l') ∧
      ((∀ i < num, Removable (queues' i)) ↔
        ∀ i < num, (∀ k < i, (mem k).Grants) → (mem i).Grants ∨ (mem i).descs = false) := by
  refine setup_removable (fun i => (mem i).Grants) (fun i => (mem i).descs = false) _
    (fun i hgrant => rxQueueInit_owes hgrant.1 hgrant.2) (fun i hno => rxQueueInit_undoes hno)
    (fun i l rc q l' hno hinit => ?_) (fun _ _ => rfl) num l
  obtain ⟨q', l'', hinit', -, hcases⟩ := rxQueueInit_refused hno zeroQueue l
  rw [hinit'] at hinit
  cases hinit
  rcases hcases with ⟨hdescs, rfl⟩ | ⟨hdescs, hnum, -, n, hn, hva, -⟩
  · exact iff_of_true removable_zeroQueue hdescs
  · refine iff_of_false (fun hrem => ?_) (by simp [hdescs])
    have hsome := hrem n (by rw [hnum]; exact hn)
    rw [hva rfl] at hsome
    cases hsome

/-- The TX setup: every queue gets its block. -/
theorem txSetup_removable (mem : Nat → QueueMemory) (num : Nat) (l : Ledger Resource) :
    ∃ rc queues' l', xpnetTxQueueSetup mem num (fun _ => zeroQueue) l = some (rc, queues', l') ∧
      ((∀ i < num, Removable (queues' i)) ↔ ∀ i < num, (mem i).descs = true) := by
  obtain ⟨rc, queues', l', heq, hiff⟩ := setup_removable (fun i => (mem i).descs = true)
    (fun _ => False) _ (fun i hgrant => txQueueInit_owes hgrant)
    (fun i hno => txQueueInit_undoes hno)
    (fun i l rc q l' hno hinit => by
      rw [txQueueInit_refused hno] at hinit
      cases hinit
      exact iff_of_false (fun hrem => absurd (hrem 0 (by decide)) (by simp [zeroQueue])) id)
    (fun _ => False.elim) num l
  refine ⟨rc, queues', l', heq, hiff.trans ?_⟩
  constructor
  · -- the queues before one that is granted are granted
    intro hcomes i
    induction i using Nat.strong_induction_on with
    | _ i ih => exact fun hi => (hcomes i hi fun k hk => ih k hk (hk.trans hi)).resolve_right id
  · exact fun hall i hi _ => Or.inl (hall i hi)

end Setups

end XpNet.Init

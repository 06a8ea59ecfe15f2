/-
The balance of the queues' memory: what a queue owns, that a teardown releases it and
nothing else, and that a setup which gets its descriptor blocks leaves each queue
up and with what it owns.

`queueOwned` counts what the uninit of a queue would release. A queue can be taken
down when every descriptor it counts has its pointer; the uninit of any other writes
through `NULL`.
-/

import XpNet.Init.Queues

namespace XpNet.Init

open XpNet.Intf (enomem)
open XpNet.Pci (pageSize)

/-- The length of the block of a queue's descriptors. -/
abbrev descsLen : Nat := xpnetCeilLen (xpnetRxNumDescs * xpnetDescSize) pageSize

/-! ### What a queue owns -/

/-- The block a pointer names. -/
def ptrOwned (len : Nat) : Option Nat → Multiset (Resource × Nat)
  | some block => {(.dma len, block)}
  | none => 0

/-- The buffer of a descriptor. -/
def descOwned (u : Uninit) (d : XpnetDesc) : Multiset (Resource × Nat) :=
  ptrOwned (u.freeLen d) d.bufVa

/-- The buffers of some descriptors of a queue. -/
def bufsOwned (u : Uninit) (q : XpnetQueue) (ns : List Nat) : Multiset (Resource × Nat) :=
  (ns.map fun n => descOwned u (q.xpqDescMeta n)).sum

/-- What the uninit of a queue releases. -/
def queueOwned (u : Uninit) (q : XpnetQueue) : Multiset (Resource × Nat) :=
  bufsOwned u q (List.range q.xpqNumDesc) + ptrOwned descsLen q.va

/-- What the uninit of some queues releases. -/
def queuesOwned (u : Uninit) (queues : Queues) (is : List Nat) : Multiset (Resource × Nat) :=
  (is.map fun i => queueOwned u (queues i)).sum

/-- Every descriptor that the queue counts has its pointer. -/
def Removable (q : XpnetQueue) : Prop :=
  ∀ n < q.xpqNumDesc, (q.xpqDescMeta n).va.isSome = true

section Owned

variable {u : Uninit} {q : XpnetQueue} {queues : Queues}

@[simp] theorem setDesc_va (n : Nat) (d : XpnetDesc) : (q.setDesc n d).va = q.va := rfl
@[simp] theorem setDesc_numDesc (n : Nat) (d : XpnetDesc) :
    (q.setDesc n d).xpqNumDesc = q.xpqNumDesc := rfl
@[simp] theorem setDesc_self (n : Nat) (d : XpnetDesc) : (q.setDesc n d).xpqDescMeta n = d :=
  Function.update_self _ _ _
theorem setDesc_of_ne {n m : Nat} (h : m ≠ n) (d : XpnetDesc) :
    (q.setDesc n d).xpqDescMeta m = q.xpqDescMeta m := Function.update_of_ne h _ _

theorem bufsOwned_congr {q' : XpnetQueue} {ns : List Nat}
    (h : ∀ n ∈ ns, q'.xpqDescMeta n = q.xpqDescMeta n) : bufsOwned u q' ns = bufsOwned u q ns := by
  unfold bufsOwned
  congr 1
  exact List.map_congr_left fun n hn => by rw [h n hn]

theorem queuesOwned_congr {queues' : Queues} {is : List Nat}
    (h : ∀ i ∈ is, queues' i = queues i) : queuesOwned u queues' is = queuesOwned u queues is := by
  unfold queuesOwned
  congr 1
  exact List.map_congr_left fun i hi => by rw [h i hi]

@[simp] theorem queuesOwned_cons (i : Nat) (is : List Nat) :
    queuesOwned u queues (i :: is) = queueOwned u (queues i) + queuesOwned u queues is := rfl

end Owned

/-! ### Teardown -/

/-- What is owed in the second ledger is that of the first one without `less`. -/
def OwesLess (l l' : Ledger Resource) (less : Multiset (Resource × Nat)) : Prop :=
  ∀ owned, l.Owes (less + owned) → l'.Owes owned

section Teardown

variable {u : Uninit} {l l' l'' : Ledger Resource} {less less' : Multiset (Resource × Nat)}

theorem OwesLess.refl (l : Ledger Resource) : OwesLess l l 0 := fun owned owes => by
  rwa [zero_add] at owes

theorem OwesLess.trans (h : OwesLess l l' less) (h' : OwesLess l' l'' less') :
    OwesLess l l'' (less + less') := by
  intro owned owes
  rw [add_assoc] at owes
  exact h' _ (h _ owes)

theorem dmaFree_owes (len : Nat) (va : Option Nat) (l : Ledger Resource) :
    OwesLess l (dmaFreeCoherent len va l) (ptrOwned len va) := by
  cases va with
  | none => exact OwesLess.refl l
  | some block => exact fun _ owes => owes.release

/-- The uninit of descriptors that have their pointers releases their buffers. -/
theorem descsUninit_owes {ns : List Nat} (hnodup : ns.Nodup) :
    ∀ {q : XpnetQueue} (l : Ledger Resource), (∀ n ∈ ns, (q.xpqDescMeta n).va.isSome = true) →
      ∃ q' l', ns.foldlM (descUninit u) (q, l) = some (q', l') ∧ q'.va = q.va ∧
        OwesLess l l' (bufsOwned u q ns) := by
  induction ns with
  | nil => exact fun {q} l _ => ⟨q, l, rfl, rfl, OwesLess.refl l⟩
  | cons n rest ih =>
      intro q l hva
      obtain ⟨hnot, hrest⟩ := List.nodup_cons.mp hnodup
      let q₁ := q.setDesc n { q.xpqDescMeta n with
        va := if u.keepVa then (q.xpqDescMeta n).va else none, bufVa := none }
      have hsame : ∀ m ∈ rest, q₁.xpqDescMeta m = q.xpqDescMeta m := fun m hm =>
        setDesc_of_ne (ne_of_mem_of_not_mem hm hnot) _
      have hstep : descUninit u (q, l) n = some (q₁, dmaFreeCoherent
          (u.freeLen (q.xpqDescMeta n)) (q.xpqDescMeta n).bufVa l) := by
        have hn := hva n List.mem_cons_self
        unfold descUninit
        rw [if_neg (by simpa using Option.isSome_iff_ne_none.mp hn)]
      obtain ⟨q', l', heq, hq', howes⟩ := ih hrest (q := q₁)
        (dmaFreeCoherent (u.freeLen (q.xpqDescMeta n)) (q.xpqDescMeta n).bufVa l)
        (fun m hm => by rw [hsame m hm]; exact hva m (List.mem_cons_of_mem _ hm))
      rw [bufsOwned_congr hsame] at howes
      refine ⟨q', l', ?_, hq', (dmaFree_owes _ _ l).trans howes⟩
      rw [List.foldlM_cons, hstep]
      exact heq

/-- The uninit of a queue's first descriptors, which have their pointers, releases their
buffers and the block. -/
theorem firstUninit_owes {metaIdx : Nat} {q : XpnetQueue} (l : Ledger Resource)
    (hva : ∀ n < metaIdx, (q.xpqDescMeta n).va.isSome = true) :
    ∃ q' l', queueUninit u metaIdx q l = some (q', l') ∧
      OwesLess l l' (bufsOwned u q (List.range metaIdx) + ptrOwned descsLen q.va) := by
  obtain ⟨q', l', heq, hva', howes⟩ := descsUninit_owes (u := u) List.nodup_range l
    (fun n hn => hva n (List.mem_range.mp hn))
  refine ⟨q', _, ?_, howes.trans (dmaFree_owes _ _ l')⟩
  rw [queueUninit, heq, ← hva']
  rfl

/-- A teardown of queues that can be taken down releases what they own. -/
theorem uninitQueues_owes {is : List Nat} (hnodup : is.Nodup) :
    ∀ {queues : Queues} (l : Ledger Resource), (∀ i ∈ is, Removable (queues i)) →
      ∃ queues' l', is.foldlM (uninitQueue u) (queues, l) = some (queues', l') ∧
        OwesLess l l' (queuesOwned u queues is) := by
  induction is with
  | nil => exact fun {queues} l _ => ⟨queues, l, rfl, OwesLess.refl l⟩
  | cons i rest ih =>
      intro queues l hrem
      obtain ⟨hnot, hrest⟩ := List.nodup_cons.mp hnodup
      obtain ⟨q', l₁, hq, howes⟩ := firstUninit_owes (u := u) l (hrem i List.mem_cons_self)
      have hsame : ∀ j ∈ rest, Function.update queues i q' j = queues j := fun j hj =>
        Function.update_of_ne (ne_of_mem_of_not_mem hj hnot) _ _
      have hleft : ∀ j ∈ rest, Removable (Function.update queues i q' j) := fun j hj => by
        rw [hsame j hj]
        exact hrem j (List.mem_cons_of_mem _ hj)
      obtain ⟨queues', l', heq, howes'⟩ := ih hrest l₁ hleft
      rw [queuesOwned_congr hsame] at howes'
      refine ⟨queues', l', ?_, ?_⟩
      · rw [List.foldlM_cons, uninitQueue, hq]
        exact heq
      · rw [queuesOwned_cons]
        exact howes.trans howes'

theorem teardown_owes {num : Nat} {queues : Queues} (l : Ledger Resource)
    (hrem : ∀ i < num, Removable (queues i)) :
    ∃ queues' l', queuesTeardown u num queues l = some (queues', l') ∧
      OwesLess l l' (queuesOwned u queues (List.range num)) :=
  uninitQueues_owes List.nodup_range l (fun i hi => hrem i (List.mem_range.mp hi))

end Teardown

/-! ### Setup -/

/-- A queue that is set up, with descriptors of a kind. -/
structure QueueUp (good : Nat → XpnetDesc → Prop) (q : XpnetQueue) : Prop where
  numDesc : q.xpqNumDesc = xpnetRxNumDescs
  status : q.status = some .active
  va : q.va.isSome = true
  descs : ∀ n < xpnetRxNumDescs, (q.xpqDescMeta n).va = q.va ∧ good n (q.xpqDescMeta n)

/-- What is owed in the second ledger is that of the first one and `more`. -/
def OwesMore (l l' : Ledger Resource) (more : Multiset (Resource × Nat)) : Prop :=
  ∀ owned, l.Owes owned → l'.Owes (more + owned)

/-- The initialiser sets a descriptor of a kind and obtains what that owns. -/
def InitsDesc (u : Uninit) (good : XpnetDesc → Prop) (init : DescInit) (n : Nat) : Prop :=
  ∀ (q : XpnetQueue) (l : Ledger Resource), q.va.isSome = true →
    ∃ d l', init n q l = (0, q.setDesc n d, l') ∧ d.va = q.va ∧ good d ∧
      OwesMore l l' (descOwned u d)

/-- The initialiser sets a queue up and obtains what that owns. -/
def InitsQueue (u : Uninit) (good : Nat → XpnetDesc → Prop) (init : QueueInit) : Prop :=
  ∀ (q : XpnetQueue) (l : Ledger Resource),
    ∃ q' l', init q l = some (0, q', l') ∧ QueueUp good q' ∧ OwesMore l l' (queueOwned u q')

theorem QueueUp.removable {good : Nat → XpnetDesc → Prop} {q : XpnetQueue}
    (up : QueueUp good q) : Removable q := by
  intro n hn
  rw [(up.descs n (up.numDesc ▸ hn)).1]
  exact up.va

section Setup

variable {u : Uninit} {l l' l'' : Ledger Resource} {more more' : Multiset (Resource × Nat)}

theorem OwesMore.refl (l : Ledger Resource) : OwesMore l l 0 := fun owned owes => by
  rwa [zero_add]

theorem OwesMore.trans (h : OwesMore l l' more) (h' : OwesMore l' l'' more') :
    OwesMore l l'' (more' + more) := by
  intro owned owes
  rw [add_assoc]
  exact h' _ (h _ owes)

theorem owesMore_obtain (l : Ledger Resource) (r : Resource) :
    OwesMore l (l.obtain r).2 {(r, (l.obtain r).1)} := fun _ owes => owes.obtain r

theorem dmaAlloc_owes (len : Nat) (grant : Bool) (l : Ledger Resource) :
    (dmaAllocCoherent grant len l).1.isSome = grant ∧
      OwesMore l (dmaAllocCoherent grant len l).2
        (ptrOwned len (dmaAllocCoherent grant len l).1) := by
  cases grant with
  | true => exact ⟨rfl, owesMore_obtain l (.dma len)⟩
  | false => exact ⟨rfl, OwesMore.refl l⟩

/-- The loop over descriptors that get their memory. -/
theorem descsInit_owes (good : Nat → XpnetDesc → Prop) {init : DescInit} {ns : List Nat}
    (hnodup : ns.Nodup) (inits : ∀ n ∈ ns, InitsDesc u (good n) init n) :
    ∀ {q : XpnetQueue} {l : Ledger Resource}, q.va.isSome = true →
      ∃ q' l', descsInit init ns q l = (none, q', l') ∧
        q' = { q with xpqDescMeta := q'.xpqDescMeta } ∧
        (∀ n ∈ ns, (q'.xpqDescMeta n).va = q.va ∧ good n (q'.xpqDescMeta n)) ∧
        (∀ m ∉ ns, q'.xpqDescMeta m = q.xpqDescMeta m) ∧ OwesMore l l' (bufsOwned u q' ns) := by
  induction ns with
  | nil =>
      intro q l _
      exact ⟨q, l, rfl, rfl, fun n hn => (by cases hn), fun _ _ => rfl, OwesMore.refl l⟩
  | cons n rest ih =>
      intro q l hva
      obtain ⟨hnot, hrest⟩ := List.nodup_cons.mp hnodup
      obtain ⟨d, l₁, hinit, hd, hgood, howes⟩ := inits n List.mem_cons_self q l hva
      obtain ⟨q', l', heq, hq', hdescs, hsame, howes'⟩ := ih hrest
        (fun m hm => inits m (List.mem_cons_of_mem _ hm)) (q := q.setDesc n d) (l := l₁) hva
      have hn : q'.xpqDescMeta n = d := by rw [hsame n hnot, setDesc_self]
      refine ⟨q', l', ?_, hq', ?_, ?_, ?_⟩
      · rw [descsInit, hinit]
        exact heq
      · intro m hm
        rcases List.mem_cons.mp hm with rfl | hm
        · rw [hn]
          exact ⟨hd, hgood⟩
        · exact hdescs m hm
      · intro m hm
        obtain ⟨hne, hm⟩ := not_or.mp (mt List.mem_cons.mpr hm)
        rw [hsame m hm, setDesc_of_ne hne]
      · rw [show bufsOwned u q' (n :: rest) = bufsOwned u q' rest + descOwned u d by
          simp [bufsOwned, hn, add_comm]]
        exact howes.trans howes'

theorem rxDescInit_owes {mem : QueueMemory} {n : Nat} (hbuf : mem.buf n = true) :
    InitsDesc rxUninit (fun d => d.bufVa.isSome = true ∧ d.bufLen = xpnetMaxPacketSize)
      (rxDescInit mem) n := by
  intro q l _
  refine ⟨⟨q.va, some (l.obtain (.dma xpnetMaxPacketSize)).1, xpnetMaxPacketSize⟩,
    (l.obtain (.dma xpnetMaxPacketSize)).2, ?_, rfl, ⟨rfl, rfl⟩, owesMore_obtain l _⟩
  simp [rxDescInit, xpnetPreallocBuf, dmaAllocCoherent, hbuf]

/-- Without its buffer a TX descriptor is initialised all the same. -/
theorem txDescInit_owes (mem : QueueMemory) (n : Nat) :
    InitsDesc txUninit (fun d => d.bufVa.isSome = mem.buf n) (xpnetTxDescInit mem) n := by
  intro q l hva
  obtain ⟨hbuf, howes⟩ := dmaAlloc_owes pageSize (mem.buf n) l
  refine ⟨⟨q.va, (dmaAllocCoherent (mem.buf n) pageSize l).1, 0⟩, _, ?_, rfl, hbuf, howes⟩
  simp [xpnetTxDescInit, Option.isSome_iff_ne_none.mp hva]

/-- What the two queue inits have in common once they have the block. -/
theorem finishInit_owes {good : Nat → XpnetDesc → Prop} {init : DescInit}
    {uninit : Nat → XpnetQueue → Ledger Resource → Option (XpnetQueue × Ledger Resource)}
    (inits : ∀ n < xpnetRxNumDescs, InitsDesc u (good n) init n) {q : XpnetQueue}
    (hnum : q.xpqNumDesc = xpnetRxNumDescs) (hva : q.va.isSome = true)
    (owes : OwesMore l l' (ptrOwned descsLen q.va)) :
    ∃ q' l'', finishInit uninit (descsInit init (List.range xpnetRxNumDescs) q l') =
      some (0, q', l'') ∧ QueueUp good q' ∧ OwesMore l l'' (queueOwned u q') := by
  obtain ⟨q', l'', heq, hq', hdescs, -, howes⟩ := descsInit_owes (u := u) good
    List.nodup_range (fun n hn => inits n (List.mem_range.mp hn)) (l := l') hva
  have hva' : q'.va = q.va := by rw [hq']
  have hnum' : q'.xpqNumDesc = q.xpqNumDesc := by rw [hq']
  rw [heq]
  refine ⟨{ q' with status := some .active }, l'', rfl, ?_, ?_⟩
  · refine ⟨hnum'.trans hnum, rfl, hva'.symm ▸ hva, fun n hn => ?_⟩
    change (q'.xpqDescMeta n).va = q'.va ∧ good n (q'.xpqDescMeta n)
    rw [hva']
    exact hdescs n (List.mem_range.mpr hn)
  · change OwesMore l l'' (bufsOwned u q' (List.range q'.xpqNumDesc) + ptrOwned descsLen q'.va)
    rw [hva', hnum', hnum]
    exact owes.trans howes

/-- An RX queue that gets all its memory. -/
theorem rxQueueInit_owes {mem : QueueMemory} (hdescs : mem.descs = true)
    (hbufs : ∀ n < xpnetRxNumDescs, mem.buf n = true) :
    InitsQueue rxUninit
      (fun _ d => d.bufVa.isSome = true ∧ d.bufLen = xpnetMaxPacketSize)
      (xpnetRxQueueInit mem) := by
  intro q l
  have heq : xpnetRxQueueInit mem q l = finishInit xpnetRxQueueUninit
      (descsInit (rxDescInit mem) (List.range xpnetRxNumDescs)
        { q with
          va := some (l.obtain (.dma descsLen)).1
          xpqNumDesc := xpnetRxNumDescs
          status := some .stopped } (l.obtain (.dma descsLen)).2) := by
    simp [xpnetRxQueueInit, dmaAllocCoherent, hdescs]
  rw [heq]
  apply finishInit_owes
  · exact fun n hn => rxDescInit_owes (hbufs n hn)
  · rfl
  · rfl
  · exact owesMore_obtain l (.dma descsLen)

/-- A TX queue that gets its block, whatever buffers it gets. -/
theorem txQueueInit_owes {mem : QueueMemory} (hdescs : mem.descs = true) :
    InitsQueue txUninit (fun n d => d.bufVa.isSome = mem.buf n) (xpnetTxQueueInit mem) := by
  intro q l
  have hlen : xpnetCeilLen (xpnetTxNumDescs * xpnetDescSize) pageSize = descsLen := rfl
  have heq : xpnetTxQueueInit mem q l = finishInit xpnetTxQueueUninit
      (descsInit (xpnetTxDescInit mem) (List.range xpnetTxNumDescs)
        { q with
          va := some (l.obtain (.dma descsLen)).1
          xpqNumDesc := xpnetTxNumDescs } (l.obtain (.dma descsLen)).2) := by
    simp [xpnetTxQueueInit, dmaAllocCoherent, hdescs, hlen]
  rw [heq]
  apply finishInit_owes
  · exact fun n _ => txDescInit_owes mem n
  · rfl
  · rfl
  · exact owesMore_obtain l (.dma descsLen)

/-- A setup whose queues all get their memory. -/
theorem setup_owes (good : Nat → Nat → XpnetDesc → Prop) {init : Nat → QueueInit}
    {is : List Nat} (hnodup : is.Nodup) (inits : ∀ i ∈ is, InitsQueue u (good i) (init i)) :
    ∀ (queues : Queues) (l : Ledger Resource),
      ∃ queues' l', queuesSetup u init is queues l = some (0, queues', l') ∧
        (∀ i ∈ is, QueueUp (good i) (queues' i)) ∧ (∀ j ∉ is, queues' j = queues j) ∧
        OwesMore l l' (queuesOwned u queues' is) := by
  induction is with
  | nil =>
      intro queues l
      exact ⟨queues, l, rfl, fun i hi => (by cases hi), fun _ _ => rfl, OwesMore.refl l⟩
  | cons i rest ih =>
      intro queues l
      obtain ⟨hnot, hrest⟩ := List.nodup_cons.mp hnodup
      obtain ⟨q, l₁, hinit, hup, howes⟩ := inits i List.mem_cons_self (queues i) l
      obtain ⟨queues', l', heq, hups, hsame, howes'⟩ := ih hrest
        (fun j hj => inits j (List.mem_cons_of_mem _ hj)) (Function.update queues i q) l₁
      have hi : queues' i = q := by rw [hsame i hnot, Function.update_self]
      refine ⟨queues', l', ?_, ?_, ?_, ?_⟩
      · rw [queuesSetup, hinit]
        exact heq
      · intro j hj
        rcases List.mem_cons.mp hj with rfl | hj
        · rw [hi]
          exact hup
        · exact hups j hj
      · intro j hj
        obtain ⟨hne, hj⟩ := not_or.mp (mt List.mem_cons.mpr hj)
        rw [hsame j hj, Function.update_of_ne hne]
      · rw [queuesOwned_cons, hi, add_comm]
        exact howes.trans howes'

/-! ### Up to the first refusal -/

theorem descsInit_append {init : DescInit} {ns : List Nat} (ms : List Nat) {q' : XpnetQueue} :
    ∀ {q : XpnetQueue} {l : Ledger Resource}, descsInit init ns q l = (none, q', l') →
      descsInit init (ns ++ ms) q l = descsInit init ms q' l' := by
  induction ns with
  | nil =>
      intro q l heq
      cases heq
      rfl
  | cons n rest ih =>
      intro q l heq
      rw [descsInit] at heq
      rw [List.cons_append, descsInit]
      dsimp only at heq ⊢
      by_cases hrc : (init n q l).1 ≠ 0
      · rw [if_pos hrc] at heq
        cases heq
      · rw [if_neg hrc] at heq ⊢
        exact ih heq

theorem queuesSetup_append {init : Nat → QueueInit} {is js : List Nat} {queues' : Queues} :
    ∀ {queues : Queues} {l : Ledger Resource},
      queuesSetup u init is queues l = some (0, queues', l') →
      queuesSetup u init (is ++ js) queues l = queuesSetup u init js queues' l' := by
  induction is with
  | nil =>
      intro queues l heq
      cases heq
      rfl
  | cons i rest ih =>
      intro queues l heq
      rw [queuesSetup] at heq
      obtain ⟨⟨rc, q, l₁⟩, hinit, heq⟩ := Option.bind_eq_some_iff.mp heq
      rw [List.cons_append, queuesSetup, hinit]
      dsimp only [Option.bind_some] at heq ⊢
      by_cases hrc : rc < 0
      · rw [if_pos hrc] at heq
        obtain ⟨s, -, hs⟩ := Option.map_eq_some_iff.mp heq
        cases hs
        exact absurd hrc (lt_irrefl 0)
      · rw [if_neg hrc] at heq ⊢
        exact ih heq

/-- The least index at which something fails. -/
theorem exists_first {p : Nat → Prop} {m : Nat} (h : ¬ ∀ n < m, p n) :
    ∃ n < m, ¬ p n ∧ ∀ k < n, p k := by
  classical
  have hsome : ∃ n, n < m ∧ ¬ p n := by
    simpa using h
  obtain ⟨hlt, hno⟩ := Nat.find_spec hsome
  refine ⟨Nat.find hsome, hlt, hno, fun k hk => ?_⟩
  by_contra hnot
  exact Nat.find_min hsome hk ⟨hk.trans hlt, hnot⟩

theorem range_split {n m : Nat} (h : n < m) :
    ∃ rest, List.range m = List.range n ++ n :: rest := by
  obtain ⟨k, rfl⟩ := Nat.exists_eq_add_of_lt h
  rw [Nat.add_assoc, List.range_add, List.range_succ_eq_map]
  exact ⟨_, rfl⟩

end Setup

end XpNet.Init

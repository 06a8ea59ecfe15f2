/-
The single stores of the host into the receive descriptors.

A descriptor that the host has given away is the device's until the device has cleared
the ownership bit. `Polite` says of a store that the host has seen this bit cleared
since it last set it. The queue is armed by one store of each `qword[0]`, after all the
others (`safe_startQueue`), and a packet that is taken has its `qword[0]` stored last.
But a descriptor that is rejected is armed twice, by `__xpnet_rx_desc_reset` and then by
`xpnet_rx_desc_enable`. So every store is polite exactly when the device completes no
descriptor that a poll rejects (`stores_polite_iff`).
-/

import XpNet.Interference.History
import XpNet.Rx.Rejects

namespace XpNet.Rx

open XpNet.Interference
open Relation (ReflTransGen)

/-! ### Arming the queue -/

/-- A round of the loop of `xpnet_queue_desc_link`. -/
def linkDesc (numDesc i : Nat) : RxProg Unit := do
  let next ← Prog.look .priv fun s => (s.desc ((i + 1) % numDesc)).cdp
  storeDesc (.storeQword i 3) i fun d => { d with qword3 := next }

/-- `xpnet_rx_queue_link_and_enable(q)`, store by store. -/
def linkAndEnable (numDesc : Nat) : RxProg Unit := do
  (List.range numDesc).forM (linkDesc numDesc)
  storeDesc (.storeQword (numDesc - 1) 3) (numDesc - 1) fun d => { d with qword3 := 0 }
  (List.range numDesc).forM xpnetRxDescEnable
  Prog.write .priv fun s =>
    { s with queue := { s.queue with head := 0, tail := 0, status := .active } }

/-- What `xpnet_rx_queue_init` and `xpnet_rx_all_queues_start` do with a queue once its
descriptors are filled in. -/
def startQueue (numDesc : Nat) : RxProg Unit := do
  linkAndEnable numDesc
  xpnetSetQCdp 0
  xpnetQueueEnable

/-- The queue of `xpnet_rx_queue_init` before it is linked. -/
def filledQueue (numDesc dma : Nat) (bufs : Nat → Image × Nat) : Queue where
  xpqNumDesc := numDesc
  status := .stopped
  tail := 0
  head := 0
  dma := dma
  descMeta := fun i => xpnetRxDescInit dma i
    { va := (bufs i).1, dma := (bufs i).2, len := xpnetMaxPacketSize }

theorem xpnetRxQueueInit_eq (n dma : Nat) (bufs : Nat → Image × Nat) :
    xpnetRxQueueInit n dma bufs = xpnetRxQueueLinkAndEnable (filledQueue n dma bufs) := rfl

section Arming

variable {n i : Nat} {s : State}

/-- A loop that changes the descriptors of a list, one after the other. -/
theorem exec_forM_upd {p : Nat → RxProg Unit} {f : Nat → Desc → Desc}
    {K : (Nat → Desc) → Prop} (keeps : ∀ (s : State) i, K s.desc → K (s.updDesc i (f i)).desc)
    (exec : ∀ i s, K s.desc → (p i).exec s = some ((), s.updDesc i (f i))) (l : List Nat)
    (nodup : l.Nodup) : ∀ s : State, K s.desc →
      (l.forM p).exec s = some ((), { s with queue := { s.queue with
        descMeta := fun j => if j ∈ l then f j (s.desc j) else s.desc j } }) := by
  induction l with
  | nil => exact fun s _ => rfl
  | cons i l ih =>
    intro s hs
    obtain ⟨hi, nodup⟩ := List.nodup_cons.mp nodup
    refine Prog.exec_bind_some.mpr ⟨(), _, exec i s hs, ?_⟩
    rw [ih nodup _ (keeps s i hs)]
    have hdesc : (fun j => if j ∈ l then f j ((s.updDesc i (f i)).desc j)
        else (s.updDesc i (f i)).desc j) =
        fun j => if j ∈ i :: l then f j (s.desc j) else s.desc j := by
      funext j
      by_cases hj : j = i
      · subst hj
        rw [if_neg hi, updDesc_self, if_pos List.mem_cons_self]
      · rw [updDesc_of_ne s _ hj]
        simp only [List.mem_cons, hj, false_or]
    rw [hdesc]
    rfl

/-- Done alone, the stores make the queue of `xpnetRxQueueLinkAndEnable`. -/
theorem exec_linkAndEnable (hn : s.queue.xpqNumDesc = n) :
    (linkAndEnable n).exec s =
      some ((), { s with queue := xpnetRxQueueLinkAndEnable s.queue }) := by
  subst hn
  let n := s.queue.xpqNumDesc
  have link := exec_forM_upd (p := linkDesc n)
    (f := fun i d => { d with qword3 := (s.desc ((i + 1) % n)).cdp })
    (K := fun desc => ∀ j, (desc j).cdp = (s.desc j).cdp) (fun t i ht j => by
      by_cases hj : j = i
      · subst hj
        rw [updDesc_self]
        exact ht j
      · rw [updDesc_of_ne t _ hj]
        exact ht j) (fun i t ht => by
      change some ((), t.updDesc i fun d => { d with qword3 := (t.desc ((i + 1) % n)).cdp }) = _
      rw [ht]) (List.range n) List.nodup_range s fun _ => rfl
  have enable := exec_forM_upd (p := xpnetRxDescEnable)
    (f := fun _ d => setQword0 (enabledBits d.qword0) d) (K := fun _ => True)
    (fun _ _ _ => trivial) (fun _ _ _ => rfl) (List.range n) List.nodup_range
  refine Prog.exec_bind_some.mpr ⟨(), _, link, ?_⟩
  refine Prog.exec_bind_some.mpr ⟨(), _, rfl, ?_⟩
  refine Prog.exec_bind_some.mpr ⟨(), _, enable _ trivial, ?_⟩
  simp only [List.mem_range]
  rfl

end Arming

/-! ### The device and the rule -/

/-- The device gives a descriptor that it owns any bytes and a `qword[0]` and `qword[1]`
of `completions`; and memory for socket buffers comes and goes. -/
inductive Completes (completions : BitVec 64 → Nat → Prop) : State → State → Prop where
  | desc (s : State) (i : Nat) (va : Image) {qword0 : BitVec 64} {qword1 : Nat}
      (own : s.owned i = true) (allowed : completions qword0 qword1) :
      Completes completions s (s.updDesc i (writeBack qword0 va qword1))
  | memory (s : State) (ok : Bool) : Completes completions s { s with allocOk := ok }

/-- Whether the host knows descriptor `i` to be its own, after an action: it no longer
does when it has stored `qword[0]`, and again when it reads it without the ownership
bit. -/
def knowsAfter (i : Nat) (known : Bool) (x : State × Ev) : Bool :=
  match x.2 with
  | .storeQword j k => if j = i ∧ k = 0 then false else known
  | .load j k => if j = i ∧ k = 0 ∧ x.1.owned i = false then true else known
  | _ => known

/-- Whether the host knows descriptor `i` to be its own; at first it owns all. -/
def knows (i : Nat) (tr : List (State × Ev)) : Bool := tr.foldl (knowsAfter i) true

/-- The descriptor that an action stores to, in its words or its buffer. -/
def storesTo : Ev → Option Nat
  | .storeBuf i => some i
  | .storeQword i _ => some i
  | _ => none

/-- A store is made to a descriptor that the device does not own, and that the host has
read so since it last gave it away. -/
def Polite (tr : List (State × Ev)) (s : State) (lab : Ev) : Prop :=
  ∀ i, storesTo lab = some i → s.owned i = false ∧ knows i tr = true

section Rule

variable {i : Nat} {s : State} {tr : List (State × Ev)}

@[simp] theorem knows_snoc (i : Nat) (tr : List (State × Ev)) (x : State × Ev) :
    knows i (tr ++ [x]) = knowsAfter i (knows i tr) x := by
  rw [knows, List.foldl_append]
  rfl

theorem polite_of_none {lab : Ev} (hlab : storesTo lab = none) : Polite tr s lab := by
  intro i hi
  rw [hlab] at hi
  cases hi

theorem polite_of_some {lab : Ev} (hlab : storesTo lab = some i) (hown : s.owned i = false)
    (hknows : knows i tr = true) : Polite tr s lab := by
  intro j hj
  obtain rfl : i = j := Option.some.inj (hlab.symm.trans hj)
  exact ⟨hown, hknows⟩

end Rule

/-! ### Arming is polite -/

/-- The host owns the descriptors of `l` and knows it; the others of the ring have been
completed where the host owns them. -/
structure Arming (completions : BitVec 64 → Nat → Prop) (n : Nat) (mode : AddressMode)
    (l : List Nat) (tr : List (State × Ev)) (s : State) : Prop where
  mode_eq : s.mode = mode
  num_eq : s.queue.xpqNumDesc = n
  host : ∀ i ∈ l, s.owned i = false ∧ knows i tr = true
  completed : ∀ i < n, i ∉ l → s.owned i = false →
    completions (s.desc i).qword0 (s.desc i).qword1

/-- The queue in use: what the host owns has been completed. -/
structure InUse (completions : BitVec 64 → Nat → Prop) (n : Nat) (mode : AddressMode)
    (s : State) : Prop where
  mode_eq : s.mode = mode
  num_eq : s.queue.xpqNumDesc = n
  tail_lt : s.queue.tail < n
  completed : ∀ i < n, s.owned i = false → completions (s.desc i).qword0 (s.desc i).qword1

section Safe

variable {completions : BitVec 64 → Nat → Prop} {n : Nat} {mode : AddressMode} {s s' : State}
  {l : List Nat} {tr : List (State × Ev)} {i : Nat} {d : Desc}

/-- The rule for programs under such a device. -/
abbrev SafeRx (completions : BitVec 64 → Nat → Prop) {α : Type} (p : RxProg α)
    (tr : List (State × Ev)) (Q : α → List (State × Ev) → State → Prop) (s : State) : Prop :=
  Safe (Completes completions) Polite p tr Q s

theorem Completes.keeps (step : Completes completions s s') (hown : s.owned i = false) :
    s'.desc i = s.desc i := by
  cases step with
  | desc j va own allowed =>
    have hne : i ≠ j := by
      rintro rfl
      rw [hown] at own
      cases own
    exact updDesc_of_ne s _ hne
  | memory ok => rfl

/-- What the host comes to own, has been completed. -/
theorem Completes.completed (step : Completes completions s s')
    (before : s.owned i = false → completions (s.desc i).qword0 (s.desc i).qword1)
    (hown : s'.owned i = false) : completions (s'.desc i).qword0 (s'.desc i).qword1 := by
  cases step with
  | desc j va own allowed =>
    by_cases hi : i = j
    · subst hi
      rw [updDesc_self]
      exact allowed
    · rw [State.owned, updDesc_of_ne s _ hi] at hown
      rw [updDesc_of_ne s _ hi]
      exact before hown
  | memory ok => exact before hown

theorem stable_arming : Stable (Completes completions) (Arming completions n mode l tr) := by
  intro s s' step inv
  refine ⟨?_, ?_, fun i hi => ?_, fun i hin hi => step.completed (inv.completed i hin hi)⟩
  · rw [← inv.mode_eq]
    cases step <;> rfl
  · rw [← inv.num_eq]
    cases step <;> rfl
  · obtain ⟨hown, hknows⟩ := inv.host i hi
    rw [State.owned, step.keeps hown]
    exact ⟨hown, hknows⟩

theorem stable_inUse : Stable (Completes completions) (InUse completions n mode) := by
  intro s s' step inv
  refine ⟨?_, ?_, ?_, fun i hin => step.completed (inv.completed i hin)⟩
  · rw [← inv.mode_eq]
    cases step <;> rfl
  · rw [← inv.num_eq]
    cases step <;> rfl
  · have := inv.tail_lt
    cases step <;> exact this

/-- A look, or a store to no descriptor. -/
theorem Arming.after (inv : Arming completions n mode l tr s) {lab : Ev}
    (hlab : ∀ i, knowsAfter i true (s, lab) = true) :
    Arming completions n mode l (tr ++ [(s, lab)]) s where
  mode_eq := inv.mode_eq
  num_eq := inv.num_eq
  host := fun i hi => by
    obtain ⟨hown, hknows⟩ := inv.host i hi
    refine ⟨hown, ?_⟩
    rw [knows_snoc, hknows]
    exact hlab i
  completed := inv.completed

theorem knowsAfter_load (s : State) (j : Nat) (k : Fin 4) (i : Nat) :
    knowsAfter i true (s, .load j k) = true := by
  unfold knowsAfter
  dsimp only
  split <;> rfl

theorem knowsAfter_store {j : Nat} {k : Fin 4} {known : Bool} (h : j ≠ i ∨ k ≠ 0) :
    knowsAfter i known (s, .storeQword j k) = known := if_neg fun hjk => h.elim (· hjk.1) (· hjk.2)

/-- A store to a word that is not `qword[0]`. -/
theorem Arming.store (inv : Arming completions n mode l tr s) (hi : i ∈ l) {k : Fin 4}
    (hk : k ≠ 0) {f : Desc → Desc} (hf : ∀ d, (f d).qword0 = d.qword0) :
    Arming completions n mode l (tr ++ [(s, .storeQword i k)]) (s.updDesc i f) := by
  refine ⟨inv.mode_eq, inv.num_eq, fun j hj => ?_, fun j hjn hj => ?_⟩
  · obtain ⟨hown, hknows⟩ := inv.host j hj
    rw [knows_snoc, knowsAfter_store (.inr hk)]
    refine ⟨?_, hknows⟩
    by_cases hji : j = i
    · subst hji
      rw [State.owned, updDesc_self, hf]
      exact hown
    · rw [State.owned, updDesc_of_ne s _ hji]
      exact hown
  · have hji : j ≠ i := fun h => hj (h ▸ hi)
    rw [State.owned, updDesc_of_ne s _ hji]
    exact inv.completed j hjn hj

/-- The store that gives the next descriptor to the device. -/
theorem Arming.give (inv : Arming completions n mode (i :: l) tr s) (hi : i ∉ l)
    {bits : BitVec 64} (hbits : ownership bits = true) :
    Arming completions n mode l (tr ++ [(s, .storeQword i 0)]) (s.updDesc i (setQword0 bits)) := by
  refine ⟨inv.mode_eq, inv.num_eq, fun j hj => ?_, fun j hjn hj => ?_⟩
  · obtain ⟨hown, hknows⟩ := inv.host j (List.mem_cons_of_mem _ hj)
    have hji : j ≠ i := fun h => hi (h ▸ hj)
    rw [knows_snoc, knowsAfter_store (.inl hji.symm), State.owned, updDesc_of_ne s _ hji]
    exact ⟨hown, hknows⟩
  · by_cases hji : j = i
    · subst hji
      intro hown
      rw [State.owned, updDesc_self] at hown
      cases hbits.symm.trans hown
    · rw [State.owned, updDesc_of_ne s _ hji]
      refine inv.completed j hjn fun hmem => ?_
      rcases List.mem_cons.mp hmem with h | h
      · exact hji h
      · exact hj h

theorem ownership_enabledBits (qword0 : BitVec 64) : ownership (enabledBits qword0) = true := by
  rw [enabledBits, ownership_or, ownership_ownBit, Bool.or_true]

theorem safe_linkDesc (hi : i ∈ l) (inv : Arming completions n mode l tr s) :
    SafeRx completions (linkDesc n i) tr (fun _ tr t => Arming completions n mode l tr t) s := by
  refine .look stable_arming inv fun t ht => ⟨polite_of_none rfl, ?_⟩
  · have ht' : Arming completions n mode l (tr ++ [(t, .priv)]) t := ht.after fun _ => rfl
    refine .act stable_arming ht' fun u hu => ⟨?_, ?_⟩
    · obtain ⟨hown, hknows⟩ := hu.host i hi
      exact polite_of_some rfl hown hknows
    · exact .ret stable_arming (hu.store hi (by decide) fun _ => rfl) fun _ h => h

theorem safe_rxDescEnable (hi : i ∉ l) (inv : Arming completions n mode (i :: l) tr s) :
    SafeRx completions (xpnetRxDescEnable i) tr
      (fun _ tr t => Arming completions n mode l tr t) s := by
  refine .look stable_arming inv fun t ht => ⟨polite_of_none rfl, ?_⟩
  have ht' := ht.after (knowsAfter_load t i 0)
  refine .act stable_arming ht' fun u hu => ⟨?_, ?_⟩
  · obtain ⟨hown, hknows⟩ := hu.host i List.mem_cons_self
    exact polite_of_some rfl hown hknows
  · exact .ret stable_arming (hu.give hi (ownership_enabledBits _)) fun _ h => h

theorem safe_linkAndEnable (pos : 0 < n) (inv : Arming completions n mode (List.range n) tr s) :
    SafeRx completions (linkAndEnable n) tr (fun _ _ t => InUse completions n mode t) s := by
  have hlast : n - 1 ∈ List.range n := List.mem_range.mpr (by omega)
  -- link every descriptor
  refine .seq (Safe.forM (I := fun l tr t => (∀ i ∈ l, i ∈ List.range n) ∧
    Arming completions n mode (List.range n) tr t) ?stable₁ ?round₁ _ ⟨fun _ h => h, inv⟩) ?last
  case stable₁ => exact fun tr s s' step h => ⟨h.1, stable_arming s s' step h.2⟩
  case round₁ =>
    rintro i l tr s ⟨hl, inv⟩
    obtain ⟨hi, hl⟩ := List.forall_mem_cons.mp hl
    exact (safe_linkDesc hi inv).mono fun _ _ _ h => ⟨hl, h⟩
  case last =>
    rintro _ tr t ⟨-, ht⟩
    refine .write stable_arming ht fun u hu => ⟨?_, ?_⟩
    · obtain ⟨hown, hknows⟩ := hu.host _ hlast
      exact polite_of_some rfl hown hknows
    -- then give them away, one by one
    refine .seq (Safe.forM (I := fun l tr t => l.Nodup ∧ Arming completions n mode l tr t)
      ?stable₂ ?round₂ _ ⟨List.nodup_range, hu.store hlast (by decide) fun _ => rfl⟩) ?done
    case stable₂ => exact fun tr s s' step h => ⟨h.1, stable_arming s s' step h.2⟩
    case round₂ =>
      rintro i l tr s ⟨nodup, inv⟩
      obtain ⟨hi, nodup⟩ := List.nodup_cons.mp nodup
      exact (safe_rxDescEnable hi inv).mono fun _ _ _ h => ⟨nodup, h⟩
    case done =>
      rintro _ tr v ⟨-, hv⟩
      refine .act stable_arming hv fun w hw => ⟨polite_of_none rfl, ?_⟩
      have inUse : InUse completions n mode
          { w with queue := { w.queue with head := 0, tail := 0, status := .active } } :=
        ⟨hw.mode_eq, hw.num_eq, pos, fun i hi => hw.completed i hi List.not_mem_nil⟩
      exact .ret stable_inUse inUse fun _ h => h

/-- An action that stores to no descriptor, in a queue in use. -/
theorem InUse.look {α β : Type} (inv : InUse completions n mode s) {lab : Ev} {g : State → α}
    {f : α → RxProg β} {Q : β → List (State × Ev) → State → Prop} (hlab : storesTo lab = none)
    (rest : ∀ t, InUse completions n mode t → SafeRx completions (f (g t)) (tr ++ [(t, lab)]) Q t) :
    SafeRx completions (Prog.look lab g >>= f) tr Q s :=
  .look stable_inUse inv fun t ht => ⟨polite_of_none hlab, rest t ht⟩

/-- A store that leaves the descriptors alone. -/
theorem InUse.write {β : Type} (inv : InUse completions n mode s) {lab : Ev} {u : State → State}
    {f : Unit → RxProg β} {Q : β → List (State × Ev) → State → Prop} (hlab : storesTo lab = none)
    (keeps : ∀ t, InUse completions n mode t → InUse completions n mode (u t))
    (rest : ∀ tr t, InUse completions n mode t → SafeRx completions (f ()) tr Q t) :
    SafeRx completions (Prog.write lab u >>= f) tr Q s :=
  .write stable_inUse inv fun t ht => ⟨polite_of_none hlab, rest _ _ (keeps t ht)⟩

theorem InUse.ret {α : Type} (inv : InUse completions n mode s) (a : α) :
    SafeRx completions (.ret a) tr (fun _ _ t => InUse completions n mode t) s :=
  .ret stable_inUse inv fun _ h => h

/-- Giving the queue its CDP and enabling it. -/
theorem safe_restart (inv : InUse completions n mode s) :
    SafeRx completions (xpnetSetQCdp 0 >>= fun _ => xpnetQueueEnable) tr
      (fun _ _ t => InUse completions n mode t) s := by
  refine inv.write rfl (fun _ h => ⟨h.mode_eq, h.num_eq, h.tail_lt, h.completed⟩) fun _ _ h => ?_
  refine .act stable_inUse h fun v hv => ⟨polite_of_none rfl, ?_⟩
  have inUse : InUse completions n mode { v with running := true } :=
    ⟨hv.mode_eq, hv.num_eq, hv.tail_lt, hv.completed⟩
  exact inUse.ret ()

theorem safe_startQueue (pos : 0 < n) (inv : Arming completions n mode (List.range n) tr s) :
    SafeRx completions (startQueue n) tr (fun _ _ t => InUse completions n mode t) s :=
  (safe_linkAndEnable pos inv).seq fun _ _ _ inUse => safe_restart inUse

end Safe

/-! ### Taking a packet is polite -/

/-- The host holds descriptor `i`, which is as `d`, and knows it. -/
structure Held (completions : BitVec 64 → Nat → Prop) (n : Nat) (mode : AddressMode) (i : Nat)
    (d : Desc) (tr : List (State × Ev)) (s : State) : Prop where
  mode_eq : s.mode = mode
  num_eq : s.queue.xpqNumDesc = n
  tail_lt : s.queue.tail < n
  desc_eq : s.desc i = d
  own : ownership d.qword0 = false
  known : knows i tr = true
  completed : ∀ j < n, j ≠ i → s.owned j = false →
    completions (s.desc j).qword0 (s.desc j).qword1

section Packets

variable {completions : BitVec 64 → Nat → Prop} {n : Nat} {mode : AddressMode} {s : State}
  {tr : List (State × Ev)} {i size : Nat} {d : Desc}

theorem Held.owned (h : Held completions n mode i d tr s) : s.owned i = false := by
  rw [State.owned, h.desc_eq]
  exact h.own

theorem stable_held : Stable (Completes completions) (Held completions n mode i d tr) := by
  intro s s' step h
  refine ⟨?_, ?_, ?_, (step.keeps h.owned).trans h.desc_eq, h.own, h.known,
    fun j hj hji => step.completed (h.completed j hj hji)⟩
  · rw [← h.mode_eq]
    cases step <;> rfl
  · rw [← h.num_eq]
    cases step <;> rfl
  · have := h.tail_lt
    cases step <;> exact this

/-- A look leaves the host with the descriptor. -/
theorem Held.look (h : Held completions n mode i d tr s) {lab : Ev}
    (hlab : knowsAfter i true (s, lab) = true) : Held completions n mode i d (tr ++ [(s, lab)]) s :=
  ⟨h.mode_eq, h.num_eq, h.tail_lt, h.desc_eq, h.own, by rw [knows_snoc, h.known]; exact hlab,
    h.completed⟩

/-- So does a store that leaves its ownership bit clear. -/
theorem Held.store (h : Held completions n mode i d tr s) {lab : Ev} {f : Desc → Desc}
    (hlab : knowsAfter i true (s, lab) = true) (hf : (f d).qword0 = d.qword0) :
    Held completions n mode i (f d) (tr ++ [(s, lab)]) (s.updDesc i f) := by
  refine ⟨h.mode_eq, h.num_eq, h.tail_lt, ?_, ?_, ?_, fun j hj hji => ?_⟩
  · rw [updDesc_self, h.desc_eq]
  · rw [hf]
    exact h.own
  · rw [knows_snoc, h.known]
    exact hlab
  · rw [State.owned, updDesc_of_ne s _ hji]
    exact h.completed j hj hji

/-- The store that gives it back. -/
theorem Held.give (h : Held completions n mode i d tr s) {bits : BitVec 64}
    (hbits : ownership bits = true) : InUse completions n mode (s.updDesc i (setQword0 bits)) := by
  refine ⟨h.mode_eq, h.num_eq, h.tail_lt, fun j hj hown => ?_⟩
  by_cases hji : j = i
  · subst hji
    rw [State.owned, updDesc_self] at hown
    cases hbits.symm.trans hown
  · rw [State.owned, updDesc_of_ne s _ hji] at hown
    rw [updDesc_of_ne s _ hji]
    exact h.completed j hj hji hown

theorem safe_swapBuffer (h : Held completions n mode i d tr s) :
    SafeRx completions (swapBuffer mode i size) tr
      (fun _ tr t => ∃ d, Held completions n mode i d tr t) s := by
  refine .look stable_held h fun t ht => ⟨polite_of_none rfl, ?_⟩
  split
  · have ht' : Held completions n mode i d (tr ++ [(t, .loadBuf i)]) t := ht.look rfl
    refine .act stable_held ht' fun u hu => ⟨polite_of_some rfl hu.owned hu.known, ?_⟩
    exact .ret stable_held (hu.store rfl rfl) fun _ h => ⟨_, h⟩
  · trivial

theorem safe_handOver (pos : 0 < n) (h : Held completions n mode i d tr s) :
    SafeRx completions (handOver n i size) tr (fun _ _ t => InUse completions n mode t) s := by
  refine .look stable_held h fun t ht => ⟨polite_of_none rfl, ?_⟩
  have ht' : Held completions n mode i d (tr ++ [(t, .loadBuf i)]) t := ht.look rfl
  refine .write stable_held ht' fun u hu => ⟨polite_of_some rfl hu.owned hu.known, ?_⟩
  have hlab : knowsAfter i true (u, .storeQword i 1) = true := knowsAfter_store (.inr (by decide))
  have hu' := hu.store (f := fun d => { d with qword1 := d.bufSta.len }) hlab rfl
  refine .write stable_held hu' fun v hv => ⟨polite_of_some rfl hv.owned hv.known, ?_⟩
  refine (hv.give ownership_ownBit).write rfl (fun _ hw => ?_) fun tr w hw => ?_
  · exact ⟨hw.mode_eq, hw.num_eq, Nat.mod_lt _ pos, hw.completed⟩
  · have restart : SafeRx completions (restartAtZero (xpnetAddAndWrap i 1 n)) tr
        (fun _ _ t => InUse completions n mode t) w := by
      unfold restartAtZero
      split
      · exact safe_restart hw
      · exact hw.ret ()
    refine restart.seq fun _ tr x hx => ?_
    refine .act stable_inUse hx fun y hy => ⟨polite_of_none rfl, ?_⟩
    have inUse : InUse completions n mode
        { y with delivered := y.delivered ++ [readBytes (t.desc i).bufSta.va size] } :=
      ⟨hy.mode_eq, hy.num_eq, hy.tail_lt, hy.completed⟩
    exact inUse.ret ()

/-- A descriptor that has been completed and is left as it is. -/
theorem Held.inUse (h : Held completions n mode i d tr s)
    (allowed : completions d.qword0 d.qword1) :
    InUse completions n mode s := by
  refine ⟨h.mode_eq, h.num_eq, h.tail_lt, fun j hj hown => ?_⟩
  by_cases hji : j = i
  · subst hji
    rw [h.desc_eq]
    exact allowed
  · exact h.completed j hj hji hown

theorem safe_takePacket (pos : 0 < n) (h : Held completions n mode i d tr s) :
    SafeRx completions (takePacket mode n i size) tr
      (fun _ _ t => InUse completions n mode t) s := by
  rw [takePacket_eq]
  exact (safe_swapBuffer h).seq fun _ _ _ ⟨_, ht⟩ => safe_handOver pos ht

theorem safe_pollOwned (pos : 0 < n) (h : Held completions n mode i d tr s)
    (allowed : completions d.qword0 d.qword1)
    (hsize : ¬ pktSize mode d.qword1 > xpnetMaxPacketSize) :
    SafeRx completions (pollOwned mode n i) tr (fun _ _ t => InUse completions n mode t) s := by
  refine .write stable_held h fun t ht => ⟨polite_of_none rfl, ?_⟩
  have ht' : Held completions n mode i d (tr ++ [(t, .priv)]) { t with jiffiesDefer := 0 } :=
    ⟨ht.mode_eq, ht.num_eq, ht.tail_lt, ht.desc_eq, ht.own, (ht.look rfl).known, ht.completed⟩
  refine .look stable_held ht' fun u hu => ⟨polite_of_none rfl, ?_⟩
  rw [hu.desc_eq]
  dsimp only
  rw [if_neg hsize]
  refine .look stable_held (hu.look (knowsAfter_load u i 1 i)) fun v hv => ⟨polite_of_none rfl, ?_⟩
  split
  · exact (safe_takePacket pos (hv.look rfl)).seq fun _ _ _ hw => hw.ret _
  · exact (hv.inUse allowed).ret _

section Rounds

variable (pos : 0 < n) (hgood : ∀ qword0 qword1, completions qword0 qword1 →
  ownership qword0 = false → ¬ Rejected mode qword0 qword1)

include pos hgood

theorem safe_pollRound (inv : InUse completions n mode s) :
    SafeRx completions pollRound tr (fun _ _ t => InUse completions n mode t) s := by
  refine inv.look rfl fun t ht => ?_
  simp only [id, ht.mode_eq, ht.num_eq]
  have hi := ht.tail_lt
  refine ht.look rfl fun u hu => ?_
  split
  · rename_i hone
    have hone : (u.desc t.queue.tail).qword0 = 1 := by simpa using hone
    have hown : u.owned t.queue.tail = false := by
      rw [State.owned, hone]
      decide
    exact absurd (.inl hone) (hgood _ _ (hu.completed _ hi hown) hown)
  · refine .look stable_inUse hu fun v hv => ⟨polite_of_none rfl, ?_⟩
    split
    · exact hv.ret _
    · rename_i howned
      have hown : v.owned t.queue.tail = false := Bool.eq_false_iff.mpr howned
      have allowed := hv.completed _ hi hown
      have hsize := (not_or.mp (hgood _ _ allowed hown)).2
      refine safe_pollOwned pos (d := v.desc t.queue.tail) ?_ allowed hsize
      refine ⟨hv.mode_eq, hv.num_eq, hv.tail_lt, rfl, hown, ?_, fun j hj _ => hv.completed j hj⟩
      rw [knows_snoc, knowsAfter]
      exact if_pos ⟨rfl, rfl, hown⟩

theorem safe_pollLoop (fuel count : Nat) (inv : InUse completions n mode s) :
    SafeRx completions (pollLoop fuel count) tr (fun _ _ t => InUse completions n mode t) s := by
  induction fuel generalizing count s tr with
  | zero => exact inv.ret _
  | succ fuel ih =>
    refine (safe_pollRound pos hgood inv).seq fun exit tr t ht => ?_
    cases exit with
    | none => exact ih _ ht
    | some exit => exact ht.ret _

theorem safe_runPolls (polls : List Nat) (inv : InUse completions n mode s) :
    SafeRx completions (runPolls polls) tr (fun _ _ t => InUse completions n mode t) s := by
  refine Safe.forM (I := fun _ _ t => InUse completions n mode t) (fun _ => stable_inUse) ?_
    polls inv
  intro maxiter _ tr s inv
  exact (safe_pollLoop pos hgood maxiter 0 inv).seq fun _ _ _ ht => ht.ret _

end Rounds

end Packets

/-! ### A descriptor that is rejected -/

/-- A store to a descriptor that the device owns. -/
def Rude (s : State) (lab : Ev) : Prop := ∃ i, storesTo lab = some i ∧ s.owned i = true

section Rejecting

variable {rely : State → State → Prop} {n i : Nat} {s : State} {mode : AddressMode}

theorem exec_rxDescReset (n i : Nat) (s : State) :
    ∃ t, (xpnetRxDescReset n i).exec s = some ((), t) ∧ t.owned i = true := by
  refine ⟨_, rfl, ?_⟩
  change ownership ((State.updDesc _ i (setQword0 ownBit)).desc i).qword0 = true
  rw [updDesc_self]
  exact ownership_ownBit

/-- A descriptor that is reset is enabled while the device owns it. -/
theorem may_rejectDesc (count : Stats → Stats) : May rely Rude (rejectDesc n i count) s := by
  obtain ⟨t, reset, hown⟩ := exec_rxDescReset n i s
  have enable : May rely Rude (xpnetRxDescEnable i) t := .look (.here rfl ⟨i, rfl, hown⟩)
  exact .later reset enable.seq

/-- A round that rejects comes to what the rejection comes to. -/
theorem may_pollRound {P : State → Ev → Prop} (hown : s.owned s.queue.tail = false)
    (hrej : Rejected s.mode (s.desc s.queue.tail).qword0 (s.desc s.queue.tail).qword1)
    (reject : ∀ count t, t.queue = s.queue → t.mode = s.mode →
      May rely P (rejectDesc s.queue.xpqNumDesc s.queue.tail count) t) :
    May rely P pollRound s := by
  refine .look (.look ?_)
  by_cases hone : (s.desc s.queue.tail).qword0 = 1
  · have hbits : (s.desc s.queue.tail).qword0 >>> 0 = 1 := by simpa using hone
    rw [id, if_pos hbits]
    exact (reject _ _ rfl rfl).seq
  · have hbits : ¬ (s.desc s.queue.tail).qword0 >>> 0 = 1 := by simpa using hone
    have hsize := hrej.resolve_left hone
    rw [id, if_neg hbits]
    refine .look ?_
    rw [show ownership (s.desc s.queue.tail).qword0 = false from hown, if_neg Bool.false_ne_true]
    refine .write (.look ?_)
    change May rely P (if pktSize s.mode (s.desc s.queue.tail).qword1 > xpnetMaxPacketSize
      then _ else _) _
    rw [if_pos hsize]
    exact May.seq (reject _ _ rfl rfl)

end Rejecting

/-! ### Every store -/

/-- The descriptors of the queue are filled in, and not yet linked. -/
def Unlinked (n : Nat) (s : State) : Prop := ∃ dma bufs, s.queue = filledQueue n dma bufs

section Every

variable {completions : BitVec 64 → Nat → Prop} {n : Nat} {s₀ : State}

theorem Unlinked.arming (fresh : Unlinked n s₀) :
    Arming completions n s₀.mode (List.range n) [] s₀ := by
  obtain ⟨dma, bufs, hqueue⟩ := fresh
  refine ⟨rfl, by rw [hqueue]; rfl, fun i _ => ⟨?_, rfl⟩, fun i hi hmem => ?_⟩
  · rw [State.owned, State.desc, hqueue]
    change ownership 0 = false
    decide
  · exact absurd (List.mem_range.mpr hi) hmem

/-- A queue that is started alone is the device's, from its first descriptor on. -/
theorem Unlinked.exec_startQueue (pos : 0 < n) (fresh : Unlinked n s₀) :
    ∃ s, (startQueue n).exec s₀ = some ((), s) ∧ s.queue.tail = 0 ∧ s.mode = s₀.mode ∧
      s.owned 0 = true := by
  obtain ⟨dma, bufs, hqueue⟩ := fresh
  have link := exec_linkAndEnable (n := n) (s := s₀) (by rw [hqueue]; rfl)
  refine ⟨_, Prog.exec_bind_some.mpr ⟨(), _, link, rfl⟩, rfl, rfl, ?_⟩
  have harmed :=
    (linkAndEnable_spec (q := filledQueue n dma bufs) pos fun _ _ => ⟨rfl, rfl⟩).2 0 pos
  change ownership ((xpnetRxQueueLinkAndEnable s₀.queue).descMeta 0).qword0 = true
  rw [hqueue, harmed]
  exact ownership_ownBit

theorem may_startQueue (pos : 0 < n) (fresh : Unlinked n s₀) {qword0 : BitVec 64} {qword1 : Nat}
    (allowed : completions qword0 qword1) (hown : ownership qword0 = false)
    (hrej : Rejected s₀.mode qword0 qword1) :
    May (Completes completions) Rude (startQueue n >>= fun _ => runPolls [1]) s₀ := by
  obtain ⟨s, start, htail, hmode, howned⟩ := fresh.exec_startQueue pos
  let t := s.updDesc 0 (writeBack qword0 (fun _ => 0) qword1)
  have hdesc : t.desc t.queue.tail = writeBack qword0 (fun _ => 0) qword1 (s.desc 0) := by
    change t.desc s.queue.tail = _
    rw [htail]
    exact updDesc_self s 0 _
  have round : May (Completes completions) Rude pollRound t := by
    refine may_pollRound ?_ ?_ fun count u _ _ => may_rejectDesc count
    · rw [State.owned, hdesc]
      exact hown
    · rw [hdesc, show t.mode = s₀.mode from hmode]
      exact hrej
  exact .later start (.env (.desc s 0 (fun _ => 0) howned allowed) round.seq.seq.seq)

/-- **The stores of the host.** From before the queue is linked, through arming it and
over every sequence of polls, with the device completing descriptors between any two
actions: every store is polite, exactly when no completion the device writes is one
that a poll rejects. -/
theorem stores_polite_iff (completions : BitVec 64 → Nat → Prop) (pos : 0 < n)
    (fresh : Unlinked n s₀) :
    (∀ polls p s tr, Reach (Completes completions) (fun _ _ => True)
      (startQueue n >>= fun _ => runPolls polls) s₀ p s tr →
      ∀ lab, p.label? = some lab → Polite tr s lab) ↔
      ∀ qword0 qword1, completions qword0 qword1 → ownership qword0 = false →
        ¬ Rejected s₀.mode qword0 qword1 := by
  constructor
  · intro polite qword0 qword1 allowed hown hrej
    obtain ⟨p, s, tr, lab, run, label, i, hstore, howned⟩ :=
      may_startQueue pos fresh allowed hown hrej
    obtain ⟨hfree, -⟩ := polite [1] p s tr run lab label i hstore
    cases hfree.symm.trans howned
  · intro hgood polls p s tr run lab label
    have safe : SafeRx completions (startQueue n >>= fun _ => runPolls polls) []
        (fun _ _ t => InUse completions n s₀.mode t) s₀ :=
      (safe_startQueue pos fresh.arming).seq fun _ _ _ inUse => safe_runPolls pos hgood polls inUse
    exact run.obeys safe label

end Every

/-- The driver's queue with its descriptors filled in. -/
def unlinkedState (mode : AddressMode) (n : Nat) : State :=
  { freshState mode n with
    queue := filledQueue n xpnetDescSize fun i => (fun _ => 0, xpnetMaxPacketSize * i) }

theorem unlinked_unlinkedState (mode : AddressMode) (n : Nat) : Unlinked n (unlinkedState mode n) :=
  ⟨_, _, rfl⟩

/-- A device that completes packets of 100 bytes, and no others. -/
theorem stores_polite_good_packets :
    (∀ polls p s tr, Reach (Completes fun qword0 qword1 => qword0 = 0 ∧ qword1 = 100 * 2 ^ 16)
      (fun _ _ => True) (startQueue xpnetRxNumDescs >>= fun _ => runPolls polls)
      (unlinkedState .b0Compressed xpnetRxNumDescs) p s tr →
      ∀ lab, p.label? = some lab → Polite tr s lab) ∧
    ∀ qword0 qword1, qword0 = 0 ∧ qword1 = 100 * 2 ^ 16 → ownership qword0 = false →
      ¬ Rejected .b0Compressed qword0 qword1 := by
  have hgood : ∀ qword0 qword1, qword0 = 0 ∧ qword1 = 100 * 2 ^ 16 → ownership qword0 = false →
      ¬ Rejected .b0Compressed qword0 qword1 := by
    rintro _ _ ⟨rfl, rfl⟩ -
    unfold Rejected
    decide
  exact ⟨(stores_polite_iff _ (by decide) (unlinked_unlinkedState .b0Compressed _)).mpr hgood,
    hgood⟩

/-- After an error the host stores to a descriptor that the device owns. -/
theorem stores_after_error : ∃ p s tr lab i, Reach (Completes fun qword0 _ => qword0 = 1)
      (fun _ _ => True) (startQueue xpnetRxNumDescs >>= fun _ => runPolls [1])
      (unlinkedState .b0Compressed xpnetRxNumDescs) p s tr ∧
    p.label? = some lab ∧ storesTo lab = some i ∧ s.owned i = true := by
  have rude : May (Completes fun qword0 _ => qword0 = 1) Rude
      (startQueue xpnetRxNumDescs >>= fun _ => runPolls [1])
      (unlinkedState .b0Compressed xpnetRxNumDescs) := by
    have hrej : Rejected .b0Compressed 1 0 := .inl rfl
    exact may_startQueue (by decide) (unlinked_unlinkedState .b0Compressed _) rfl (by decide) hrej
  obtain ⟨p, s, tr, lab, run, label, i, hstore, howned⟩ := rude
  exact ⟨p, s, tr, lab, i, run, label, hstore, howned⟩

end XpNet.Rx

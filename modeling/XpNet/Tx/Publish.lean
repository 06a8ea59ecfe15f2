/-
How `__xpnet_skb_stat_enqueue` hands a frame over to the device, store by store.

The descriptors of a frame are set up one after the other, all but the first with
their ownership bit, the last one gets its EOP bit, and the ownership bit of the
first is stored last. So whenever the device owns the first descriptor, all of them
are final (`statEnqueue_publishes`). The device and the kernel may act between any
two stores, as long as they leave the frame's descriptors alone until the call has
returned.

Nothing here depends on the size of the ring or on how often a frame goes around it.
-/

import XpNet.Interference.Trace
import XpNet.Tx.Frame

namespace XpNet.Tx

open XpNet.Interference
open Relation (ReflTransGen)

/-! ### The descriptors of a frame -/

/-- The slots that the loops of `__xpnet_skb_stat_enqueue` visit. -/
def shardSlots (numDesc : Nat) : Nat → Nat → List Nat
  | _, 0 => []
  | idx, max + 1 => idx :: shardSlots numDesc (xpnetAddAndWrap idx 1 numDesc) max

/-- The slots of the frame that is enqueued next. -/
def State.frameSlots (s : State) (shards : Nat) : List Nat :=
  shardSlots s.queue.xpqNumDesc s.queue.tail shards

/-- The last of them. -/
def State.lastSlot (s : State) (shards : Nat) : Nat :=
  (s.frameSlots shards).getLastD s.queue.tail

/-- The descriptor of a shard, set up for its buffer; `bits` is `qword[0]`. -/
def DescribedAs (bits : BitVec 64) (d : Desc) : Prop :=
  d.qword2 = d.bufSta.dma ∧ d.qword1 = d.bufSta.len ∧ d.qword0 = bits

/-- `qword[0]` as the second loop leaves it. -/
def setupBits (tail i : Nat) : BitVec 64 := if i = tail then sopBit else ownBit

/-- What is outside the call leaves the descriptors of a frame alone, and `tail`. -/
def LeavesFrame (s₀ : State) (shards : Nat) (s s' : State) : Prop :=
  s'.queue.xpqNumDesc = s.queue.xpqNumDesc ∧ s'.queue.tail = s.queue.tail ∧
    ∀ i ∈ s₀.frameSlots shards, s'.desc i = s.desc i

section Setup

variable {rely : State → State → Prop} {F : List Nat} {n tail shards : Nat} {s s' : State}
  {tr : List (State × Ev)}

/-- The descriptors in `F` are those of `u`. -/
def SameOn (F : List Nat) (u t : State) : Prop := ∀ i ∈ F, t.desc i = u.desc i

theorem stable_sameOn (quiet : ∀ s s', rely s s' → SameOn F s s') (u : State) :
    Stable rely (SameOn F u) := fun s s' step same i hi => (quiet s s' step i hi).trans (same i hi)

/-- The device does not own the descriptor at `tail`. -/
theorem stable_free (quiet : ∀ s s', rely s s' → SameOn F s s') (htail : tail ∈ F) :
    Stable rely fun t => t.owned tail = false := by
  intro s s' step free
  change ownership (s'.desc tail).qword0 = false
  rw [quiet s s' step tail htail]
  exact free

theorem free_updDesc (tail : Nat) {s : State} {i : Nat} {f : Desc → Desc}
    (keeps : i = tail → ∀ d, ownership d.qword0 = false → ownership (f d).qword0 = false)
    (free : s.owned tail = false) : (s.updDesc i f).owned tail = false := by
  change ownership ((s.updDesc i f).desc tail).qword0 = false
  by_cases h : tail = i
  · subst h
    rw [updDesc_self]
    exact keeps rfl _ free
  · rw [updDesc_of_ne _ _ h]
    exact free

/-! ### The check -/

/-- The check looks and reports, and changes nothing. -/
theorem checkShards_looks (n idx max : Nat) : Always (fun _ u => u = id) (checkShards n idx max) :=
  checkShards_always (fun _ => rfl) (fun _ => rfl) (fun _ => rfl) n idx max

/-- A check that finds nothing wrong finds the first descriptor the host's. -/
theorem free_of_checked {idx max : Nat}
    (run : Runs rely (checkShards n idx (max + 1)) s tr .ok s') :
    ∃ t, ReflTransGen rely s t ∧ t.owned idx = false := by
  obtain ⟨t, _, rest, steps, -⟩ := runs_look run
  refine ⟨t, steps, ?_⟩
  change ownership (t.desc idx).qword0 = false
  split at rest
  case isTrue =>
    obtain ⟨_, _, last, -, -⟩ := runs_emit rest
    cases last
  case isFalse hown => simpa using hown

/-! ### The second loop -/

/-- The stores of the second loop do not give the descriptor at `tail` to the device. -/
theorem setupShards_free (n tail : Nat) : ∀ last idx max,
    Always (fun _ u => ∀ t : State, t.owned tail = false → (u t).owned tail = false)
      (setupShards n tail last idx max)
  | _, _, 0 => trivial
  | last, idx, max + 1 => by
      refine ⟨fun t free => free_updDesc _ (fun _ _ h => h) free, fun _ =>
        ⟨fun t free => free_updDesc _ (fun _ _ h => h) free, fun _ => ?_⟩⟩
      by_cases h : idx = tail
      · simp only [h, if_true]
        exact ⟨fun t free => free_updDesc _ (fun _ _ _ => ownership_sopBit) free,
          fun _ => setupShards_free n tail _ _ max⟩
      · simp only [h, if_false]
        exact ⟨fun t free => free_updDesc _ (fun htail => absurd htail h) free,
          fun _ => setupShards_free n tail _ _ max⟩

/-- One round sets its descriptor up and leaves the others as they are. -/
theorem runs_setupRound (quiet : ∀ s s', rely s s' → SameOn F s s') {last idx max : Nat}
    (hidx : idx ∈ F) {last' : Nat}
    (run : Runs rely (setupShards n tail last idx (max + 1)) s tr last' s') :
    ∃ t tr', Runs rely (setupShards n tail idx (xpnetAddAndWrap idx 1 n) max) t tr' last' s' ∧
      DescribedAs (setupBits tail idx) (t.desc idx) ∧ SameOn (F.filter (· ≠ idx)) s t := by
  have kept : ∀ {s s'}, ReflTransGen rely s s' → SameOn F s s' := fun steps =>
    (stable_sameOn quiet _).steps steps fun _ _ => rfl
  obtain ⟨t₂, _, rest, steps₂, -⟩ := runs_write run
  obtain ⟨t₁, _, rest, steps₁, -⟩ := runs_write rest
  have done : ∃ t₀ t tr', ReflTransGen rely (t₁.updDesc idx fun d => { d with qword1 := d.bufSta.len }) t₀ ∧
      Runs rely (setupShards n tail idx (xpnetAddAndWrap idx 1 n) max) t tr' last' s' ∧
        ∀ i, t.desc i = (t₀.updDesc idx (setQword0 (setupBits tail idx))).desc i := by
    unfold setupBits
    split at rest
    case isTrue h =>
      obtain ⟨t₀, tr', rest, steps₀, -⟩ := runs_write rest
      exact ⟨t₀, _, tr', steps₀, rest, fun _ => by rw [if_pos h]⟩
    case isFalse h =>
      obtain ⟨t₀, tr', rest, steps₀, -⟩ := runs_write rest
      exact ⟨t₀, _, tr', steps₀, rest, fun _ => by rw [if_neg h]; rfl⟩
  obtain ⟨t₀, t, tr', steps₀, rest, hdesc⟩ := done
  refine ⟨t, tr', rest, ?_, fun i hi => ?_⟩
  · have h₀ := kept steps₀ idx hidx
    have h₁ := kept steps₁ idx hidx
    rw [updDesc_self] at h₀ h₁
    rw [hdesc, updDesc_self, h₀, h₁]
    exact ⟨rfl, rfl, rfl⟩
  · obtain ⟨hi, hne⟩ := List.mem_filter.mp hi
    have hne : i ≠ idx := by simpa using hne
    have h₀ := kept steps₀ i hi
    have h₁ := kept steps₁ i hi
    rw [updDesc_of_ne _ _ hne] at h₀ h₁
    rw [hdesc, updDesc_of_ne _ _ hne, h₀, h₁, kept steps₂ i hi]

/-- The second loop sets up the descriptors it visits, and ends at the last of them. -/
theorem runs_setupShards (quiet : ∀ s s', rely s s' → SameOn F s s') {max : Nat} :
    ∀ (done : List Nat) {last idx : Nat} {s : State} {tr : List (State × Ev)} {last' : Nat},
      (∀ i ∈ done, i ∈ F ∧ DescribedAs (setupBits tail i) (s.desc i)) →
      (∀ i ∈ shardSlots n idx max, i ∈ F) →
      Runs rely (setupShards n tail last idx max) s tr last' s' →
      last' = (shardSlots n idx max).getLastD last ∧
        ∀ i ∈ done ++ shardSlots n idx max, DescribedAs (setupBits tail i) (s'.desc i) := by
  induction max with
  | zero =>
      intro done last idx s tr last' hdone _ run
      cases run with
      | ret steps =>
          refine ⟨rfl, fun i hi => ?_⟩
          obtain ⟨hF, hset⟩ := hdone i (by simpa [shardSlots] using hi)
          rw [(stable_sameOn quiet s).steps steps (fun _ _ => rfl) i hF]
          exact hset
  | succ max ih =>
      intro done last idx s tr last' hdone hslots run
      have hidx : idx ∈ F := hslots idx List.mem_cons_self
      obtain ⟨t, tr', rest, hset, hsame⟩ := runs_setupRound quiet hidx run
      have hdone' : ∀ i ∈ done ++ [idx], i ∈ F ∧ DescribedAs (setupBits tail i) (t.desc i) := by
        intro i hi
        by_cases hne : i = idx
        · subst hne
          exact ⟨hidx, hset⟩
        · have hold : i ∈ done := by simpa [hne] using hi
          obtain ⟨hF, hset⟩ := hdone i hold
          rw [hsame i (List.mem_filter.mpr ⟨hF, by simpa using hne⟩)]
          exact ⟨hF, hset⟩
      obtain ⟨hlast, hall⟩ := ih _ hdone' (fun i hi => hslots i (List.mem_cons_of_mem _ hi)) rest
      refine ⟨hlast.trans ?_, fun i hi => hall i (by simpa [shardSlots] using hi)⟩
      rw [shardSlots, List.getLastD_cons]

/-! ### The end -/

theorem desc_updDesc (s : State) (i j : Nat) (f : Desc → Desc) :
    (s.updDesc i f).desc j = if j = i then f (s.desc j) else s.desc j := by
  by_cases h : j = i
  · subst h
    rw [updDesc_self, if_pos rfl]
  · rw [updDesc_of_ne _ _ h, if_neg h]

/-- A described descriptor, closed, is that of a shard. -/
theorem describedAs_closed {last i : Nat} {d : Desc} (h : DescribedAs (setupBits tail i) d) :
    DescribedAs (frameBits (decide (i = tail)) (decide (i = last)))
      (closed tail last shards i d) := by
  obtain ⟨hdma, hlen, hbits⟩ := h
  unfold setupBits at hbits
  unfold DescribedAs closed frameBits
  by_cases htail : i = tail
  · rw [if_pos htail] at hbits
    by_cases hlast : i = last
    · simp [if_pos htail, if_pos hlast, decide_eq_true htail, decide_eq_true hlast, setQword0,
        hbits, hdma, hlen, -decide_eq_true_eq]
    · simp [if_pos htail, if_neg hlast, decide_eq_true htail, decide_eq_false hlast, setQword0,
        hbits, hdma, hlen, -decide_eq_true_eq]
  · rw [if_neg htail] at hbits
    by_cases hlast : i = last
    · simp [if_neg htail, if_pos hlast, decide_eq_false htail, decide_eq_true hlast, setQword0,
        hbits, hdma, hlen, -decide_eq_true_eq]
    · simp [if_neg htail, if_neg hlast, decide_eq_false htail, decide_eq_false hlast,
        hbits, hdma, hlen, -decide_eq_true_eq]

/-- The descriptors of `F` are final from the store that hands the first one over. -/
theorem runs_handOverShards (quiet : ∀ s s', rely s s' → SameOn F s s') {last : Nat} {a : Unit}
    (htail : tail ∈ F) (hlast : last ∈ F) (free : s.owned tail = false)
    (hset : ∀ i ∈ F, DescribedAs (setupBits tail i) (s.desc i))
    (run : Runs rely (handOverShards tail last shards) s tr a s') :
    (∀ i ∈ F, DescribedAs (frameBits (decide (i = tail)) (decide (i = last))) (s'.desc i)) ∧
      ∀ x ∈ tr, x.1.owned tail = true → SameOn F s' x.1 := by
  have kept : ∀ {s s'}, ReflTransGen rely s s' → SameOn F s s' := fun steps =>
    (stable_sameOn quiet _).steps steps fun _ _ => rfl
  have stillFree : ∀ {s s'}, ReflTransGen rely s s' → s.owned tail = false →
      s'.owned tail = false := fun steps free => (stable_free quiet htail).steps steps free
  obtain ⟨t₁, _, rest₁, steps₁, rfl⟩ := runs_look run
  obtain ⟨t₂, _, rest₂, steps₂, rfl⟩ := runs_write rest₁
  obtain ⟨t₃, _, rest₃, steps₃, rfl⟩ := runs_write rest₂
  obtain ⟨t₄, _, rest₄, steps₄, rfl⟩ := runs_look rest₃
  obtain ⟨t₅, _, rest₅, steps₅, rfl⟩ := runs_write rest₄
  -- before the last store the device does not own the first descriptor
  have free₁ := stillFree steps₁ free
  have free₂ := stillFree steps₂ free₁
  have free₃ := stillFree steps₃ (free_updDesc tail (fun h d _ => by
    subst h
    have hq : ownership (t₁.desc last).qword0 = false := free₁
    change ownership ((t₁.desc last).qword0 ||| eopBit) = false
    rw [ownership_or, hq, ownership_eopBit]
    rfl) free₂)
  have free₄ := stillFree steps₄ (free_updDesc tail (fun _ _ h => h) free₃)
  have free₅ := stillFree steps₅ free₄
  -- from it on they are final
  let u : State := { t₅.updDesc tail (setQword0 ((t₄.desc tail).qword0 ||| ownBit)) with
    armed := tail :: t₅.armed }
  have hfinal : ∀ i ∈ F, u.desc i = closed tail last shards i (s.desc i) := by
    intro i hi
    have h₅ : ∀ j ∈ F, t₅.desc j = t₄.desc j := kept steps₅
    have h₄ : ∀ j ∈ F, t₄.desc j = _ := fun j hj => (kept steps₄ j hj).trans (desc_updDesc _ _ _ _)
    have h₃ : ∀ j ∈ F, t₃.desc j = _ := fun j hj => (kept steps₃ j hj).trans (desc_updDesc _ _ _ _)
    have h₂ : ∀ j ∈ F, t₂.desc j = s.desc j := fun j hj =>
      (kept steps₂ j hj).trans (kept steps₁ j hj)
    change (t₅.updDesc tail _).desc i = _
    rw [desc_updDesc, h₅ i hi, h₄ i hi, h₃ i hi, h₂ i hi, h₄ tail htail, if_pos rfl,
      h₃ tail htail, h₂ tail htail, kept steps₁ last hlast]
    unfold closed
    by_cases ht : i = tail <;> by_cases hl : i = last
    · subst ht
      subst hl
      simp [setQword0]
    · subst ht
      simp [hl, setQword0]
    · subst hl
      simp [ht, setQword0]
    · simp [ht, hl]
  have hrest : Always (fun _ v => ∀ t, SameOn F u t → SameOn F u (v t)) (do
      let isA0 ← Prog.look Ev.priv State.isA0
      kickQueue isA0 tail) := by
    refine Always.look (fun _ same => same) fun isA0 => ?_
    cases isA0 with
    | false => trivial
    | true => exact ⟨fun _ same => same, fun _ => ⟨fun _ same => same, fun _ => trivial⟩⟩
  obtain ⟨hafter, hend⟩ := rest₅.throughout (stable_sameOn quiet u) hrest fun _ _ => rfl
  constructor
  · intro i hi
    rw [hend i hi, hfinal i hi]
    exact describedAs_closed (hset i hi)
  · intro x hx hown
    have early : ∀ {t : State}, t.owned tail = false → t.owned tail = true → SameOn F s' t :=
      fun h h' => absurd (h.symm.trans h') Bool.false_ne_true
    simp only [List.mem_cons] at hx
    rcases hx with rfl | rfl | rfl | rfl | rfl | hx
    · exact early free₁ hown
    · exact early free₂ hown
    · exact early free₃ hown
    · exact early free₄ hown
    · exact early free₅ hown
    · exact fun i hi => (hafter x hx i hi).trans (hend i hi).symm

end Setup

/-! ### The call -/

section Call

variable {rely : State → State → Prop} {s s₀ s' : State} {shards : Nat} {tr : List (State × Ev)}

theorem shardSlots_getLastD (n idx max : Nat) :
    (shardSlots n idx (max + 1)).getLastD idx ∈ shardSlots n idx (max + 1) := by
  have hne : shardSlots n idx (max + 1) ≠ [] := List.cons_ne_nil _ _
  rw [List.getLastD_eq_getLast?, List.getLast?_eq_some_getLast hne]
  exact List.getLast_mem hne

/-- A call that succeeds ends with the frame's descriptors set up, and they are so
whenever the device owns the first one. -/
theorem runs_statEnqueue_ok
    (run : Runs (LeavesFrame s₀ shards) (xpnetSkbStatEnqueue shards) s₀ tr .ok s') :
    (∀ i ∈ s₀.frameSlots shards, DescribedAs (frameBits (decide (i = s₀.queue.tail))
        (decide (i = s₀.lastSlot shards))) (s'.desc i)) ∧
      ∀ x ∈ tr, x.1.owned s₀.queue.tail = true → SameOn (s₀.frameSlots shards) s' x.1 := by
  have quiet : ∀ s s', LeavesFrame s₀ shards s s' → SameOn (s₀.frameSlots shards) s s' :=
    fun _ _ step => step.2.2
  have hplace : Stable (LeavesFrame s₀ shards) fun t =>
      t.queue.xpqNumDesc = s₀.queue.xpqNumDesc ∧ t.queue.tail = s₀.queue.tail :=
    fun _ _ step place => ⟨step.1.trans place.1, step.2.1.trans place.2⟩
  cases shards with
  | zero => exact ⟨nofun, fun _ _ _ => nofun⟩
  | succ k =>
      have htail : s₀.queue.tail ∈ s₀.frameSlots (k + 1) := List.mem_cons_self
      obtain ⟨t₁, _, body, steps₁, rfl⟩ := runs_look run
      obtain ⟨hnum, hstart⟩ := hplace.steps steps₁ ⟨rfl, rfl⟩
      simp only [id, hnum, hstart] at body
      obtain ⟨res, m, _, _, check, checked, rfl⟩ := runs_bind.mp body
      cases res with
      | queueBusy => cases checked
      | queueError => cases checked
      | ok =>
          -- the check leaves the frame alone and finds its first descriptor free
          have free₁ : t₁.owned s₀.queue.tail = false := by
            obtain ⟨t, steps, free⟩ := free_of_checked check
            have hsame := (stable_sameOn quiet t₁).steps steps (fun _ _ => rfl) _ htail
            rw [State.owned, ← hsame]
            exact free
          obtain ⟨free_check, free_m⟩ := check.throughout (stable_free quiet htail)
            ((checkShards_looks _ _ _).mono fun _ _ h _ free => h ▸ free) free₁
          -- the second loop sets the descriptors up behind it
          obtain ⟨last, m₂, _, _, setup, finish, rfl⟩ := runs_bind.mp checked
          obtain ⟨free_setup, free_m₂⟩ := setup.throughout (stable_free quiet htail)
            (setupShards_free _ _ _ _ _) free_m
          obtain ⟨rfl, hset⟩ := runs_setupShards quiet []
            (fun _ hi => absurd hi List.not_mem_nil) (fun _ hi => hi) setup
          -- and the end publishes them
          obtain ⟨_, m₃, _, _, publish, done, rfl⟩ := runs_bind.mp finish
          cases done with
          | ret steps =>
              obtain ⟨hfinal, hpublished⟩ := runs_handOverShards quiet htail
                (shardSlots_getLastD _ _ k) free_m₂ hset (publish.later steps)
              refine ⟨hfinal, fun x hx hown => ?_⟩
              have early : ∀ {t : State}, t.owned s₀.queue.tail = false →
                  t.owned s₀.queue.tail = true → SameOn (s₀.frameSlots (k + 1)) s' t :=
                fun h h' => absurd (h.symm.trans h') Bool.false_ne_true
              simp only [List.mem_cons, List.mem_append, List.not_mem_nil, or_false] at hx
              rcases hx with rfl | hx | hx | hx
              · exact early free₁ hown
              · exact early (free_check x hx) hown
              · exact early (free_setup x hx) hown
              · exact hpublished x hx hown

/-- A call that fails leaves every descriptor alone that nobody else changes. -/
theorem runs_statEnqueue_err {res : EnqueueResult} (hres : res ≠ .ok)
    (run : Runs rely (xpnetSkbStatEnqueue shards) s₀ tr res s') {i : Nat}
    (quiet : ∀ s s', rely s s' → s'.desc i = s.desc i) : s'.desc i = s₀.desc i := by
  obtain ⟨t₁, _, rest, steps₁, -⟩ := runs_look run
  obtain ⟨res', m, _, _, check, last, -⟩ := runs_bind.mp rest
  have stable : Stable rely fun t => t.desc i = s₀.desc i := fun s s' step same =>
    (quiet s s' step).trans same
  have h₁ : t₁.desc i = s₀.desc i := stable.steps steps₁ rfl
  have keeps : Always (fun _ u => ∀ t : State, t.desc i = s₀.desc i → (u t).desc i = s₀.desc i)
      (checkShards t₁.queue.xpqNumDesc t₁.queue.tail shards) := by
    refine (checkShards_looks _ _ _).mono fun _ u h t same => ?_
    rw [h]
    exact same
  have hm := check.invariant stable keeps h₁
  cases res' with
  | queueBusy =>
      cases last with
      | ret steps => exact stable.steps steps hm
  | queueError =>
      cases last with
      | ret steps => exact stable.steps steps hm
  | ok =>
      obtain ⟨_, _, _, _, -, last, -⟩ := runs_bind.mp last
      obtain ⟨_, _, _, _, -, last, -⟩ := runs_bind.mp last
      cases last
      exact absurd rfl hres

/-- **The hand-over.** For every ring and every number of shards. When
`__xpnet_skb_stat_enqueue` succeeds, each descriptor of the frame ends with its
buffer's address and length and with the bits of its place in the frame, and before
every action of the call, once the device owns the first descriptor, they all are as
they end. When it fails, whatever else happens meanwhile, it has changed no
descriptor. -/
theorem statEnqueue_publishes (s₀ : State) (shards : Nat) :
    (∀ tr s', Runs (LeavesFrame s₀ shards) (xpnetSkbStatEnqueue shards) s₀ tr .ok s' →
      (∀ i ∈ s₀.frameSlots shards, DescribedAs (frameBits (decide (i = s₀.queue.tail))
          (decide (i = s₀.lastSlot shards))) (s'.desc i)) ∧
        ∀ x ∈ tr, x.1.owned s₀.queue.tail = true → SameOn (s₀.frameSlots shards) s' x.1) ∧
    ∀ rely tr res s', Runs rely (xpnetSkbStatEnqueue shards) s₀ tr res s' → res ≠ .ok →
      ∀ i, (∀ s s', rely s s' → s'.desc i = s.desc i) → s'.desc i = s₀.desc i :=
  ⟨fun _ _ run => runs_statEnqueue_ok run,
    fun _ _ _ _ run hres _ quiet => runs_statEnqueue_err hres run quiet⟩

end Call

/-- Two shards in a fresh ring. -/
theorem statEnqueue_publishes_two :
    let s₀ := freshState 1 .b0Compressed xpnetTxNumDescs
    ∃ tr s', Runs (LeavesFrame s₀ 2) (xpnetSkbStatEnqueue 2) s₀ tr .ok s' ∧
      DescribedAs (frameBits true false) (s'.desc 0) ∧
      DescribedAs (frameBits false true) (s'.desc 1) ∧
      ∀ x ∈ tr, x.1.owned 0 = true → SameOn [0, 1] s' x.1 := by
  intro s₀
  have hexec : ((xpnetSkbStatEnqueue 2).exec s₀).map Prod.fst = some .ok := by decide +kernel
  obtain ⟨⟨res, s'⟩, hrun, hres⟩ := Option.map_eq_some_iff.mp hexec
  obtain rfl : res = .ok := hres
  obtain ⟨tr, run⟩ := Runs.of_exec hrun
  obtain ⟨described, published⟩ := (statEnqueue_publishes s₀ 2).1 tr s' run
  have hslots : s₀.frameSlots 2 = [0, 1] := by decide +kernel
  have htail : s₀.queue.tail = 0 := rfl
  have hlast : s₀.lastSlot 2 = 1 := by decide +kernel
  rw [hslots, htail, hlast] at described
  rw [hslots, htail] at published
  exact ⟨tr, s', run, described 0 (by decide), described 1 (by decide), published⟩

end XpNet.Tx

/-
When `xpnet_start_xmit` answers `NETDEV_TX_BUSY`.

The answer depends on what the call finds: the queue's state and indices, and the
ownership and error bits of the descriptors the frame needs. `RingBusy` is the
condition, and `runs_startXmit_busy_iff` says that it decides the answer if the
environment leaves those descriptors alone meanwhile: always when they are free,
and when the device is idle.
-/

import XpNet.Tx.Calls
import XpNet.Tx.Buffers
import XpNet.Tx.Netdev

namespace XpNet.Tx

open XpNet.Interference

/-! ### What a frame needs -/

/-- The device owns descriptor `i`, or has reported an error in it. -/
def State.unusable (s : State) (i : Nat) : Bool :=
  ownership (s.desc i).qword0 || errorIndication (s.desc i).qword0

/-- The descriptors a frame takes. -/
def needed (s : State) (skb : SkBuff) : List Nat :=
  slots s.queue.xpqNumDesc s.queue.tail (shardCount skb.len)

/-- `num_free_desc`. -/
def State.numFreeDesc (s : State) : Nat :=
  xpnetGetFreeDesc s.queue.xpqNumDesc s.queue.head s.queue.tail

/-- The frame gets past every check that comes before those of its descriptors. -/
def RingFits (s : State) (skb : SkBuff) : Prop :=
  s.dmaTrigger ≠ 0 ∧ s.queue.status = .active ∧ s.numFreeDesc ≠ 0 ∧ skb.len ≠ 0 ∧
    skb.len ≤ u32Mul s.numFreeDesc xpnetMaxDmaSegmentSize ∧ skb.dataLen = 0

instance (s : State) (skb : SkBuff) : Decidable (RingFits s skb) :=
  inferInstanceAs (Decidable (_ ∧ _ ∧ _ ∧ _ ∧ _ ∧ _))

/-- The ring has no room for the frame: no descriptor is free, or one of those the
frame needs cannot be used. -/
def RingBusy (s : State) (skb : SkBuff) : Prop :=
  (s.dmaTrigger ≠ 0 ∧ s.queue.status = .active ∧ s.numFreeDesc = 0) ∨
    (RingFits s skb ∧ ∃ i ∈ needed s skb, s.unusable i = true)

instance (s : State) (skb : SkBuff) : Decidable (RingBusy s skb) :=
  inferInstanceAs (Decidable (_ ∨ _))

/-- The first descriptor that a frame needs. -/
theorem tail_mem_needed {s : State} {skb : SkBuff} (htail : s.queue.tail < s.queue.xpqNumDesc)
    (fits : RingFits s skb) : s.queue.tail ∈ needed s skb := by
  obtain ⟨-, -, -, hlen, -⟩ := fits
  obtain ⟨k, hk⟩ := Nat.exists_eq_add_of_lt (shardCount_pos (Nat.pos_of_ne_zero hlen))
  rw [needed, show shardCount skb.len = k + 1 by omega, slots_succ, slot_zero htail]
  exact List.mem_cons_self

/-! ### The checks -/

section Checks

variable {rely : State → State → Prop} {s s' : State} {tr : List (State × Ev)}

/-- What the checks of a frame look at is in `t` what it is in `s`. -/
structure SameRing (s : State) (skb : SkBuff) (t : State) : Prop where
  trigger : t.dmaTrigger = s.dmaTrigger
  status : t.queue.status = s.queue.status
  numDesc : t.queue.xpqNumDesc = s.queue.xpqNumDesc
  head : t.queue.head = s.queue.head
  tail : t.queue.tail = s.queue.tail
  bits : RingFits s skb → ∀ i ∈ needed s skb, (t.desc i).qword0 = (s.desc i).qword0

theorem SameRing.refl (s : State) (skb : SkBuff) : SameRing s skb s :=
  ⟨rfl, rfl, rfl, rfl, rfl, fun _ _ _ => rfl⟩

/-- So they find room in `t` if they do in `s`. -/
theorem SameRing.room {skb : SkBuff} {t : State} (same : SameRing s skb t)
    (room : ¬ RingBusy s skb) : ¬ RingBusy t skb := by
  have hfree : t.numFreeDesc = s.numFreeDesc := by
    unfold State.numFreeDesc
    rw [same.numDesc, same.head, same.tail]
  have hneeded : needed t skb = needed s skb := by
    unfold needed
    rw [same.numDesc, same.tail]
  rintro (⟨trigger, status, hnone⟩ | ⟨fits, i, hi, hbad⟩)
  · exact room (.inl ⟨same.trigger ▸ trigger, same.status ▸ status, hfree ▸ hnone⟩)
  · have fits : RingFits s skb := by
      unfold RingFits at fits ⊢
      rwa [same.trigger, same.status, hfree] at fits
    rw [hneeded] at hi
    rw [State.unusable, same.bits fits i hi] at hbad
    exact room (.inr ⟨fits, i, hi, hbad⟩)

theorem SameRing.updNetdev {skb : SkBuff} {t : State} (same : SameRing s skb t) (dev : Nat)
    (f : NetDevice → NetDevice) : SameRing s skb (t.updNetdev dev f) :=
  ⟨same.trigger, same.status, same.numDesc, same.head, same.tail, same.bits⟩

/-- Writing to a data buffer leaves the checks what they are. -/
theorem SameRing.bufWrite {skb : SkBuff} {t : State} (same : SameRing s skb t) {i : Nat} {lab : Ev}
    {f : Desc → Desc} (h : BufWrite i lab f) : SameRing s skb (t.updDesc i f) := by
  refine ⟨same.trigger, same.status, same.numDesc, same.head, same.tail, fun fits j hj => ?_⟩
  rw [← same.bits fits j hj]
  by_cases hij : j = i
  · subst hij
    rw [updDesc_self]
    exact (h.fields _).1
  · rw [updDesc_of_ne _ _ hij]

/-- The check of a frame's slots, when nobody changes what it finds. -/
theorem runs_checkShards {I : State → Prop} (stable : Stable rely I) {u : State} {n : Nat}
    (size : RingSize n) {max : Nat} : ∀ {idx : Nat} {s : State} {tr : List (State × Ev)},
    idx < n → (∀ t, I t → ∀ i ∈ slots n idx max, (t.desc i).qword0 = (u.desc i).qword0) → I s →
    ∀ {res : EnqueueResult}, Runs rely (checkShards n idx max) s tr res s' →
      (res = .ok ↔ ∀ i ∈ slots n idx max, u.unusable i = false) ∧
        (res = .queueBusy → ∃ i ∈ slots n idx max, u.owned i = true) := by
  induction max with
  | zero =>
      intro idx s tr _ _ _ res run
      cases run
      simp
  | succ max ih =>
      intro idx s tr hidx seen holds res run
      have hnext : xpnetAddAndWrap idx 1 n = slot n idx 1 :=
        xpnetAddAndWrap_eq size (Nat.le_of_lt hidx) size.pos
      rw [slots_succ, slot_zero hidx] at seen ⊢
      obtain ⟨t, _, rest, steps, rfl⟩ := runs_look run
      have ht := stable.steps steps holds
      rw [seen t ht idx List.mem_cons_self] at rest
      split at rest
      case isTrue hown =>
        obtain ⟨_, _, last, -, rfl⟩ := runs_emit rest
        cases last
        simp [State.unusable, State.owned, hown]
      case isFalse hown =>
        obtain ⟨v, _, checked, steps', rfl⟩ := runs_look rest
        have hv := stable.steps steps' ht
        rw [seen v hv idx List.mem_cons_self] at checked
        split at checked
        case isTrue herr =>
          obtain ⟨_, _, last, -, rfl⟩ := runs_emit checked
          cases last
          simp [State.unusable, herr]
        case isFalse herr =>
          rw [hnext] at checked
          have hfree : u.unusable idx = false := by simp [State.unusable, hown, herr]
          obtain ⟨hok, hbusy⟩ := ih (slot_lt size.pos idx 1)
            (fun w hw i hi => seen w hw i (List.mem_cons_of_mem _ hi)) hv checked
          constructor
          · rw [hok]
            simp [hfree]
          · intro h
            obtain ⟨i, hi, hown⟩ := hbusy h
            exact ⟨i, List.mem_cons_of_mem _ hi, hown⟩

/-- The end of a frame's enqueueing, by what the check of its slots found. -/
theorem runs_enqueued {skb : SkBuff} {n tail shards : Nat} {res : EnqueueResult} {exit : XmitExit}
    (run : Runs rely (enqueueChecked n tail shards res >>= xmitEnqueued skb tail n shards)
      s tr exit s') : exit = .txbusy ↔ res ≠ .ok := by
  cases res with
  | ok =>
      obtain ⟨res', m, _, _, setup, last, -⟩ := runs_bind.mp run
      obtain ⟨_, _, _, _, -, handed, -⟩ := runs_bind.mp setup
      obtain ⟨_, _, _, _, -, done, -⟩ := runs_bind.mp handed
      cases done
      obtain ⟨_, _, freed, -, -⟩ := runs_emit last
      obtain ⟨_, _, counted, -, -⟩ := runs_write freed
      obtain ⟨_, _, moved, -, -⟩ := runs_write counted
      cases moved
      simp
  | queueBusy =>
      cases run
      simp
  | queueError =>
      obtain ⟨_, _, last, -, -⟩ := runs_write run
      cases last
      simp

variable {skb : SkBuff} {u : State}

/-- From the copy of a frame on, the check of its slots decides. -/
theorem runs_xmitFrame_check (stable : Stable rely (SameRing u skb)) (keeps : KeepsBuffers rely)
    (size : RingSize u.queue.xpqNumDesc) (htail : u.queue.tail < u.queue.xpqNumDesc)
    (fits : RingFits u skb) {free : Nat} {exit : XmitExit} (holds : SameRing u skb s)
    (run : Runs rely (xmitFrame skb u.queue.tail u.queue.xpqNumDesc free) s tr exit s') :
    ∃ res m tr', (res = .ok ↔ ∀ i ∈ needed u skb, u.unusable i = false) ∧
      (res = .queueBusy → ∃ i ∈ needed u skb, u.owned i = true) ∧
      Runs rely (enqueueChecked u.queue.xpqNumDesc u.queue.tail (shardCount skb.len) res >>=
        xmitEnqueued skb u.queue.tail u.queue.xpqNumDesc (shardCount skb.len)) m tr' exit s' ∧
      ((∀ s s', rely s s' → s'.outside = s.outside) → m.outside = s.outside) := by
  obtain ⟨t, _, rest, steps, -⟩ := runs_emit run
  have ht := stable.steps steps holds
  obtain ⟨shards, v, _, _, copy, checked, -⟩ := runs_bind.mp rest
  have copies : wp rely (fun _ _ => True) (fun _ _ _ => True) (xpnetSkbToShards skb)
      (fun k w => k = shardCount skb.len ∧ SameRing u skb w) t :=
    wp_skbToShards stable keeps size htail (fun w hw => ⟨hw.numDesc, hw.tail⟩)
      (fun _ _ => trivial) (fun w i lab f _ hw h => ⟨trivial, hw.bufWrite h⟩) ht
  obtain ⟨rfl, hv⟩ := copy.post copies
  have copied : (∀ s s', rely s s' → s'.outside = s.outside) → v.outside = s.outside := fun env =>
    (runs_works (skbToShards_works skb) env copy).trans (kept_of_steps env steps)
  have enqueue : ∃ w tr', Relation.ReflTransGen rely v w ∧
      Runs rely (xpnetSkbStatEnqueue (shardCount skb.len) >>=
        xmitEnqueued skb u.queue.tail u.queue.xpqNumDesc (shardCount skb.len)) w tr' exit s' := by
    split at checked
    · obtain ⟨w, tr', reported, steps', -⟩ := runs_emit checked
      exact ⟨w, tr', steps', reported⟩
    · exact ⟨v, _, .refl, checked⟩
  obtain ⟨w, _, before, enqueue⟩ := enqueue
  obtain ⟨_, _, _, _, first, last, -⟩ := runs_bind.mp enqueue
  obtain ⟨x, _, rest, between, -⟩ := runs_look first
  have hx := stable.steps between (stable.steps before hv)
  simp only [id, hx.numDesc, hx.tail] at rest
  obtain ⟨res, y, _, _, check, enqueued, -⟩ := runs_bind.mp rest
  obtain ⟨hok, hbusy⟩ := runs_checkShards stable size htail
    (fun z hz i hi => hz.bits fits i hi) hx check
  refine ⟨res, y, _, hok, hbusy, runs_bind.mpr ⟨_, _, _, _, enqueued, last, rfl⟩, fun env => ?_⟩
  rw [runs_works (checkShards_inner _ _ _).emits env check, kept_of_steps env between, kept_of_steps env before,
    copied env]

/-- What `xpnet_hard_start_xmit` answers once the frame is copied. -/
theorem runs_xmitFrame_busy (stable : Stable rely (SameRing u skb)) (keeps : KeepsBuffers rely)
    (size : RingSize u.queue.xpqNumDesc) (htail : u.queue.tail < u.queue.xpqNumDesc)
    (fits : RingFits u skb) {free : Nat} {exit : XmitExit} (holds : SameRing u skb s)
    (run : Runs rely (xmitFrame skb u.queue.tail u.queue.xpqNumDesc free) s tr exit s') :
    exit = .txbusy ↔ ∃ i ∈ needed u skb, u.unusable i = true := by
  obtain ⟨res, _, _, hok, -, last, -⟩ :=
    runs_xmitFrame_check stable keeps size htail fits holds run
  rw [runs_enqueued last, ne_eq, hok]
  simp

/-- **`xpnet_hard_start_xmit`** answers busy when the ring is busy, and only then. -/
theorem runs_hardStartXmit_busy (stable : Stable rely (SameRing u skb)) (keeps : KeepsBuffers rely)
    (size : RingSize u.queue.xpqNumDesc) (htail : u.queue.tail < u.queue.xpqNumDesc)
    (trigger : u.dmaTrigger ≠ 0) {exit : XmitExit} (holds : SameRing u skb s)
    (run : Runs rely (xpnetHardStartXmit (some skb)) s tr exit s') :
    exit = .txbusy ↔ RingBusy u skb := by
  obtain ⟨t, _, rest, steps, -⟩ := runs_look run
  have ht := stable.steps steps holds
  have hfree : xpnetGetFreeDesc t.queue.xpqNumDesc t.queue.head t.queue.tail = u.numFreeDesc := by
    rw [ht.numDesc, ht.head, ht.tail]
    rfl
  simp only [id] at rest
  revert rest
  refine xmitFrom_cases (P := fun p => Runs rely p t _ exit s' → _) ?refused ?full ?checked
  case refused =>
    rw [hfree, ht.status]
    intro hrefused drop
    refine iff_of_false (by rw [txErrorDrop_exit drop]; decide) ?_
    rintro (⟨-, hactive, hnone⟩ | ⟨⟨-, hactive, -, hpos, hle, hlinear⟩, -⟩)
    · exact hrefused.elim (· hactive) fun h => h.1 hnone
    · rcases hrefused with hdown | ⟨-, hzero | hlong | hfrags⟩
      · exact hdown hactive
      · exact hpos hzero
      · exact absurd hle (Nat.not_le.mpr hlong)
      · exact hfrags hlinear
  case full =>
    rw [hfree, ht.status]
    intro hactive hnone busy
    cases busy
    exact iff_of_true rfl (.inl ⟨trigger, hactive, hnone⟩)
  case checked =>
    rw [hfree, ht.status, ht.tail, ht.numDesc]
    intro hactive hsome hpos hle hlinear check
    have fits : RingFits u skb := ⟨trigger, hactive, hsome, hpos, hle, hlinear⟩
    have hnotfull : ¬ (u.dmaTrigger ≠ 0 ∧ u.queue.status = .active ∧ u.numFreeDesc = 0) :=
      fun h => hsome h.2.2
    have hfirst := tail_mem_needed htail fits
    rw [RingBusy, or_iff_right hnotfull, and_iff_right fits]
    obtain ⟨v, _, head, steps', -⟩ := runs_look check
    have hv := stable.steps steps' ht
    rw [hv.bits fits _ hfirst] at head
    split at head
    case isTrue hown =>
      obtain ⟨_, _, busy, -, -⟩ := runs_emit head
      cases busy
      exact iff_of_true rfl ⟨_, hfirst, by simp [State.unusable, hown]⟩
    case isFalse hown =>
      obtain ⟨w, _, sane, steps'', -⟩ := runs_look head
      have hw := stable.steps steps'' hv
      rw [hw.bits fits _ hfirst] at sane
      split at sane
      case isTrue herr =>
        cases sane
        exact iff_of_true rfl ⟨_, hfirst, by simp [State.unusable, herr]⟩
      case isFalse herr => exact runs_xmitFrame_busy stable keeps size htail fits hw sane

/-- What `xpnet_start_xmit` adds to its call of `xpnet_hard_start_xmit` does not
change the answer. -/
theorem runs_completeAfter {numDesc : Nat} {exit exit' : XmitExit}
    (run : Runs rely (completeAfter numDesc exit) s tr exit' s') : exit' = exit := by
  unfold completeAfter at run
  split at run
  · obtain ⟨_, _, _, _, -, last, -⟩ := runs_bind.mp run
    cases last
    rfl
  · cases run
    rfl

/-- The same, of `xpnet_start_xmit`. -/
theorem runs_startXmit_busy (stable : Stable rely (SameRing s skb)) (keeps : KeepsBuffers rely)
    (size : RingSize s.queue.xpqNumDesc) (htail : s.queue.tail < s.queue.xpqNumDesc)
    {exit : XmitExit} (run : Runs rely (xpnetStartXmit skb) s tr exit s') :
    exit = .txbusy ↔ RingBusy s skb := by
  obtain ⟨t, _, rest, steps, -⟩ := runs_look run
  have ht := stable.steps steps (.refl s skb)
  simp only [id, startXmitFrom, ht.trigger] at rest
  split at rest
  case isTrue hzero =>
    obtain ⟨_, _, last, -, -⟩ := runs_emit rest
    cases last
    simp [RingBusy, RingFits, hzero]
  case isFalse htrigger =>
    obtain ⟨exit', m, _, _, first, last, -⟩ := runs_bind.mp rest
    rw [runs_completeAfter last]
    exact runs_hardStartXmit_busy stable keeps size htail htrigger ht first

end Checks

/-! ### The device -/

/-- The environment changes nothing in a descriptor the host owns. -/
theorem env_of_free {s s' : State} (h : Env s s') {i : Nat} (free : s.owned i = false) :
    s'.desc i = s.desc i := by
  obtain ⟨m, rfl⟩ := h
  have move : ∀ (j : Nat) (g : BitVec 64 → BitVec 64), (onOwned j g s).desc i = s.desc i := by
    intro j g
    unfold onOwned
    split
    · rename_i hown
      by_cases hij : i = j
      · subst hij
        rw [free] at hown
        cases hown
      · exact updDesc_of_ne _ _ hij
    · rfl
  cases m with
  | complete j => exact move j _
  | fault j => exact move j _
  | memory ok => rfl

/-- While the host owns what a frame needs, the device changes nothing that its
checks look at. -/
theorem env_stable_sameRing_of_free {s : State} {skb : SkBuff}
    (free : RingFits s skb → ∀ i ∈ needed s skb, s.owned i = false) :
    Stable Env (SameRing s skb) := by
  intro t t' h same
  have hbits : RingFits s skb → ∀ i ∈ needed s skb, (t'.desc i).qword0 = (s.desc i).qword0 := by
    intro fits i hi
    have hown : t.owned i = false := by
      rw [State.owned, same.bits fits i hi]
      exact free fits i hi
    rw [env_of_free h hown, same.bits fits i hi]
  obtain ⟨_, _, rfl⟩ := env_bitEnv h
  exact ⟨same.trigger, same.status, same.numDesc, same.head, same.tail, hbits⟩

/-- While the ring is not busy for a frame, it stays so whatever the device does. -/
theorem env_stable_sameRing {s : State} {skb : SkBuff} (room : ¬ RingBusy s skb) :
    Stable Env (SameRing s skb) := by
  apply env_stable_sameRing_of_free
  intro fits i hi
  have husable : s.unusable i = false := by
    by_contra hbad
    exact room (.inr ⟨fits, i, hi, by simpa using hbad⟩)
  exact (Bool.or_eq_false_iff.mp husable).1

/-- An environment that does nothing. -/
def Idling (_ _ : State) : Prop := False

theorem idling_stable (I : State → Prop) : Stable Idling I := fun _ _ h => h.elim

theorem idling_keepsBuffers : KeepsBuffers Idling := fun _ _ _ h => h.elim

end XpNet.Tx

/-
Runs of `xpnet_start_xmit` calls, with the device acting at any time.

* `stores_respect_ownership`: a run that starts to copy frames on free
  descriptors only, stores to no descriptor the device owns but the shards of
  the frame it is setting up. On A0 a run need not: `store_to_owned` is one in
  which the ring was rewound under a frame still in transmission.
* `walk_of_handed_over`: which frames the device's walk visits as a whole.
* `ring_is_fifo`: elsewhere than on A0 the ring is a first-in first-out queue.
-/

import XpNet.Tx.Calls

namespace XpNet.Tx

open XpNet.Interference

/-- A device step is an environment step. -/
theorem env_move (m : EnvMove) (s : State) : Env s (envMove m s) := ⟨m, rfl⟩

section Runs

variable {n : Nat} {s₀ : State} {frames : List SkBuff} {p : TxProg Unit} {s : State}
  {tr : List (State × Ev)}

/-- A run under no assumption, as one the call rules speak of. -/
theorem reach_unassumed (run : Reach Env (fun _ _ => True) (runXmit frames) s₀ p s tr) :
    Reach Env (CopyOnFree False) (runXmit frames) s₀ p s tr :=
  run.mono (fun _ _ h => h) fun _ _ _ h => h.elim

/-! ### Stores to descriptors of the device -/

/-- **Ownership.** In a run in which the copy of every frame starts on
descriptors the host owns, no action stores to a descriptor the device owns,
except to set up a shard of a frame whose SOP descriptor is not handed over. -/
theorem stores_respect_ownership (size : RingSize n) (init : Initial n s₀)
    (run : Reach Env (CopyOnFree True) (runXmit frames) s₀ p s tr) :
    ∀ lab, p.label? = some lab → StoreOk s lab := by
  intro lab label
  by_cases copies : ∃ t len, lab = .beginCopy t len
  · -- the action that starts a copy stores nothing itself
    obtain ⟨t, len, rfl⟩ := copies
    intro i hi
    cases hi
  · have assumed : CopyOnFree True s lab := fun _ t len h => absurd ⟨t, len, h⟩ copies
    exact (run.next (wp_runXmit_initial size frames init) label assumed).store (.inl trivial)

/-- `CopyOnFree True`, as a check of one action. -/
def copyOnFree (s : State) : Ev → Bool
  | .beginCopy t len => (slots s.queue.xpqNumDesc t (shardCount len)).all fun i => !s.owned i
  | _ => true

theorem copyOnFree_sound (s : State) (lab : Ev) (h : copyOnFree s lab = true) :
    CopyOnFree True s lab := by
  rintro - t len rfl i hi
  simpa using List.all_eq_true.mp h i hi

/-- A frame of two shards on the driver's own ring, with its second descriptor
armed and EOP about to be set in it. -/
theorem stores_respect_ownership_two_shards :
    let config := (runXmit [zeroFrame 0 4097]).play (List.replicate 26 none)
      (freshState 1 .a0Uncompressed xpnetTxNumDescs)
    config.1.label? = some (.storeQword 1 0) ∧ config.2.owned 1 = true ∧
      StoreOk config.2 (.storeQword 1 0) := by
  intro config
  have label : config.1.label? = some (.storeQword 1 0) := by decide +kernel
  have boot : Reach Env (CopyOnFree True) (runXmit [zeroFrame 0 4097])
      (freshState 1 .a0Uncompressed xpnetTxNumDescs) _ _ _ := .start
  obtain ⟨_, run⟩ := Reach.of_play copyOnFree_sound (List.replicate 26 none)
    (fun _ h => absurd (List.eq_of_mem_replicate h) (by simp)) boot (by decide +kernel)
  exact ⟨label, by decide +kernel, stores_respect_ownership ringSize_txNumDescs
    (initial_freshState 1 .a0Uncompressed _) run _ label⟩

/-- The schedule of `store_to_owned`: the device completes the first shard of a
frame and is late with the second. -/
def lateDevice : List (Option (State → State)) :=
  List.replicate 32 none ++ some (envMove (.complete 0)) :: List.replicate 73 none

/-- On A0 the second of two frames is copied over a descriptor of the first that
the device still owns. -/
theorem store_to_owned :
    ¬ ∀ s₀ : State, s₀.hwFlags = 1 → Initial xpnetTxNumDescs s₀ → ∀ frames p s tr,
      Reach Env (fun _ _ => True) (runXmit frames) s₀ p s tr →
      ∀ lab, p.label? = some lab → StoreOk s lab := by
  intro hstores
  have moves : ∀ f, some f ∈ lateDevice → ∀ s, Env s (f s) := by
    intro f hf s
    simp only [lateDevice, List.mem_append, List.mem_cons, List.mem_replicate] at hf
    rcases hf with ⟨-, h⟩ | h | ⟨-, h⟩
    · cases h
    · cases h
      exact env_move _ s
    · cases h
  obtain ⟨_, run⟩ := Reach.of_play_free (runXmit [zeroFrame 0 4097, zeroFrame 0 4097])
    (freshState 1 .a0Uncompressed xpnetTxNumDescs) lateDevice moves
  have label := hstores _ rfl (initial_freshState 1 .a0Uncompressed xpnetTxNumDescs) _ _ _ _ run
    (.storeLen 1) (by decide +kernel) 1 rfl (by decide +kernel)
  exact absurd label.1 (by decide +kernel)

/-! ### The walk of a frame -/

/-- **The walk.** When a frame of `k` shards is handed over, the device's walk
from its first descriptor visits exactly its shards, up to EOP, if and only if
the frame has one shard, or the A0 flag is clear and the shards do not wrap. -/
theorem walk_of_handed_over (size : RingSize n) (init : Initial n s₀)
    (run : Reach Env (fun _ _ => True) (runXmit frames) s₀ p s tr) {t k : Nat}
    (label : p.label? = some (.handOver t k)) :
    (p.after s).queue.follow (p.after s).queue.xpqNumDesc t =
        (slots (p.after s).queue.xpqNumDesc t k, true) ↔
      k = 1 ∨ (s.isA0 = false ∧ s.queue.tail + k ≤ (p.after s).queue.xpqNumDesc) := by
  have guar := (reach_unassumed run).next (wp_runXmit_initial size frames init) label
    fun h => h.elim
  obtain ⟨rfl, walk⟩ := guar.chain t k rfl
  exact walk

/-- The frame of one shard, handed over on the driver's own ring. -/
theorem walk_of_handed_over_one_shard :
    let config := (runXmit [zeroFrame 0 1]).play (List.replicate 22 none)
      (freshState 1 .a0Uncompressed xpnetTxNumDescs)
    let queue := (config.1.after config.2).queue
    config.1.label? = some (.handOver 0 1) ∧
      queue.follow queue.xpqNumDesc 0 = (slots queue.xpqNumDesc 0 1, true) := by
  intro config queue
  have label : config.1.label? = some (.handOver 0 1) := by decide +kernel
  obtain ⟨_, run⟩ := Reach.of_play_alone (runXmit [zeroFrame 0 1])
    (freshState 1 .a0Uncompressed xpnetTxNumDescs) 22
  exact ⟨label, (walk_of_handed_over ringSize_txNumDescs
    (initial_freshState 1 .a0Uncompressed _) run label).mpr (.inl rfl)⟩

/-- On A0 the walk of a frame of two shards ends at its first. -/
theorem unwalked_on_a0 :
    ¬ ∀ s₀ : State, Initial xpnetTxNumDescs s₀ → ∀ frames p s tr,
      Reach Env (fun _ _ => True) (runXmit frames) s₀ p s tr →
      ∀ t k, p.label? = some (.handOver t k) →
        (p.after s).queue.follow (p.after s).queue.xpqNumDesc t =
          (slots (p.after s).queue.xpqNumDesc t k, true) := by
  intro hwalks
  obtain ⟨_, run⟩ := Reach.of_play_alone (runXmit [zeroFrame 0 4097])
    (freshState 1 .a0Uncompressed xpnetTxNumDescs) 29
  have walk := hwalks _ (initial_freshState 1 .a0Uncompressed xpnetTxNumDescs) _ _ _ _ run 0 2
    (by decide +kernel)
  exact absurd walk (by decide +kernel)

/-! ### The ring as a queue -/

/-- The slots enqueued by the actions of a trace. -/
def submitted (tr : List (State × Ev)) : List Nat :=
  tr.flatMap fun a => match a.2 with
    | .moveTail t k => slots a.1.queue.xpqNumDesc t k
    | _ => []

/-- The slots retired by the actions of a trace. -/
def retired (tr : List (State × Ev)) : List Nat :=
  tr.flatMap fun a => match a.2 with
    | .moveHead i => [i]
    | _ => []

/-- One action keeps what is in flight between what went in and what came out. -/
theorem FifoStep.conserves {s s' : State} {lab : Ev} (step : FifoStep s lab s')
    {tr : List (State × Ev)} (before : submitted tr = retired tr ++ s.inflight) :
    submitted (tr ++ [(s, lab)]) = retired (tr ++ [(s, lab)]) ++ s'.inflight := by
  simp only [submitted, retired, List.flatMap_append, List.flatMap_singleton] at before ⊢
  rw [before]
  cases lab with
  | moveHead i =>
      obtain ⟨-, -, h⟩ := step
      simp [h]
  | moveTail t k =>
      have h : s'.inflight = s.inflight ++ slots s.queue.xpqNumDesc t k := step
      simp [h]
  | headBusy i => exact step.elim
  | shardBusy i => exact step.elim
  | _ =>
      have h : s'.inflight = s.inflight := step
      simp [h]

theorem env_inflight {s s' : State} (h : Env s s') :
    s'.inflight = s.inflight ∧ s'.freeRegion = s.freeRegion ∧ s'.isA0 = s.isA0 ∧
      s'.armed = s.armed := by
  obtain ⟨_, _, rfl⟩ := env_bitEnv h
  exact ⟨rfl, rfl, rfl, rfl⟩

/-- What every prefix of a run that started elsewhere than on A0 satisfies. -/
structure FifoInv (tr : List (State × Ev)) (s : State) : Prop where
  flag : s.isA0 = false
  hostFree : HostFree s
  conserved : submitted tr = retired tr ++ s.inflight

theorem FifoInv.env {tr : List (State × Ev)} {s s' : State} (h : Env s s') (inv : FifoInv tr s) :
    FifoInv tr s' := by
  obtain ⟨hin, hfree, hflag, harmed⟩ := env_inflight h
  refine ⟨hflag.trans inv.flag, fun i hi hown => ?_, hin ▸ inv.conserved⟩
  rw [hfree] at hi
  rw [harmed]
  refine inv.hostFree i hi ?_
  by_contra hfree
  have := env_stable_free i s s' h (by simpa using hfree)
  rw [this] at hown
  cases hown

theorem FifoInv.host {tr : List (State × Ev)} {s s' : State} {lab : Ev}
    (guar : TxGuar False s lab s') (inv : FifoInv tr s) : FifoInv (tr ++ [(s, lab)]) s' where
  flag := guar.flag.trans inv.flag
  hostFree := (guar.fifo inv.flag).hostFree
  conserved := (guar.fifo inv.flag).step.conserves inv.conserved

/-- **The ring is a queue.** With the A0 flag clear, in every state a run
reaches, the device owns of the free region only the shards the running call has
armed for the frame it is enqueueing, and nothing of it once the calls have
returned; the slots submitted are those retired followed by those in flight. Its
next action is none of the two busy exits; it retires only the oldest slot in
flight, and only when the host owns it; and it stores to no slot in flight. -/
theorem ring_is_fifo (size : RingSize n) (init : Initial n s₀) (flag : s₀.isA0 = false)
    (run : Reach Env (fun _ _ => True) (runXmit frames) s₀ p s tr) :
    (∀ i ∈ s.freeRegion, s.owned i = true → i ∈ s.armed) ∧
      (p = .ret () → ∀ i ∈ s.freeRegion, s.owned i = false) ∧
      submitted tr = retired tr ++ s.inflight ∧
      ∀ lab, p.label? = some lab → FifoOk s lab (p.after s) := by
  have verified := wp_runXmit_initial (c := False) size frames init
  have idle := init.idle size.pos
  have inv : FifoInv tr s := by
    refine (reach_unassumed run).invariant verified ⟨flag, ?_, ?_⟩
      (fun _ _ _ h inv => inv.env h) (fun _ _ _ _ guar inv => inv.host guar)
    · intro i hi
      rw [idle.base.indices.freeRegion size] at hi
      exact idle.base.fifo flag i hi
    · rw [idle.base.indices.inflight size, emptyRing_inflight]
      rfl
  refine ⟨inv.hostFree, fun done i hi => ?_, inv.conserved, fun lab label => ?_⟩
  · subst done
    obtain ⟨r, rfl, returned⟩ := (reach_unassumed run).post verified
    by_contra hown
    have := inv.hostFree i hi (by simpa using hown)
    rw [returned.armed] at this
    cases this
  · exact ((reach_unassumed run).next verified label fun h => h.elim).fifo inv.flag

end Runs

/-- The device completes the first of two frames at once and leaves the second
alone. -/
def firstOnly : List (Option (State → State)) :=
  List.replicate 23 none ++ some (envMove (.complete 0)) :: List.replicate 90 none

/-- Two frames on the driver's own ring, with the first retired. -/
theorem ring_is_fifo_two_frames :
    let config := (runXmit [zeroFrame 0 1, zeroFrame 0 1]).play firstOnly
      (freshState 0 .b0Compressed xpnetTxNumDescs)
    config.2.inflight = [1] ∧ (∀ i ∈ config.2.freeRegion, config.2.owned i = false) ∧
      ∃ tr, submitted tr = retired tr ++ [1] := by
  intro config
  have moves : ∀ f, some f ∈ firstOnly → ∀ s, Env s (f s) := by
    intro f hf s
    simp only [firstOnly, List.mem_append, List.mem_cons, List.mem_replicate] at hf
    rcases hf with ⟨-, h⟩ | h | ⟨-, h⟩
    · cases h
    · cases h
      exact env_move _ s
    · cases h
  have inflight : config.2.inflight = [1] := by decide +kernel
  have done : config.1.result? = some () := by decide +kernel
  obtain ⟨tr, run⟩ := Reach.of_play_free (runXmit [zeroFrame 0 1, zeroFrame 0 1])
    (freshState 0 .b0Compressed xpnetTxNumDescs) firstOnly moves
  have fifo := ring_is_fifo ringSize_txNumDescs (initial_freshState 0 .b0Compressed _) rfl run
  exact ⟨inflight, fifo.2.1 (Prog.eq_ret_of_result? done), tr, inflight ▸ fifo.2.2.1⟩

/-- While a frame is enqueued, its descriptors lie in the free region and the
device owns them already. -/
theorem armed_in_free_region :
    ¬ ∀ s₀ : State, s₀.isA0 = false → Initial xpnetTxNumDescs s₀ → ∀ frames p s tr,
      Reach Env (fun _ _ => True) (runXmit frames) s₀ p s tr →
      ∀ i ∈ s.freeRegion, s.owned i = false := by
  intro hfree
  obtain ⟨_, run⟩ := Reach.of_play_alone (runXmit [zeroFrame 0 1])
    (freshState 0 .b0Compressed xpnetTxNumDescs) 23
  have free := hfree _ rfl (initial_freshState 0 .b0Compressed xpnetTxNumDescs) _ _ _ _ run 0
    (by decide +kernel)
  exact absurd free (by decide +kernel)

end XpNet.Tx

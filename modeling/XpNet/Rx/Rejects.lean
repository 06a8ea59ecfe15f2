/-
Descriptors with the error bit, and what becomes of the descriptors a poll takes.

A poll compares the whole of `qword[0]` with 1 where the transmit side looks at one
bit. So of the descriptors of the host with the error bit, it rejects those with no
other bit, and those that it finds too long as it would any other; the rest it takes
for packets (`rejectsTail_iff`).

Whatever the descriptors hold, each one that a poll hands back to the device has been
delivered or counted as dropped, once (`runPolls_accounted`).
-/

import XpNet.Interference.Track
import XpNet.Rx.Swap

namespace XpNet.Rx

open XpNet.Interference
open Relation (ReflTransGen)

/-! ### What is handed back -/

/-- A descriptor that is handed back has its `qword[1]` stored once. -/
def handsBack : Ev → Nat
  | .storeQword _ k => if k = 1 then 1 else 0
  | _ => 0

/-- How many descriptors a run hands back. -/
def handedBack (tr : List (State × Ev)) : Nat := (tr.map fun x => handsBack x.2).sum

/-- The frames delivered and the descriptors counted as dropped. -/
def accounted (s : State) : Nat := s.delivered.length + s.stats.rxDropped

section Accounts

variable {writes : Nat → Prop} {mode : AddressMode} {n i size : Nat} {s s' : State}

theorem conserves_rejectDesc {count : Stats → Stats}
    (counts : ∀ t, (count t).rxDropped = t.rxDropped + 1) :
    Conserves accounted handsBack (rejectDesc n i count) 0 0 := by
  refine .bind (p := xpnetRxDescReset n i) (b := 1) ?reset fun _ =>
    .bind (p := xpnetRxDescEnable i) (b := 1) ?enable fun _ => ?count
  case reset =>
    refine .look rfl fun _ => .store (b := 0) (fun _ => rfl) ?_
    refine .store (b := 0) (fun _ => rfl) (.store (b := 1) (fun _ => rfl) ?_)
    exact ⟨1, fun _ => rfl, fun _ => rfl⟩
  case enable => exact .look rfl fun _ => ⟨1, fun _ => rfl, fun _ => rfl⟩
  case count =>
    refine ⟨0, fun s => ?_, fun _ => rfl⟩
    unfold accounted
    rw [counts]
    rfl

theorem conserves_restartAtZero (tail : Nat) :
    Conserves accounted handsBack (restartAtZero tail) 1 1 := by
  unfold restartAtZero
  split
  · exact .store (fun _ => rfl) ⟨1, fun _ => rfl, fun _ => rfl⟩
  · rfl

theorem conserves_takePacket : Conserves accounted handsBack (takePacket mode n i size) 0 0 := by
  rw [takePacket_eq]
  refine .bind (b := 0) ?swap fun _ => ?handOver
  case swap =>
    refine .look rfl fun va => ?_
    split
    · exact ⟨0, fun _ => rfl, fun _ => rfl⟩
    · trivial
  case handOver =>
    refine .look rfl fun frame => .store (b := 1) (fun _ => rfl) ?_
    refine .store (b := 1) (fun _ => rfl) (.store (b := 1) (fun _ => rfl) ?_)
    refine .bind (conserves_restartAtZero _) fun _ => ⟨0, fun s => ?_, fun _ => rfl⟩
    unfold accounted
    rw [List.length_append, List.length_singleton]
    change s.delivered.length + 1 + s.stats.rxDropped = s.delivered.length + s.stats.rxDropped + 1
    omega

theorem conserves_pollOwned : Conserves accounted handsBack (pollOwned mode n i) 0 0 := by
  refine .store (b := 0) (fun _ => rfl) (.look rfl fun qword1 => ?_)
  dsimp only
  split
  · exact (conserves_rejectDesc fun _ => rfl).bind fun _ => rfl
  · refine .look rfl fun skb => ?_
    split
    · exact conserves_takePacket.bind fun _ => rfl
    · rfl

/-- A round delivers or counts what it hands back. -/
theorem conserves_pollRound : Conserves accounted handsBack pollRound 0 0 := by
  refine .look rfl fun s => .look rfl fun qword0 => ?_
  split
  · exact (conserves_rejectDesc fun _ => rfl).bind fun _ => rfl
  · refine .look rfl fun qword0 => ?_
    split
    · rfl
    · exact conserves_pollOwned

theorem conserves_pollLoop (fuel count : Nat) :
    Conserves accounted handsBack (pollLoop fuel count) 0 0 := by
  induction fuel generalizing count with
  | zero => rfl
  | succ fuel ih =>
    refine conserves_pollRound.bind fun exit => ?_
    cases exit with
    | none => exact ih _
    | some exit => rfl

theorem conserves_runPolls (polls : List Nat) :
    Conserves accounted handsBack (runPolls polls) 0 0 := by
  induction polls with
  | nil => rfl
  | cons maxiter polls ih =>
    have poll : Conserves accounted handsBack (xpnetRxQueueProcess maxiter >>= fun _ => pure ())
        0 0 := (conserves_pollLoop maxiter 0).bind fun _ => rfl
    exact poll.bind fun _ => ih

theorem accounted_env (s s' : State) (step : DeviceWrites writes s s') :
    accounted s' = accounted s := by
  cases step with
  | desc i qword0 va own allowed => rfl
  | memory ok => rfl

/-- In every run of polls, as many frames are delivered and descriptors counted as
dropped as are handed back. -/
theorem runPolls_accounted {polls : List Nat} {tr : List (State × Ev)}
    (run : Runs (DeviceWrites writes) (runPolls polls) s tr () s') :
    accounted s' = accounted s + handedBack tr :=
  run.conserves accounted_env (conserves_runPolls polls)

end Accounts

/-! ### The descriptors that a poll rejects -/

/-- The run stores `qword[0]` of descriptor `i`. The words that `rejectDesc` stores there have the
ownership bit (`rejectDesc_arms`). -/
def Rearmed (i : Nat) (tr : List (State × Ev)) : Prop := ∃ s, (s, Ev.storeQword i 0) ∈ tr

/-- A word that the action stores to a `qword[0]` has the ownership bit. -/
def Arms (lab : Ev) (u : State → State) : Prop :=
  ∀ i, lab = .storeQword i 0 → ∀ s, (u s).owned i = true

section Arms

variable {n i : Nat}

theorem arms_of_ne {lab : Ev} {u : State → State} (other : ∀ j, lab ≠ .storeQword j 0) :
    Arms lab u := fun j store => absurd store (other j)

theorem arms_store {f : Desc → Desc} (own : ∀ d, ownership (f d).qword0 = true) :
    Arms (.storeQword i 0) fun s => s.updDesc i f := by
  intro j store s
  cases store
  rw [State.owned, updDesc_self]
  exact own _

/-- Both stores to the `qword[0]` of a rejected descriptor give it to the device. -/
theorem rejectDesc_arms (count : Stats → Stats) : Always Arms (rejectDesc n i count) := by
  refine Always.bind ?reset fun _ => Always.bind ?enable fun _ => ?count
  case reset =>
    refine Always.look (arms_of_ne fun _ => by simp) fun next =>
      ⟨arms_of_ne fun _ => by simp, fun _ => ⟨arms_of_ne fun _ => by simp, fun _ =>
        ⟨arms_of_ne fun _ => by simp, fun _ => ⟨?_, fun _ => trivial⟩⟩⟩⟩
    exact arms_store fun _ => ownership_ownBit
  case enable =>
    refine Always.look (arms_of_ne fun _ => by simp) fun qword0 => ⟨?_, fun _ => trivial⟩
    refine arms_store fun _ => ?_
    change ownership (enabledBits qword0) = true
    rw [enabledBits, ownership_or, ownership_ownBit, Bool.or_true]
  case count => exact ⟨arms_of_ne fun _ => by simp, fun _ => trivial⟩

end Arms

/-- What a run does with a descriptor that it drops: it delivers nothing, counts it and
arms it again. -/
structure Dropped (i : Nat) (s : State) (tr : List (State × Ev)) (s' : State) : Prop where
  delivered : s'.delivered = s.delivered
  counted : s'.stats.rxDropped = s.stats.rxDropped + 1
  rearmed : Rearmed i tr

/-- A poll with rounds left drops the descriptor at `tail`, and returns. -/
def RejectsTail (writes : Nat → Prop) (s : State) : Prop :=
  ∀ rounds count, ¬ Crashes (DeviceWrites writes) (pollLoop (rounds + 1) count) s ∧
    ∀ tr res s', Runs (DeviceWrites writes) (pollLoop (rounds + 1) count) s tr res s' →
      Dropped s.queue.tail s tr s'

/-- The bits and the length with which a poll rejects a descriptor of the host. -/
def Rejected (mode : AddressMode) (qword0 : BitVec 64) (qword1 : Nat) : Prop :=
  qword0 = 1 ∨ pktSize mode qword1 > xpnetMaxPacketSize

/-- The part of the state that only the host changes. -/
def State.host (s : State) : Nat × Nat × AddressMode × Stats × List Frame :=
  (s.queue.tail, s.queue.xpqNumDesc, s.mode, s.stats, s.delivered)

section Rejects

variable {writes : Nat → Prop} {mode : AddressMode} {n i : Nat} {s s' : State} {d : Desc}
  {tr : List (State × Ev)}

theorem host_env (s s' : State) (step : DeviceWrites writes s s') : s'.host = s.host := by
  cases step with
  | desc i qword0 va own allowed => rfl
  | memory ok => rfl

theorem tracks_rejectDesc {count : Stats → Stats} : Tracks State.host (rejectDesc n i count) s.host
    fun _ e => e.2.2.2 = (count s.stats, s.delivered) := by
  have reset : Tracks State.host (xpnetRxDescReset n i) s.host fun _ e => e = s.host := by
    refine .look fun _ _ => .act (fun _ => rfl) fun _ _ => .act (fun _ => rfl) fun _ _ => ?_
    exact .act (fun _ => rfl) fun _ _ => .act (fun _ => rfl) fun _ _ => rfl
  have enable : Tracks State.host (xpnetRxDescEnable i) s.host fun _ e => e = s.host :=
    .look fun _ _ => .act (fun _ => rfl) fun _ _ => rfl
  refine reset.bind fun _ _ h => h ▸ enable.bind fun _ _ h => h ▸ ?_
  intro t ht
  have hstats : t.stats = s.stats := congrArg (fun e => e.2.2.2.1) ht
  have hdelivered : t.delivered = s.delivered := congrArg (fun e => e.2.2.2.2) ht
  change (count t.stats, t.delivered) = _
  rw [hstats, hdelivered]

theorem Rearmed.append {tr' : List (State × Ev)} (h : Rearmed i tr) : Rearmed i (tr ++ tr') := by
  obtain ⟨s, hs⟩ := h
  exact ⟨s, List.mem_append_left _ hs⟩

theorem Rearmed.cons {x : State × Ev} (h : Rearmed i tr) : Rearmed i (x :: tr) := by
  obtain ⟨s, hs⟩ := h
  exact ⟨s, List.mem_cons_of_mem _ hs⟩

theorem rearmed_rxDescReset {u : Unit}
    (run : Runs (DeviceWrites writes) (xpnetRxDescReset n i) s tr u s') : Rearmed i tr := by
  obtain ⟨_, _, rest₁, -, rfl⟩ := runs_look run
  obtain ⟨_, _, rest₂, -, rfl⟩ := runs_write rest₁
  obtain ⟨_, _, rest₃, -, rfl⟩ := runs_write rest₂
  obtain ⟨_, _, rest₄, -, rfl⟩ := runs_write rest₃
  cases rest₄ with
  | act steps rest => exact .cons (.cons (.cons (.cons ⟨_, List.mem_cons_self⟩)))

theorem dropped_rejectDesc {count : Stats → Stats} {u : Unit}
    (counts : ∀ t, (count t).rxDropped = t.rxDropped + 1)
    (run : Runs (DeviceWrites writes) (rejectDesc n i count) s tr u s') : Dropped i s tr s' := by
  have hafter : s'.host.2.2.2 = (count s.stats, s.delivered) :=
    run.tracks host_env tracks_rejectDesc
  obtain ⟨_, _, _, _, reset, -, rfl⟩ := runs_bind.mp run
  have hstats : s'.stats = count s.stats := congrArg Prod.fst hafter
  refine ⟨congrArg Prod.snd hafter, ?_, (rearmed_rxDescReset reset).append⟩
  rw [hstats, counts]

theorem Dropped.before {t : State} {x : State × Ev} (h : Dropped i t tr s')
    (host : t.host = s.host) :
    Dropped i s (x :: tr) s' where
  delivered := h.delivered.trans (congrArg (fun e => e.2.2.2.2) host)
  counted := by
    have hstats : t.stats = s.stats := congrArg (fun e => e.2.2.2.1) host
    rw [h.counted, hstats]
  rearmed := h.rearmed.cons

theorem not_crashes_rejectDesc {rely : State → State → Prop} (count : Stats → Stats) :
    ¬ Crashes rely (rejectDesc n i count) s := by
  have always : Always (Plain .a0Uncompressed) (rejectDesc n i count) := always_rejectDesc count
  exact always.not_crashes

/-- The branch that the poll takes for a descriptor of the host that it rejects. -/
theorem pollOwned_rejects (hsize : pktSize mode d.qword1 > xpnetMaxPacketSize)
    (hown : ownership d.qword0 = false) (hd : s.desc i = d) :
    ¬ Crashes (DeviceWrites writes) (pollOwned mode n i) s ∧
      ∀ {tr exit s'}, Runs (DeviceWrites writes) (pollOwned mode n i) s tr exit s' →
        exit = some .tooLong ∧ Dropped i s tr s' := by
  have stays : Stable (DeviceWrites writes) fun s => s.desc i = d := stable_hostDesc hown
  constructor
  · intro crash
    cases crash with
    | act steps rest =>
      obtain ⟨t, steps', rest⟩ := crashes_look rest
      have before := stays.steps steps hd
      have ht : t.desc i = d := stays.steps steps' before
      rw [ht] at rest
      dsimp only at rest
      rw [if_pos hsize] at rest
      rcases crashes_bind rest with crash | ⟨_, _, _, -, crash⟩
      · exact not_crashes_rejectDesc _ crash
      · cases crash
  · intro tr exit s' run
    obtain ⟨t, _, rest₁, steps₁, rfl⟩ := runs_write run
    obtain ⟨u, _, rest₂, steps₂, rfl⟩ := runs_look rest₁
    have ht := stays.steps steps₁ hd
    have hu : u.desc i = d := stays.steps steps₂ ht
    rw [hu] at rest₂
    dsimp only at rest₂
    rw [if_pos hsize] at rest₂
    obtain ⟨_, m, _, _, reject, done, rfl⟩ := runs_bind.mp rest₂
    cases done with
    | ret steps =>
      have hdropped := dropped_rejectDesc (fun _ => rfl) (reject.later steps)
      have host₁ := kept_of_steps host_env steps₁
      have host₂ := kept_of_steps host_env steps₂
      rw [List.append_nil]
      exact ⟨rfl, Dropped.before (hdropped.before host₂) host₁⟩

theorem pollRound_rejects (writes : Nat → Prop) (hown : ownership d.qword0 = false)
    (hrej : Rejected s.mode d.qword0 d.qword1) (hd : s.desc s.queue.tail = d) :
    ¬ Crashes (DeviceWrites writes) pollRound s ∧
      ∀ {tr exit s'}, Runs (DeviceWrites writes) pollRound s tr exit s' →
        (∃ e, exit = some e) ∧ Dropped s.queue.tail s tr s' := by
  have stays : Stable (DeviceWrites writes) fun t => t.desc s.queue.tail = d := stable_hostDesc hown
  have place : ∀ {t : State}, t.host = s.host → t.queue.tail = s.queue.tail ∧ t.mode = s.mode :=
    fun host => ⟨congrArg Prod.fst host, congrArg (fun e => e.2.2.1) host⟩
  constructor
  · intro crash
    obtain ⟨t, steps₁, rest₁⟩ := crashes_look crash
    obtain ⟨u, steps₂, rest₂⟩ := crashes_look rest₁
    have ht := stays.steps steps₁ hd
    have hu : u.desc s.queue.tail = d := stays.steps steps₂ ht
    obtain ⟨htail, hmode⟩ := place (kept_of_steps host_env steps₁)
    simp only [id, htail, hmode, hu] at rest₂
    split at rest₂
    · rcases crashes_bind rest₂ with crash | ⟨_, _, _, -, crash⟩
      · exact not_crashes_rejectDesc _ crash
      · cases crash
    · rename_i hone
      have hsize := hrej.resolve_left fun h => hone (by rw [h]; rfl)
      obtain ⟨v, steps₃, rest₃⟩ := crashes_look rest₂
      have hv : v.desc s.queue.tail = d := stays.steps steps₃ hu
      rw [hv, if_neg (by simp [hown])] at rest₃
      exact (pollOwned_rejects hsize hown hv).1 rest₃
  · intro tr exit s' run
    obtain ⟨t, _, rest₁, steps₁, rfl⟩ := runs_look run
    obtain ⟨u, _, rest₂, steps₂, rfl⟩ := runs_look rest₁
    have ht := stays.steps steps₁ hd
    have hu : u.desc s.queue.tail = d := stays.steps steps₂ ht
    have host₁ := kept_of_steps host_env steps₁
    have host₂ := kept_of_steps host_env steps₂
    obtain ⟨htail, hmode⟩ := place host₁
    simp only [id, htail, hmode, hu] at rest₂
    split at rest₂
    · obtain ⟨_, m, _, _, reject, done, rfl⟩ := runs_bind.mp rest₂
      cases done with
      | ret steps =>
        have hdropped := dropped_rejectDesc (fun _ => rfl) (reject.later steps)
        rw [List.append_nil]
        exact ⟨⟨_, rfl⟩, Dropped.before (hdropped.before host₂) host₁⟩
    · rename_i hone
      have hsize := hrej.resolve_left fun h => hone (by rw [h]; rfl)
      obtain ⟨v, _, rest₃, steps₃, rfl⟩ := runs_look rest₂
      have hv : v.desc s.queue.tail = d := stays.steps steps₃ hu
      rw [hv, if_neg (by simp [hown])] at rest₃
      obtain ⟨hexit, hdropped⟩ := (pollOwned_rejects hsize hown hv).2 rest₃
      have host₃ := kept_of_steps host_env steps₃
      exact ⟨⟨_, hexit⟩, Dropped.before (Dropped.before (hdropped.before host₃) host₂) host₁⟩

/-- Done alone, a round takes a descriptor that it does not reject, if there is memory. -/
theorem exec_pollRound_of_not_rejected (hown : ownership d.qword0 = false)
    (htakes : ¬ Rejected s.mode d.qword0 d.qword1) (hd : s.desc s.queue.tail = d) :
    pollRound.exec s = (if s.allocOk = true then do
        takePacket s.mode s.queue.xpqNumDesc s.queue.tail (pktSize s.mode d.qword1)
        pure none
      else pure (some .noMemory) : RxProg (Option PollExit)).exec { s with jiffiesDefer := 0 } := by
  subst hd
  obtain ⟨hone, hsize⟩ := not_or.mp htakes
  have hbits : ¬ (s.desc s.queue.tail).qword0 >>> 0 = 1 := by simpa using hone
  change (if (s.desc s.queue.tail).qword0 >>> 0 = 1 then _ else _ : RxProg _).exec s = _
  rw [if_neg hbits]
  change (if ownership (s.desc s.queue.tail).qword0 = true then _ else _ : RxProg _).exec s = _
  rw [hown, if_neg Bool.false_ne_true]
  change (if pktSize s.mode (s.desc s.queue.tail).qword1 > xpnetMaxPacketSize then _
    else _ : RxProg _).exec { s with jiffiesDefer := 0 } = _
  rw [if_neg hsize]
  rfl

/-- A descriptor that is not rejected stays where it is when there is no memory. -/
theorem runs_noMemory (writes : Nat → Prop) (hown : ownership d.qword0 = false)
    (htakes : ¬ Rejected s.mode d.qword0 d.qword1) (hd : s.desc s.queue.tail = d)
    (hmem : s.allocOk = false) :
    ∃ tr, Runs (DeviceWrites writes) (xpnetRxQueueProcess 1) s tr (0, .noMemory)
      { s with jiffiesDefer := 0 } := by
  have hround : pollRound.exec s = some (some .noMemory, { s with jiffiesDefer := 0 }) := by
    rw [exec_pollRound_of_not_rejected hown htakes hd, hmem, if_neg Bool.false_ne_true]
    rfl
  exact Runs.of_exec (Prog.exec_bind_some.mpr ⟨_, _, hround, rfl⟩)

/-- A poll rejects a descriptor of the host exactly for its bits and its length. -/
theorem rejectsTail_iff (hown : s.owned s.queue.tail = false) :
    RejectsTail writes s ↔
      Rejected s.mode (s.desc s.queue.tail).qword0 (s.desc s.queue.tail).qword1 := by
  constructor
  · intro hrejects
    by_contra htakes
    let s₁ : State := { s with allocOk := false }
    have refused : DeviceWrites writes s s₁ := .memory s false
    obtain ⟨tr, run⟩ := runs_noMemory writes (s := s₁) hown htakes rfl rfl
    obtain ⟨-, hcounted, -⟩ := (hrejects 0 0).2 _ _ _ (run.before (.single refused))
    change s.stats.rxDropped = s.stats.rxDropped + 1 at hcounted
    omega
  · intro hrej rounds count
    have round := pollRound_rejects writes hown hrej rfl
    constructor
    · intro crash
      rcases crashes_bind crash with crash | ⟨exit, m, _, run, crash⟩
      · exact round.1 crash
      · obtain ⟨e, rfl⟩ := (round.2 run).1
        cases crash
    · intro tr res s' run
      obtain ⟨exit, m, _, _, first, rest, rfl⟩ := runs_bind.mp run
      obtain ⟨⟨e, rfl⟩, -⟩ := round.2 first
      cases rest with
      | ret steps =>
        obtain ⟨-, hdropped⟩ := round.2 (first.later steps)
        rw [List.append_nil]
        exact hdropped

end Rejects

/-- **Error descriptors.** Whatever the device writes meanwhile: a poll drops a
descriptor of the host with the error bit exactly when `qword[0]` has no other bit or the
packet is too long, and over every run of polls, what is handed back to the device has
been delivered or counted as dropped, once. -/
theorem errors_rejected_iff (writes : Nat → Prop) :
    (∀ s : State, s.owned s.queue.tail = false →
      errorIndication (s.desc s.queue.tail).qword0 = true →
      (RejectsTail writes s ↔
        Rejected s.mode (s.desc s.queue.tail).qword0 (s.desc s.queue.tail).qword1)) ∧
    ∀ polls s tr s', Runs (DeviceWrites writes) (runPolls polls) s tr () s' →
      accounted s' = accounted s + handedBack tr :=
  ⟨fun _ hown _ => rejectsTail_iff hown, fun _ _ _ _ run => runPolls_accounted run⟩

/-- An error in a descriptor that starts and ends a packet: the packet is delivered and
nothing is counted. -/
theorem error_with_ends_delivered : ∃ s, DeviceWrites (fun _ => True)
      (freshState .b0Compressed xpnetRxNumDescs) s ∧
    s.owned s.queue.tail = false ∧ errorIndication (s.desc s.queue.tail).qword0 = true ∧
    ¬ RejectsTail (fun _ => True) s ∧
    ∃ tr s', Runs (DeviceWrites fun _ => True) (xpnetRxQueueProcess 1) s tr (1, .maxiter) s' ∧
      s'.delivered = [[0]] ∧ s'.stats.rxDropped = 0 := by
  let s₀ := freshState .b0Compressed xpnetRxNumDescs
  let s := s₀.updDesc 0 (writeBack (errBit ||| eopBit ||| sopBit) (fun _ => 0) (1 * 2 ^ 16))
  have hpoll : ((xpnetRxQueueProcess 1).exec s).map (fun r => (r.1, r.2.delivered,
      r.2.stats.rxDropped)) = some ((1, .maxiter), [[0]], 0) := by decide +kernel
  obtain ⟨⟨_, s'⟩, hexec, hr⟩ := Option.map_eq_some_iff.mp hpoll
  simp only [Prod.mk.injEq] at hr
  obtain ⟨rfl, hdelivered, hdropped⟩ := hr
  have run : ∃ tr, Runs (DeviceWrites fun _ => True) (xpnetRxQueueProcess 1) s tr (1, .maxiter)
      s' := Runs.of_exec hexec
  obtain ⟨tr, run⟩ := run
  refine ⟨s, .desc s₀ 0 _ _ (by decide +kernel) trivial, by decide +kernel, by decide +kernel, ?_,
    tr, s', run, hdelivered, hdropped⟩
  intro hrejects
  have hcounted : s'.stats.rxDropped = 0 + 1 := ((hrejects 0 0).2 _ _ _ run).counted
  rw [hdropped] at hcounted
  cases hcounted

end XpNet.Rx

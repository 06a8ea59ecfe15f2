/-
The transmit entry of a network interface, `xp_ndo_start_xmit` of
`xp_netdev_intf.c`: it puts the interface's TX header in front of the frame, in
the buffer's headroom or in an expanded copy, and hands the result to
`xpnet_start_xmit`. After `NETDEV_TX_BUSY` the kernel submits the same buffer
again.

`copiedBytes` reads off a trace what was copied to the ring. `retried_frame`
says what that is after any number of busy results, and `retried_frame_iff` when
it is the header followed by the payload.
-/

import XpNet.Interference.Trace
import XpNet.Tx.Discipline

namespace XpNet.Tx

open XpNet.Interference

/-! ### The entry -/

def State.updNetdev (s : State) (dev : Nat) (f : NetDevice → NetDevice) : State :=
  { s with netdev := Function.update s.netdev dev (f (s.netdev dev)) }

/-- The end of `xp_ndo_start_xmit`: what it frees and counts. `newSkb` is the
expanded copy, if there is one. -/
def ndoFinish (dev : Nat) (skb : SkBuff) (newSkb : Option SkBuff) (exit : XmitExit) :
    TxProg Unit :=
  match exit.rc with
  | .ok => do
    if newSkb.isSome then Prog.emit (.kfreeSkb skb.expanded)
    Prog.write .priv fun s => s.updNetdev dev fun d => { d with txPackets := d.txPackets + 1 }
  | .busy => do
    match newSkb with
    | some new => Prog.emit (.kfreeSkb new.expanded)
    | none => pure ()
    Prog.write (.stopQueue dev) fun s => s.updNetdev dev fun d => { d with queueStopped := true }

/-- The path of a buffer without headroom for the header. `skb_push` of the
null pointer that a failed `skb_copy_expand` returns crashes the kernel. -/
def ndoExpand (dev : Nat) (skb : SkBuff) : TxProg (XmitExit × SkBuff) := do
  let allocOk ← Prog.look .priv State.allocOk
  if allocOk then do
    let hdr ← Prog.look .priv fun s => (s.netdev dev).txHeader
    let newSkb := skbPush (skbCopyExpand skb txHeaderLen) hdr.val
    let exit ← xpnetStartXmit newSkb
    ndoFinish dev skb (some newSkb) exit
    pure (exit, skb)
  else .diverge

/-- The path of a buffer with headroom for the header. -/
def ndoInPlace (dev : Nat) (skb : SkBuff) : TxProg (XmitExit × SkBuff) := do
  let hdr ← Prog.look .priv fun s => (s.netdev dev).txHeader
  let pushed := skbPush skb hdr.val
  let exit ← xpnetStartXmit pushed
  ndoFinish dev pushed none exit
  pure (exit, pushed)

/-- `xp_ndo_start_xmit`. Beside the exit it returns the buffer as the kernel
holds it afterwards, which the exit `txbusy` leaves to the kernel. -/
def xpNdoStartXmit (dev : Nat) (skb : SkBuff) : TxProg (XmitExit × SkBuff) := do
  let up ← Prog.look .priv fun s => (s.netdev dev).up
  if up then
    if skb.headroom < txHeaderLen then ndoExpand dev skb else ndoInPlace dev skb
  else do
    Prog.emit (.kfreeSkb skb.expanded)
    pure (.txdrop, skb)

/-! ### What a run copies -/

/-- The bytes of the frame an action copies to the ring. -/
def Ev.copied : Ev → List UInt8
  | .memcpy _ src => src
  | _ => []

/-- The bytes a trace copies to the ring, in order. -/
def copiedBytes (tr : List (State × Ev)) : List UInt8 := tr.flatMap fun a => a.2.copied

@[simp] theorem copiedBytes_append (tr tr' : List (State × Ev)) :
    copiedBytes (tr ++ tr') = copiedBytes tr ++ copiedBytes tr' := List.flatMap_append

@[simp] theorem copiedBytes_cons (s : State) (lab : Ev) (tr : List (State × Ev)) :
    copiedBytes ((s, lab) :: tr) = lab.copied ++ copiedBytes tr := List.flatMap_cons

@[simp] theorem copiedBytes_nil : copiedBytes [] = [] := rfl

/-- A program that copies nothing. -/
def Copyless {α : Type} (p : TxProg α) : Prop := Always (fun lab _ => lab.copied = []) p

theorem copyless_of_still {α : Type} {p : TxProg α} (still : Always Still p) : Copyless p := by
  apply still.mono
  intro lab u step
  have label := step.label
  cases lab <;> trivial

section Copies

variable {rely : State → State → Prop} {s s' : State} {tr : List (State × Ev)}

theorem copiedBytes_of_copyless {α : Type} {p : TxProg α} {a : α} (h : Copyless p)
    (run : Runs rely p s tr a s') : copiedBytes tr = [] := by
  apply List.flatMap_eq_nil_iff.mpr
  intro x hx
  obtain ⟨_, hlab⟩ := run.always h x hx
  exact hlab

theorem runs_swapShard {i : Nat} {u : Unit} (run : Runs rely (swapShard i) s tr u s') :
    copiedBytes tr = [] := by
  obtain ⟨t, tr', rest, -, rfl⟩ := runs_look run
  simp only [id] at rest
  split at rest
  · cases rest with
    | act _ rest =>
        cases rest
        rfl
  · cases rest

/-- One round copies its piece of the frame. -/
theorem runs_fillShard {skb : SkBuff} {copied i : Nat} {u : Unit}
    (run : Runs rely (fillShard skb copied i) s tr u s') :
    copiedBytes tr = (skb.data.drop copied).take (bytesToCopy skb.len copied) := by
  have copy : ∀ {t tr'}, Runs rely (storeDesc
      (.memcpy i ((skb.data.drop copied).take (bytesToCopy skb.len copied))) i
      (fun d => setVa (memcpy d.bufSta.va
        ((skb.data.drop copied).take (bytesToCopy skb.len copied))) d) >>= fun _ => swapShard i)
        t tr' u s' →
      copiedBytes tr' = (skb.data.drop copied).take (bytesToCopy skb.len copied) := by
    intro t tr' run
    obtain ⟨_, _, rest, -, rfl⟩ := runs_write run
    rw [copiedBytes_cons, runs_swapShard rest, List.append_nil]
    rfl
  obtain ⟨_, _, sized, -, rfl⟩ := runs_write run
  rw [copiedBytes_cons]
  by_cases hshort : skb.len < 128
  · simp only [hshort, if_true] at sized
    obtain ⟨_, _, cleared, -, rfl⟩ := runs_write sized
    obtain ⟨_, _, padded, -, rfl⟩ := runs_write cleared
    rw [copiedBytes_cons, copiedBytes_cons]
    exact copy padded
  · simp only [hshort, if_false] at sized
    exact copy sized

/-- The loop copies what is left of the frame. -/
theorem runs_skbToShardsLoop {skb : SkBuff} (linear : skb.data.length = skb.len)
    {n copied i idx k : Nat} (run : Runs rely (skbToShardsLoop skb n copied i idx) s tr k s') :
    copiedBytes tr = skb.data.drop copied := by
  fun_induction skbToShardsLoop skb n copied i idx generalizing s tr with
  | case1 copied i idx more ih =>
      obtain ⟨_, m, tr₁, tr₂, first, rest, rfl⟩ := runs_bind.mp run
      rw [copiedBytes_append, runs_fillShard first, ih rest, ← List.drop_drop,
        List.take_append_drop]
  | case2 copied i idx stop =>
      cases run
      rw [List.drop_eq_nil_of_le (by omega)]
      rfl

theorem runs_skbToShards {skb : SkBuff} (linear : skb.data.length = skb.len) {k : Nat}
    (run : Runs rely (xpnetSkbToShards skb) s tr k s') : copiedBytes tr = skb.data := by
  obtain ⟨_, _, rest, -, rfl⟩ := runs_look run
  exact runs_skbToShardsLoop linear rest

theorem xmitEnqueued_copyless (skb : SkBuff) (tail n shards : Nat) (res : EnqueueResult) :
    Copyless (xmitEnqueued skb tail n shards res) := by
  cases res with
  | ok => exact ⟨rfl, fun _ => ⟨rfl, fun _ => ⟨rfl, fun _ => trivial⟩⟩⟩
  | queueBusy => trivial
  | queueError => exact ⟨rfl, fun _ => trivial⟩

theorem skbStatEnqueue_copyless (shards : Nat) : Copyless (xpnetSkbStatEnqueue shards) :=
  ⟨rfl, fun _ => copyless_of_still
    ((checkShards_still _ _ _).bind fun res => enqueueChecked_still _ _ _ res)⟩

/-- A frame that gets past the checks is copied as a whole. -/
theorem runs_xmitFrame {skb : SkBuff} (linear : skb.data.length = skb.len) {tail n free : Nat}
    {exit : XmitExit} (run : Runs rely (xmitFrame skb tail n free) s tr exit s') :
    copiedBytes tr = skb.data := by
  have enqueue : ∀ {t tr' shards}, Runs rely (xpnetSkbStatEnqueue shards >>= fun res =>
      xmitEnqueued skb tail n shards res) t tr' exit s' → copiedBytes tr' = [] := by
    intro t tr' shards run
    exact copiedBytes_of_copyless ((skbStatEnqueue_copyless shards).bind fun res =>
      xmitEnqueued_copyless skb tail n shards res) run
  obtain ⟨_, _, rest, -, rfl⟩ := runs_emit run
  obtain ⟨shards, m, tr₁, tr₂, copy, checked, rfl⟩ := runs_bind.mp rest
  have bytes := runs_skbToShards linear copy
  rw [copiedBytes_cons, copiedBytes_append, bytes]
  split at checked
  · obtain ⟨_, _, reported, -, rfl⟩ := runs_emit checked
    rw [copiedBytes_cons, enqueue reported]
    simp [Ev.copied]
  · rw [enqueue checked]
    simp [Ev.copied]

/-- A dropped frame is not an accepted one. -/
theorem txErrorDrop_exit {q : Option SkBuff} {exit : XmitExit}
    (run : Runs rely (txErrorDrop q) s tr exit s') : exit = .txdrop := by
  obtain ⟨_, _, rest, -, rfl⟩ := runs_write run
  cases q with
  | none =>
      obtain ⟨_, _, last, -, rfl⟩ := runs_write rest
      cases last
      rfl
  | some skb =>
      obtain ⟨_, _, freed, -, rfl⟩ := runs_emit rest
      obtain ⟨_, _, last, -, rfl⟩ := runs_write freed
      cases last
      rfl

/-- **An accepted frame** is linear, and its bytes are what is copied. -/
theorem runs_hardStartXmit_txok {skb : SkBuff}
    (run : Runs rely (xpnetHardStartXmit (some skb)) s tr .txok s') :
    skb.dataLen = 0 ∧ copiedBytes tr = skb.data := by
  obtain ⟨t, tr', rest, -, rfl⟩ := runs_look run
  have copied : skb.dataLen = 0 ∧ copiedBytes tr' = skb.data := by
    revert rest
    refine xmitFrom_cases (P := fun p => Runs rely p t tr' .txok s' → _) ?refused ?full ?checked
    case refused =>
      intro _ drop
      cases txErrorDrop_exit drop
    case full =>
      intro _ _ busy
      cases busy
    case checked =>
      intro _ _ _ _ hlinear check
      have linear : skb.data.length = skb.len := by
        have := skb.len_eq
        omega
      obtain ⟨_, _, head, -, rfl⟩ := runs_look check
      split at head
      · obtain ⟨_, _, busy, -, rfl⟩ := runs_emit head
        cases busy
      · obtain ⟨_, _, sane, -, rfl⟩ := runs_look head
        split at sane
        · cases sane
        · refine ⟨hlinear, ?_⟩
          simp only [copiedBytes_cons, runs_xmitFrame linear sane]
          rfl
  refine ⟨copied.1, ?_⟩
  rw [copiedBytes_cons, copied.2]
  rfl

theorem completeAfter_copyless (numDesc : Nat) (exit : XmitExit) :
    Copyless (completeAfter numDesc exit) := by
  have complete : Copyless (xpnetTxComplete numDesc) :=
    txComplete_always (fun lab looks => by cases lab <;> first | rfl | exact looks.elim)
      (fun _ => rfl) rfl _
  unfold completeAfter
  split
  · exact complete.bind fun _ => trivial
  · trivial

/-- The same, of `xpnet_start_xmit`. -/
theorem runs_startXmit_txok {skb : SkBuff} (run : Runs rely (xpnetStartXmit skb) s tr .txok s') :
    skb.dataLen = 0 ∧ copiedBytes tr = skb.data := by
  obtain ⟨t, _, rest, -, rfl⟩ := runs_look run
  simp only [id, startXmitFrom] at rest
  split at rest
  · obtain ⟨_, _, last, -, rfl⟩ := runs_emit rest
    cases last
  · obtain ⟨exit, m, tr₁, tr₂, first, last, rfl⟩ := runs_bind.mp rest
    have quiet := copiedBytes_of_copyless (completeAfter_copyless _ _) last
    have same : exit = .txok := by
      unfold completeAfter at last
      split at last
      · obtain ⟨_, _, _, _, -, last, -⟩ := runs_bind.mp last
        cases last
        rfl
      · cases last
        rfl
    subst same
    obtain ⟨linear, bytes⟩ := runs_hardStartXmit_txok first
    refine ⟨linear, ?_⟩
    rw [copiedBytes_cons, copiedBytes_append, bytes, quiet, List.append_nil]
    rfl

theorem ndoFinish_copyless (dev : Nat) (skb : SkBuff) (newSkb : Option SkBuff) (exit : XmitExit) :
    Copyless (ndoFinish dev skb newSkb exit) := by
  cases exit <;> cases newSkb <;>
    first
    | exact ⟨rfl, fun _ => trivial⟩
    | exact ⟨rfl, fun _ => ⟨rfl, fun _ => trivial⟩⟩

end Copies

/-! ### One submission -/

/-- The environment leaves the interfaces alone. -/
theorem env_netdev {s s' : State} (steps : Relation.ReflTransGen Env s s') :
    s'.netdev = s.netdev := by
  induction steps with
  | refl => rfl
  | tail _ step ih =>
      obtain ⟨_, _, rfl⟩ := env_bitEnv step
      exact ih

/-- The end of a submission: what is passed on, and then what is done about its answer. -/
theorem runs_sendAndFinish {rely : State → State → Prop} {start : TxProg XmitExit}
    {finish : XmitExit → TxProg Unit} {kept left : SkBuff} {exit : XmitExit} {s s' : State}
    {tr : List (State × Ev)}
    (run : Runs rely (do
        let exit ← start
        finish exit
        pure (exit, kept)) s tr (exit, left) s') :
    left = kept ∧ ∃ m tr₁ tr₂, Runs rely start s tr₁ exit m ∧ Runs rely (finish exit) m tr₂ () s' ∧
      tr = tr₁ ++ tr₂ := by
  obtain ⟨exit', m, tr₁, tr₂, first, rest, rfl⟩ := runs_bind.mp run
  obtain ⟨_, m', tr₃, tr₄, finished, last, rfl⟩ := runs_bind.mp rest
  cases last with
  | ret steps => exact ⟨rfl, m, tr₁, tr₃, first, finished.later steps, by simp⟩

/-- A submission of a frame: what an accepted one copies, and what a busy one
leaves to the kernel. -/
theorem runs_ndoStartXmit {dev : Nat} {skb left : SkBuff} {exit : XmitExit} {s s' : State}
    {tr : List (State × Ev)} (run : Runs Env (xpNdoStartXmit dev skb) s tr (exit, left) s') :
    let hdr := (s.netdev dev).txHeader.val
    (exit = .txok → copiedBytes tr = hdr ++ (skb.data ++ skb.frags)) ∧
      (exit = .txbusy → left = if skb.headroom < txHeaderLen then skb else skbPush skb hdr) := by
  intro hdr
  -- from the header on, on the buffer it is put in front of
  have send : ∀ {t t' : State} {tr' : List (State × Ev)} {new : SkBuff} {newSkb : Option SkBuff}
      {sent kept : SkBuff}, Runs Env (do
          let exit ← xpnetStartXmit new
          ndoFinish dev sent newSkb exit
          pure (exit, kept)) t tr' (exit, left) t' →
      left = kept ∧ (exit = .txok → new.dataLen = 0 ∧ copiedBytes tr' = new.data) := by
    intro t t' tr' new newSkb sent kept run
    obtain ⟨hleft, m, tr₁, tr₂, first, finish, rfl⟩ := runs_sendAndFinish run
    refine ⟨hleft, fun ok => ?_⟩
    subst ok
    obtain ⟨linear, bytes⟩ := runs_startXmit_txok first
    refine ⟨linear, ?_⟩
    rw [copiedBytes_append, bytes, copiedBytes_of_copyless (ndoFinish_copyless _ _ _ _) finish]
    simp
  obtain ⟨t, _, rest, steps, rfl⟩ := runs_look run
  have hdr_t : (t.netdev dev).txHeader.val = hdr := by rw [env_netdev steps]
  split at rest
  · split at rest
    · rename_i hroom
      obtain ⟨u, _, alloc, steps', rfl⟩ := runs_look rest
      split at alloc
      · obtain ⟨v, _, header, steps'', rfl⟩ := runs_look alloc
        have hdr_v : (v.netdev dev).txHeader.val = hdr := by
          rw [env_netdev steps'', env_netdev steps', hdr_t]
        obtain ⟨rfl, sent⟩ := send header
        refine ⟨fun ok => ?_, fun _ => (if_pos hroom).symm⟩
        rw [copiedBytes_cons, copiedBytes_cons, copiedBytes_cons, (sent ok).2, hdr_v]
        rfl
      · cases alloc
    · rename_i hroom
      obtain ⟨v, _, header, steps'', rfl⟩ := runs_look rest
      have hdr_v : (v.netdev dev).txHeader.val = hdr := by rw [env_netdev steps'', hdr_t]
      obtain ⟨rfl, sent⟩ := send header
      refine ⟨fun ok => ?_, fun _ => ?_⟩
      · have hfrags : skb.frags = [] := by
          have hlen : skb.dataLen = 0 := (sent ok).1
          rw [skb.dataLen_eq] at hlen
          exact List.eq_nil_of_length_eq_zero hlen
        rw [copiedBytes_cons, copiedBytes_cons, (sent ok).2, hdr_v, hfrags, List.append_nil]
        rfl
      · rw [if_neg hroom, hdr_v]
  · obtain ⟨_, _, last, -, rfl⟩ := runs_emit rest
    cases last
    exact ⟨fun h => (by cases h), fun h => (by cases h)⟩

/-! ### Retries -/

/-- The kernel submits `skb` to `dev`, whose stored header is `hdr`, and again
after each of `busy` busy results; the submission accepted at last copies
`frame`. Between two submissions anything may happen but a change of the header. -/
inductive Retried (dev : Nat) (hdr : TxHeader) : Nat → SkBuff → List UInt8 → Prop where
  | accepted {skb left s tr s'} : (s.netdev dev).txHeader = hdr →
      Runs Env (xpNdoStartXmit dev skb) s tr (.txok, left) s' →
      Retried dev hdr 0 skb (copiedBytes tr)
  | busy {skb left s tr s' n frame} : (s.netdev dev).txHeader = hdr →
      Runs Env (xpNdoStartXmit dev skb) s tr (.txbusy, left) s' →
      Retried dev hdr n left frame → Retried dev hdr (n + 1) skb frame

section Retries

variable {dev busy : Nat} {hdr : TxHeader} {skb : SkBuff} {frame : List UInt8}

/-- Every busy result that found headroom has put a header of its own in front
of the payload. -/
theorem retried_frame (h : Retried dev hdr busy skb frame) : frame =
    hdr.val ++ ((List.replicate (min busy (skb.headroom / txHeaderLen)) hdr.val).flatten ++
      (skb.data ++ skb.frags)) := by
  induction h with
  | accepted stored run =>
      have sent := (runs_ndoStartXmit run).1 rfl
      rw [stored] at sent
      simpa using sent
  | @busy skb left s tr s' n frame stored run _ ih =>
      have kept := (runs_ndoStartXmit run).2 rfl
      rw [stored] at kept
      rw [ih, kept]
      by_cases hroom : skb.headroom < txHeaderLen
      · rw [if_pos hroom, Nat.div_eq_of_lt hroom, Nat.min_zero, Nat.min_zero]
      · have hpush : (skbPush skb hdr.val).headroom = skb.headroom - txHeaderLen := by
          change skb.headroom - hdr.val.length = _
          rw [hdr.property]
        have hcount : min (n + 1) (skb.headroom / txHeaderLen) =
            min n ((skb.headroom - txHeaderLen) / txHeaderLen) + 1 := by
          simp only [txHeaderLen] at hroom ⊢
          omega
        rw [if_neg hroom, hpush, hcount, List.replicate_succ', List.flatten_append]
        simp [skbPush]

/-- **The frame copied after retries** is the stored header followed by the
payload if and only if no submission was busy, or the buffer has no headroom for
the header. -/
theorem retried_frame_iff (h : Retried dev hdr busy skb frame) :
    frame = hdr.val ++ (skb.data ++ skb.frags) ↔ busy = 0 ∨ skb.headroom < txHeaderLen := by
  have hlen := hdr.property
  have hcount : min busy (skb.headroom / txHeaderLen) = 0 ↔
      busy = 0 ∨ skb.headroom < txHeaderLen := by
    simp only [txHeaderLen]
    omega
  rw [retried_frame h, ← hcount]
  constructor
  · intro same
    have flat := List.append_left_eq_self.mp (List.append_cancel_left same)
    by_contra some
    have empty := List.flatten_eq_nil_iff.mp flat hdr.val (List.mem_replicate.mpr ⟨some, rfl⟩)
    rw [empty] at hlen
    cases hlen
  · intro none
    rw [none]
    rfl

end Retries

/-- A submission on its own, by its exit. -/
theorem runs_of_exit {dev : Nat} {skb : SkBuff} {s : State} {exit : XmitExit}
    (h : ((xpNdoStartXmit dev skb).exec s).map (fun r => r.1.1) = some exit) :
    ∃ left tr s', Runs Env (xpNdoStartXmit dev skb) s tr (exit, left) s' := by
  obtain ⟨⟨⟨exit', left⟩, s'⟩, run, hexit⟩ := Option.map_eq_some_iff.mp h
  cases hexit
  obtain ⟨tr, run⟩ := Runs.of_exec run
  exact ⟨left, tr, s', run⟩

/-- The driver's own ring, full. -/
def fullRing : State :=
  (freshState 0 .b0Compressed xpnetTxNumDescs).updQueue fun q => { q with head := 0 }

/-- A frame without headroom, accepted after one busy result. -/
theorem retried_frame_iff_expanded : ∃ frame,
    Retried 0 unsetTxHeader 1 (zeroFrame 0 100) frame ∧
      frame = List.replicate 24 0 ++ (List.replicate 100 0 ++ []) := by
  have first : ((xpNdoStartXmit 0 (zeroFrame 0 100)).exec fullRing).map (fun r => r.1.1) =
      some .txbusy := by
    decide +kernel
  have second : ((xpNdoStartXmit 0 (zeroFrame 0 100)).exec
      (freshState 0 .b0Compressed xpnetTxNumDescs)).map (fun r => r.1.1) = some .txok := by
    decide +kernel
  obtain ⟨left, _, _, full⟩ := runs_of_exit first
  obtain rfl : left = zeroFrame 0 100 := (runs_ndoStartXmit full).2 rfl
  obtain ⟨_, _, _, accepted⟩ := runs_of_exit second
  have retried : Retried 0 unsetTxHeader 1 (zeroFrame 0 100) _ :=
    .busy rfl full (.accepted rfl accepted)
  exact ⟨_, retried, (retried_frame_iff retried).mpr (.inr (by decide))⟩

/-- A frame with headroom for one header carries two after a busy result. -/
theorem retried_in_place :
    ¬ ∀ dev hdr busy skb frame, Retried dev hdr busy skb frame →
      frame = hdr.val ++ (skb.data ++ skb.frags) := by
  intro honce
  have first : ((xpNdoStartXmit 0 (zeroFrame 24 100)).exec fullRing).map (fun r => r.1.1) =
      some .txbusy := by
    decide +kernel
  have second : ((xpNdoStartXmit 0 (skbPush (zeroFrame 24 100) (List.replicate 24 0))).exec
      (freshState 0 .b0Compressed xpnetTxNumDescs)).map (fun r => r.1.1) = some .txok := by
    decide +kernel
  obtain ⟨left, _, _, full⟩ := runs_of_exit first
  obtain rfl : left = skbPush (zeroFrame 24 100) (List.replicate 24 0) :=
    (runs_ndoStartXmit full).2 rfl
  obtain ⟨_, _, _, accepted⟩ := runs_of_exit second
  have retried : Retried 0 unsetTxHeader 1 (zeroFrame 24 100) _ :=
    .busy rfl full (.accepted rfl accepted)
  have twice := congrArg List.length (retried_frame retried)
  have once := congrArg List.length (honce _ _ _ _ _ retried)
  rw [once] at twice
  exact absurd twice (by decide +kernel)

end XpNet.Tx

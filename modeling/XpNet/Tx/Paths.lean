/-
From the interfaces to the ring.

A frame comes to `xpnet_start_xmit` through an open interface, which puts its TX header in
front of it, through the callback of the UDP client socket, which takes the UDP header off,
or through the exported `xp_packet_send`. `passedOn` are the frames that a sequence of calls
passes on to `xpnet_start_xmit`.

* `startXmit_wire`: one call appends the shards of its frame to those in flight, or nothing,
  and some are retired in front.
* `interfaces_reach_ring`: after any sequence of calls the shards in flight are the last ones
  of frames that were passed on.
-/

import XpNet.Tx.Entries
import XpNet.Tx.Wire

namespace XpNet.Tx

open XpNet.Interference
open Relation (ReflTransGen)

/-! ### The frames passed on -/

/-- The frame that a way in passes on, by the headers of the interfaces and which are up. -/
def Entry.passes (hdr : Nat → TxHeader) (up : Nat → Bool) : Entry → List SkBuff
  | .ndoStartXmit dev skb => if up dev then [withHeader (hdr dev) skb] else []
  | .socket datagram => [datagram.payload]
  | .packetSend _ _ skb => [skb]

/-- The frames that a sequence of calls passes on. -/
def passedOn (hdr : Nat → TxHeader) (up : Nat → Bool) : List NetCall → List SkBuff
  | [] => []
  | .ndoOpen dev :: calls => passedOn hdr (Function.update up dev true) calls
  | .ndoStop dev :: calls => passedOn hdr (Function.update up dev false) calls
  | .transmit e :: calls => e.passes hdr up ++ passedOn hdr up calls

/-- The bytes of a frame with its header. -/
theorem withHeader_bytes (hdr : TxHeader) (skb : SkBuff) :
    (withHeader hdr skb).data ++ (withHeader hdr skb).frags =
      hdr.val ++ (skb.data ++ skb.frags) := by
  unfold withHeader
  split
  · simp [skbPush, skbCopyExpand]
  · simp [skbPush]

/-! ### One call -/

section Wire

variable {n : Nat} {s s' : State} {skb : SkBuff} {exit : XmitExit} {tr : List (State × Ev)}

theorem SomeIdle.isA0 {a0 : Bool} (idle : SomeIdle n a0 s) : s.isA0 = a0 := by
  obtain ⟨_, -, idle⟩ := idle
  exact idle.base.flag

/-- A step of the device changes no shard in flight. -/
theorem env_wire (step : Env s s') (flag : s.isA0 = false) : s'.wire = s.wire := by
  obtain ⟨-, gone, parts, count⟩ := (Flowed.start flag).env step
  have none : gone = [] := List.length_eq_zero_iff.mp count
  rw [none, submissions, List.filterMap_nil, List.flatten_nil, List.append_nil,
    List.nil_append] at parts
  exact parts.symm

/-- **One call** appends the shards of its frame, or nothing. -/
theorem startXmit_wire (size : RingSize n) (idle : SomeIdle n false s)
    (run : Runs Env (xpnetStartXmit skb) s tr exit s') :
    s'.wire <:+ s.wire ++ (carried skb exit).flatten := by
  have reach := run.reach .start
  rw [List.nil_append] at reach
  have flowed : Flowed s.wire tr s' := (reach.invariant_taking (wp_startXmit_idle size skb idle)
    (startXmit_keepsShards skb) (Flowed.start idle.isA0) (fun _ _ _ step flowed => flowed.env step)
    fun _ _ _ _ guar keeps flowed => flowed.host guar keeps)
  obtain ⟨r, rfl, idle⟩ := idle
  have handed : submissions tr = carried skb exit := by
    have safe : Safe Env (fun _ _ _ => True) (xpnetStartXmit skb) []
        (fun exit tr _ => submissions tr = [] ++ carried skb exit) s :=
      safe_startXmit size idle.base.indices (fun _ _ _ _ => trivial) rfl
    exact reach.safe safe s' .refl
  obtain ⟨-, gone, parts, -⟩ := flowed
  rw [← handed, parts]
  exact List.suffix_append gone s'.wire

/-! ### What a call passes on -/

/-- The headers of the interfaces. -/
def State.headers (s : State) (dev : Nat) : TxHeader := (s.netdev dev).txHeader

/-- The interfaces that are up. -/
def State.ups (s : State) (dev : Nat) : Bool := (s.netdev dev).up

/-- A way in calls `xpnet_start_xmit` with what it passes on, or does nothing; then it may
update an interface. -/
theorem runs_entry_passes {e : Entry} {back : Bool} (run : Runs Env e.prog s tr back s') :
    ReflTransGen Env s s' ∨ ∃ skb ∈ e.passes s.headers s.ups, ∃ tr' exit m,
      Runs Env (xpnetStartXmit skb) s tr' exit m ∧
        (ReflTransGen Env m s' ∨ ∃ dev, ReflTransGen Env (m.updNetdev dev (finished exit)) s') := by
  cases e with
  | ndoStartXmit dev skb =>
      obtain ⟨⟨exit, left⟩, m, _, _, ndo, last, -⟩ := runs_bind.mp run
      cases last with
      | ret later =>
          rcases runs_ndo (fun _ _ step => env_netdev (.single step)) ndo with
            ⟨-, -, steps, -⟩ | ⟨up, t, v, u, tr', before, inner, between, after, -⟩
          · exact .inl (steps.trans later)
          · refine .inr ⟨toSend s dev skb, ?_, tr', exit, u, (inner.before before).later between,
              .inr ⟨dev, after.trans later⟩⟩
            have up : s.ups dev = true := up
            rw [Entry.passes, if_pos up]
            exact List.mem_singleton_self _
  | socket datagram =>
      obtain ⟨_, m, _, _, sent, last, -⟩ := runs_bind.mp run
      obtain ⟨exit, t, tr', _, inner, ended, -⟩ := runs_bind.mp sent
      cases last with
      | ret later =>
          cases ended with
          | ret steps =>
              exact .inr ⟨_, List.mem_singleton_self _, tr', exit, t, inner,
                .inl (steps.trans later)⟩
  | packetSend devPtr dev skb =>
      obtain ⟨rc, m, _, _, sent, last, -⟩ := runs_bind.mp run
      cases last with
      | ret later =>
          unfold xpPacketSendDev at sent
          split at sent
          · cases sent with
            | ret steps => exact .inl (steps.trans later)
          split at sent
          · cases sent with
            | ret steps => exact .inl (steps.trans later)
          split at sent
          · cases sent with
            | ret steps => exact .inl (steps.trans later)
          · obtain ⟨exit, t, tr', _, inner, ended, -⟩ := runs_bind.mp sent
            have steps : ReflTransGen Env t m := by
              split at ended
              · cases ended with
                | ret steps => exact steps
              · cases ended with
                | ret steps => exact steps
            exact .inr ⟨_, List.mem_singleton_self _, tr', exit, t, inner,
              .inl (steps.trans later)⟩

/-! ### What a call leaves in flight -/

/-- The queue is idle, and the shards in flight are the last ones of frames among these. -/
structure Flowing (n : Nat) (frames : List SkBuff) (s : State) : Prop where
  idle : SomeIdle n false s
  carries : ∃ accepted : List SkBuff, accepted.Sublist frames ∧
    s.wire <:+ accepted.flatMap wireShards

variable {frames : List SkBuff}

theorem Flowing.mono {frames' : List SkBuff} (sub : frames.Sublist frames')
    (flowing : Flowing n frames s) : Flowing n frames' s := by
  obtain ⟨idle, accepted, sub', suffix⟩ := flowing
  exact ⟨idle, accepted, sub'.trans sub, suffix⟩

/-- Nothing is in flight at the start. -/
theorem Initial.flowing (size : RingSize n) (init : Initial n s) (flag : s.isA0 = false) :
    Flowing n [] s := by
  have idle := init.idle size.pos
  have empty : s.wire = [] := by
    rw [State.wire, idle.base.indices.inflight size, emptyRing_inflight, List.map_nil]
  refine ⟨⟨_, rfl, flag ▸ idle⟩, [], .slnil, ?_⟩
  rw [empty]
  exact List.nil_suffix

theorem Flowing.steps (steps : ReflTransGen Env s s') (flowing : Flowing n frames s) :
    Flowing n frames s' := by
  induction steps with
  | refl => exact flowing
  | tail _ step ih =>
      obtain ⟨idle, carries⟩ := ih
      refine ⟨env_stable_someIdle _ _ _ _ step idle, ?_⟩
      rw [env_wire step idle.isA0]
      exact carries

theorem Flowing.updNetdev (flowing : Flowing n frames s) (dev : Nat)
    (f : NetDevice → NetDevice) : Flowing n frames (s.updNetdev dev f) :=
  ⟨flowing.idle.updNetdev dev f, flowing.carries⟩

theorem Flowing.startXmit (size : RingSize n) (flowing : Flowing n frames s)
    (run : Runs Env (xpnetStartXmit skb) s tr exit s') : Flowing n (frames ++ [skb]) s' := by
  obtain ⟨idle, accepted, sub, suffix⟩ := flowing
  refine ⟨(runs_startXmit_idle size idle run).1, ?_⟩
  obtain ⟨retired, parts⟩ := suffix
  have wire := startXmit_wire size idle run
  by_cases ok : exit = .txok
  · refine ⟨accepted ++ [skb], sub.append_right [skb], wire.trans ⟨retired, ?_⟩⟩
    rw [carried, if_pos ok, ← List.append_assoc, parts]
    simp
  · rw [carried_of_ne ok, List.flatten_nil, List.append_nil] at wire
    exact ⟨accepted, sub.trans (List.sublist_append_left frames [skb]),
      wire.trans ⟨retired, parts⟩⟩

/-- A way in adds what it passes on, or nothing. -/
theorem Flowing.entry (size : RingSize n) {e : Entry} {back : Bool}
    (flowing : Flowing n frames s) (run : Runs Env e.prog s tr back s') :
    Flowing n (frames ++ e.passes s.headers s.ups) s' := by
  rcases runs_entry_passes run with steps | ⟨skb, passed, tr', exit, m, inner, left⟩
  · exact (flowing.steps steps).mono (List.sublist_append_left _ _)
  · have sent : Flowing n (frames ++ e.passes s.headers s.ups) m :=
      (flowing.startXmit size inner).mono ((List.Sublist.refl frames).append
        (List.singleton_sublist.mpr passed))
    rcases left with steps | ⟨dev, steps⟩
    · exact sent.steps steps
    · exact (sent.updNetdev dev _).steps steps

/-- Opening and stopping an interface change neither the ring nor a header. -/
theorem Flowing.switch {lab lab' : Ev} {dev : Nat} {f g : NetDevice → NetDevice}
    (flowing : Flowing n frames s) (run : Runs Env (do
        Prog.write lab fun s => s.updNetdev dev f
        Prog.write lab' fun s => s.updNetdev dev g) s tr () s') : Flowing n frames s' := by
  obtain ⟨t, u, before, between, after⟩ := runs_switch run
  exact ((((flowing.steps before).updNetdev dev f).steps between).updNetdev dev g).steps after

/-- What a way in leaves of the headers and of which interfaces are up. -/
theorem entry_interfaces (size : RingSize n) {a0 : Bool} {e : Entry} {back : Bool}
    (idle : SomeIdle n a0 s) (run : Runs Env e.prog s tr back s') :
    s'.headers = s.headers ∧ s'.ups = s.ups := by
  unfold State.headers State.ups
  rcases runs_entry size idle run with same | ⟨dev, skb, exit, -, netdev, -⟩
  · rw [same]
    exact ⟨rfl, rfl⟩
  · rw [netdev]
    constructor
    · funext d
      by_cases hd : d = dev
      · subst hd
        cases exit <;> simp [State.updNetdev, finished, XmitExit.rc]
      · simp [State.updNetdev, hd]
    · funext d
      by_cases hd : d = dev
      · subst hd
        cases exit <;> simp [State.updNetdev, finished, XmitExit.rc]
      · simp [State.updNetdev, hd]

/-- What switching an interface on or off leaves of them. -/
theorem switch_interfaces {dev : Nat} {f : NetDevice → NetDevice} {b : Bool}
    (here : s'.netdev dev = f (s.netdev dev)) (others : ∀ d, d ≠ dev → s'.netdev d = s.netdev d)
    (header : ∀ d, (f d).txHeader = d.txHeader) (up : ∀ d, (f d).up = b) :
    s'.headers = s.headers ∧ s'.ups = Function.update s.ups dev b := by
  unfold State.headers State.ups
  constructor
  · funext d
    by_cases hd : d = dev
    · rw [hd, here, header]
    · rw [others d hd]
  · funext d
    by_cases hd : d = dev
    · rw [hd, here, up, Function.update_self]
    · rw [others d hd, Function.update_of_ne hd]

/-! ### Sequences of calls -/

/-- Every sequence of calls adds the frames it passes on, or some of them. -/
theorem Flowing.runNet (size : RingSize n) {calls : List NetCall} :
    ∀ {s : State} {tr : List (State × Ev)} {frames : List SkBuff}, Flowing n frames s →
      Runs Env (runNet calls) s tr () s' →
      Flowing n (frames ++ passedOn s.headers s.ups calls) s' := by
  induction calls with
  | nil =>
      intro s tr frames flowing run
      cases run with
      | ret steps => exact (flowing.steps steps).mono (List.sublist_append_left _ _)
  | cons call calls ih =>
      intro s tr frames flowing run
      obtain ⟨_, m, _, _, first, rest, -⟩ := runs_bind.mp run
      cases call with
      | ndoOpen dev =>
          obtain ⟨here, others⟩ := netdev_of_switch first
          obtain ⟨headers, ups⟩ := switch_interfaces (b := true)
            (f := fun d => { d with queueStopped := false, up := true }) here others
            (fun _ => rfl) fun _ => rfl
          have after := ih (flowing.switch first) rest
          rw [headers, ups] at after
          exact after
      | ndoStop dev =>
          obtain ⟨here, others⟩ := netdev_of_switch first
          obtain ⟨headers, ups⟩ := switch_interfaces (b := false)
            (f := fun d => { d with queueStopped := true, up := false }) here others
            (fun _ => rfl) fun _ => rfl
          have after := ih (flowing.switch first) rest
          rw [headers, ups] at after
          exact after
      | transmit e =>
          obtain ⟨back, t, _, _, sent, last, -⟩ := runs_bind.mp first
          cases last with
          | ret later =>
              have sent := sent.later later
              obtain ⟨headers, ups⟩ := entry_interfaces size flowing.idle sent
              have after := ih (flowing.entry size sent) rest
              rw [headers, ups, List.append_assoc] at after
              exact after

/-- **From the interfaces to the ring.** With the A0 flag clear, after any sequence of openings
and closings of interfaces and of frames on any of the ways in, with the device acting at any
time, the shards in flight are the last shards of frames that were passed on, some of them, whole
and in their order: of a frame for an interface, only if that was open, and behind the header of
that interface. -/
theorem interfaces_reach_ring (size : RingSize n) {s₀ : State} (init : Initial n s₀)
    (flag : s₀.isA0 = false) {calls : List NetCall} (run : Runs Env (runNet calls) s₀ tr () s) :
    ∃ accepted : List SkBuff, accepted.Sublist (passedOn s₀.headers s₀.ups calls) ∧
      s.wire <:+ accepted.flatMap wireShards := by
  have after := (init.flowing size flag).runNet size run
  rw [List.nil_append] at after
  exact after.carries

/-- A frame for an interface that has been closed, and one for an open one. -/
theorem interfaces_reach_ring_one_open :
    let calls : List NetCall := [.ndoStop 1, .transmit (.ndoStartXmit 1 (zeroFrame 0 1)),
      .transmit (.ndoStartXmit 0 (zeroFrame 24 2))]
    let s₀ := freshState 0 .b0Compressed xpnetTxNumDescs
    ∃ s, (runNet calls).exec s₀ = some ((), s) ∧ s.wire.length = 1 ∧
      ∃ accepted : List SkBuff, accepted.Sublist (passedOn s₀.headers s₀.ups calls) ∧
        s.wire <:+ accepted.flatMap wireShards := by
  intro calls s₀
  have length : ((runNet calls).exec s₀).map (fun r => r.2.wire.length) = some 1 := by
    decide +kernel
  obtain ⟨⟨⟨⟩, s⟩, exec, one⟩ := Option.map_eq_some_iff.mp length
  obtain ⟨tr, run⟩ := Runs.of_exec exec
  exact ⟨s, exec, one, interfaces_reach_ring ringSize_txNumDescs (initial_freshState 0 .b0Compressed _)
    rfl run⟩

end Wire

end XpNet.Tx

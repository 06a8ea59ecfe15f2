/-
What the receive side uses of a short frame.

`xpnet_rx_queue_process` takes every packet that is not too long, and
`xp_rx_skb_info_get` reads the fields of a 24-byte header from it. The last field
lies in byte 19, and `skb_pull` leaves a frame of less than 24 bytes as it is. So
the header comes from the frame, and does not go to an interface with it, exactly
when the frame has 24 bytes (`usesFrameOnly_iff`).
-/

import XpNet.Intf.Receive
import XpNet.Rx.Window

namespace XpNet.Rx

open XpNet.Intf XpNet.Interference

/-- The header of a frame of `len` bytes is decoded from these bytes: what lies behind
them makes no difference. -/
def ReadsFrameOnly (len : Nat) : Prop :=
  ∀ data data' : Image, (∀ o < len, data o = data' o) →
    xpRxSkbInfoGet ⟨data, len⟩ = xpRxSkbInfoGet ⟨data', len⟩

/-- In every state of the driver, what goes to an interface of a frame of `len` bytes
is the rest of it after the header. -/
def DeliversPayload (len : Nat) : Prop :=
  ∀ hashMin inputs alloc data p bytes,
    RxEvent.netifRx p bytes ∈
      (xpRxSkbProcess hashMin alloc ⟨data, len⟩ (history (rxStep hashMin) .start inputs)).1 →
    24 ≤ len ∧ bytes = (readBytes data len).drop 24

/-- Nothing but the bytes of the frame is used, and its header is taken off. -/
def UsesFrameOnly (len : Nat) : Prop := ReadsFrameOnly len ∧ DeliversPayload len

section Long

variable {hashMin : UInt32 → Bucket} {alloc : Nat → Bool} {skb : RxSkb} {st : RxHost} {p : Nat}
  {bytes : List UInt8}

theorem netifRx_deliverTo {granted : Bool} {num : UInt32}
    (h : .netifRx p bytes ∈ (deliverTo hashMin granted skb num st).1) : bytes = skb.bytes := by
  unfold deliverTo xpRxNetdevSkbNetifRx at h
  split at h
  · split at h
    · cases List.mem_singleton.mp h
      rfl
    · cases h
  · cases h

theorem not_mem_fdProcess (sock : Option Nat) : .netifRx p bytes ∉ xpRxSkbFdProcess sock skb := by
  cases sock <;> simp [xpRxSkbFdProcess]

theorem netifRx_netdevProcess {info : XpSkbInfo}
    (h : .netifRx p bytes ∈ (xpRxSkbNetdevProcess hashMin alloc info skb st).1) :
    bytes = (skbPull skb rxHeaderLen).bytes := by
  unfold xpRxSkbNetdevProcess at h
  rcases List.mem_append.mp h with h | h
  · rcases List.mem_append.mp h with h | h
    · unfold mirrorFrame at h
      split at h
      · exact absurd h (not_mem_fdProcess _)
      · cases h
    · unfold deliverToVif at h
      split at h
      · exact netifRx_deliverTo h
      · cases h
  · exact netifRx_deliverTo h

/-- What goes to an interface is what `skb_pull` leaves. -/
theorem netifRx_process (h : .netifRx p bytes ∈ (xpRxSkbProcess hashMin alloc skb st).1) :
    bytes = (skbPull skb rxHeaderLen).bytes := by
  unfold xpRxSkbProcess at h
  rcases List.mem_append.mp h with h | h
  · dsimp only at h
    split at h
    · split at h
      · exact absurd h (not_mem_fdProcess _)
      · unfold switchOnChannel at h
        split at h
        · exact absurd h (not_mem_fdProcess _)
        · split at h
          · exact absurd h (not_mem_fdProcess _)
          · split at h
            · exact netifRx_netdevProcess h
            · cases h
    · exact absurd h (not_mem_fdProcess _)
  · simp at h

theorem usesFrameOnly_of_le {len : Nat} (hlen : 24 ≤ len) : UsesFrameOnly len := by
  constructor
  · intro data data' heq
    have hget : ∀ o < 24, data o = data' o := fun o ho => heq o (Nat.lt_of_lt_of_le ho hlen)
    unfold xpRxSkbInfoGet ingressPortNum ingressVifLsbByte2 ingressVifLsbByte1 ingressVifLsbByte0
      reasonCodeMSB reasonCodeLsbs metadataBdId0 metadataBdId1
    dsimp only
    rw [hget 9 (by decide), hget 10 (by decide), hget 11 (by decide), hget 12 (by decide),
      hget 13 (by decide), hget 14 (by decide), hget 18 (by decide), hget 19 (by decide)]
  · intro hashMin inputs alloc data p bytes hmem
    refine ⟨hlen, ?_⟩
    rw [netifRx_process hmem]
    have long : 24 ≤ (⟨data, len⟩ : RxSkb).len := hlen
    exact skbPull_bytes long

end Long

/-- The second byte of the bridge domain is byte 19. -/
theorem not_readsFrameOnly {len : Nat} (hlen : len < 20) : ¬ ReadsFrameOnly len := by
  intro hreads
  have heq := hreads (fun _ => 0) (fun o => if o = 19 then 1 else 0) fun o ho => by
    rw [if_neg (by omega)]
  have hrif : (xpRxSkbInfoGet ⟨fun _ => 0, 0⟩).rifId =
      (xpRxSkbInfoGet ⟨fun o => if o = 19 then 1 else 0, 0⟩).rifId := congrArg XpSkbInfo.rifId heq
  exact absurd hrif (by decide +kernel)

/-- A frame shorter than its header goes to the interface whole. -/
theorem not_deliversPayload {len : Nat} (hlo : 20 ≤ len) (hhi : len < 24) :
    ¬ DeliversPayload len := by
  intro hdelivers
  have hmem : .netifRx 1 (readBytes portFrame.data len) ∈
      (xpRxSkbProcess (fun _ => 0) (fun _ => true) ⟨portFrame.data, len⟩
        (history (rxStep fun _ => 0) .start portTrapped)).1 := by
    have hcases : len = 20 ∨ len = 21 ∨ len = 22 ∨ len = 23 := by omega
    rcases hcases with rfl | rfl | rfl | rfl <;> decide +kernel
  exact absurd (hdelivers _ _ _ _ _ _ hmem).1 (Nat.not_le.mpr hhi)

/-! ### The frames that are taken -/

/-- A round of the poll takes a frame of this length from some queue. -/
def Accepted (mode : AddressMode) (len : Nat) : Prop :=
  ∃ (s s' : State) (frame : Frame), s.mode = mode ∧ pollRound.exec s = some (none, s') ∧
    s'.delivered = s.delivered ++ [frame] ∧ frame.length = len

section Accepts

variable {s s' : State} {mode : AddressMode} {n i size : Nat} {frame : Frame}

/-- A packet is taken when its byte swap ends. -/
theorem exec_takePacket {va : Image}
    (hswap : xpnetEndianSwap32 (s.desc i).bufSta.va size mode = some va) :
    ∃ s', (takePacket mode n i size).exec s = some ((), s') ∧
      s'.delivered = s.delivered ++ [readBytes va size] := by
  have hva : ((s.updDesc i (setVa va)).desc i).bufSta.va = va := by simp [setVa]
  unfold takePacket swapBuffer restartAtZero storeDesc
  simp only [Prog.look_bind, Prog.act_bind, Prog.exec_act, Prog.write_bind, id, hswap, hva]
  split
  · exact ⟨_, rfl, rfl⟩
  · exact ⟨_, rfl, rfl⟩

theorem exec_takePacket_none
    (hswap : xpnetEndianSwap32 (s.desc i).bufSta.va size mode = none) :
    (takePacket mode n i size).exec s = none := by
  unfold takePacket swapBuffer
  simp only [Prog.look_bind, Prog.act_bind, Prog.exec_act, id, hswap]
  rfl

/-- The swap of a packet that is not too long ends, but for an empty one on A0. -/
theorem swap_eq_none_iff (va : Image) (hsize : size ≤ xpnetMaxPacketSize) :
    xpnetEndianSwap32 va size mode = none ↔ mode = .a0Uncompressed ∧ size = 0 := by
  have hbound : size ≤ 2 ^ 18 - 4 := Nat.le_trans hsize (by decide)
  constructor
  · intro hnone
    by_cases hmode : mode = .a0Uncompressed
    · refine ⟨hmode, ?_⟩
      by_contra hpos
      rw [xpnetEndianSwap32_eq va mode (Nat.pos_of_ne_zero hpos) hbound] at hnone
      cases hnone
    · rw [xpnetEndianSwap32, if_neg hmode] at hnone
      cases hnone
  · rintro ⟨rfl, rfl⟩
    rfl

/-- The frame that a descriptor of the host is read as. -/
theorem exec_pollOwned (hround : (pollOwned mode n i).exec s = some (none, s')) :
    FrameOk mode (s.desc i).qword1 ∧ ∃ va, s'.delivered = s.delivered ++
      [readBytes va (pktSize mode (s.desc i).qword1)] := by
  have hdesc : ({ s with jiffiesDefer := 0 } : State).desc i = s.desc i := rfl
  unfold pollOwned loadQword1 at hround
  simp only [Prog.write_bind, Prog.look_bind, Prog.exec_act, id, hdesc] at hround
  by_cases hlong : pktSize mode (s.desc i).qword1 > xpnetMaxPacketSize
  · rw [if_pos hlong] at hround
    obtain ⟨_, _, -, hret⟩ := Prog.exec_bind_some.mp hround
    cases hret
  · rw [if_neg hlong] at hround
    have hsize := Nat.not_lt.mp hlong
    simp only [Prog.exec_act, id] at hround
    by_cases hmem : s.allocOk = true
    · rw [if_pos hmem] at hround
      obtain ⟨_, _, htake, hret⟩ := Prog.exec_bind_some.mp hround
      cases hret
      cases hswap : xpnetEndianSwap32 (s.desc i).bufSta.va (pktSize mode (s.desc i).qword1)
          mode with
      | none =>
        rw [exec_takePacket_none (s := { s with jiffiesDefer := 0 }) hswap] at htake
        cases htake
      | some va =>
        obtain ⟨t, hexec, hdelivered⟩ := exec_takePacket (n := n)
          (s := { s with jiffiesDefer := 0 }) hswap
        rw [hexec] at htake
        cases htake
        refine ⟨⟨hsize, ?_⟩, va, hdelivered⟩
        intro ha
        by_contra hzero
        rw [(swap_eq_none_iff _ hsize).mpr ⟨ha, by omega⟩] at hswap
        cases hswap
    · rw [if_neg hmem] at hround
      cases hround

theorem exec_pollRound (hround : pollRound.exec s = some (none, s')) :
    ∃ mode qword1 va, mode = s.mode ∧ FrameOk mode qword1 ∧
      s'.delivered = s.delivered ++ [readBytes va (pktSize mode qword1)] := by
  unfold pollRound loadQword0 at hround
  simp only [Prog.look_bind, Prog.exec_act, id] at hround
  split at hround
  · obtain ⟨_, _, -, hret⟩ := Prog.exec_bind_some.mp hround
    cases hret
  · simp only [Prog.exec_act, id] at hround
    split at hround
    · cases hround
    · obtain ⟨ok, va, hdelivered⟩ := exec_pollOwned hround
      exact ⟨_, _, va, rfl, ok, hdelivered⟩

/-- A queue whose first descriptor holds a packet of a length. -/
def holding (mode : AddressMode) (qword1 : Nat) : State :=
  (freshState mode 1).updDesc 0 fun d => { d with qword0 := 0, qword1 := qword1 }

theorem accepted_of_frameOk {qword1 : Nat} (ok : FrameOk mode qword1) :
    Accepted mode (pktSize mode qword1) := by
  have hlong : ¬ pktSize mode qword1 > xpnetMaxPacketSize := Nat.not_lt.mpr ok.1
  have hdesc : (holding mode qword1).desc (holding mode qword1).queue.tail =
      { (freshState mode 1).desc 0 with qword0 := 0, qword1 := qword1 } :=
    updDesc_self (freshState mode 1) 0 _
  obtain ⟨s', hexec, hdelivered⟩ := exec_takePacket (n := 1) (i := 0)
    (s := { holding mode qword1 with jiffiesDefer := 0 }) (xpnetEndianSwap32_of_frameOk ok _)
  refine ⟨holding mode qword1, s', _, rfl, ?_, hdelivered, length_readBytes _ _⟩
  unfold pollRound loadQword0
  simp only [Prog.look_bind, Prog.exec_act, id, hdesc]
  rw [if_neg (by decide)]
  simp only [Prog.exec_act, id, hdesc]
  rw [if_neg (by decide)]
  change (pollOwned mode 1 0).exec (holding mode qword1) = _
  have hdesc' : ({ holding mode qword1 with jiffiesDefer := 0 } : State).desc 0 =
      { (freshState mode 1).desc 0 with qword0 := 0, qword1 := qword1 } := hdesc
  unfold pollOwned loadQword1
  simp only [Prog.write_bind, Prog.look_bind, Prog.exec_act, id, hdesc', if_neg hlong]
  exact Prog.exec_bind_some.mpr ⟨_, _, hexec, rfl⟩

/-- The lengths that are taken: up to 16384, and not 0 on A0. -/
theorem accepted_iff (mode : AddressMode) (len : Nat) :
    Accepted mode len ↔ len ≤ xpnetMaxPacketSize ∧ (mode = .a0Uncompressed → 0 < len) := by
  constructor
  · rintro ⟨s, s', frame, rfl, hround, hframe, rfl⟩
    obtain ⟨_, qword1, va, rfl, ok, hdelivered⟩ := exec_pollRound hround
    rw [hframe] at hdelivered
    obtain rfl : frame = readBytes va (pktSize s.mode qword1) := by simpa using hdelivered
    rw [length_readBytes]
    exact ok
  · rintro ⟨hle, hpos⟩
    have hle' : len ≤ 16384 := hle
    by_cases hmode : mode = .a0Uncompressed
    · have hsize : pktSize mode ((len + 16) * 2 ^ 16) = len := by
        unfold pktSize
        rw [if_pos hmode]
        omega
      have ok : FrameOk mode ((len + 16) * 2 ^ 16) := by
        unfold FrameOk
        rw [hsize]
        exact ⟨hle, hpos⟩
      exact hsize ▸ accepted_of_frameOk ok
    · have hsize : pktSize mode (len * 2 ^ 16) = len := by
        unfold pktSize
        rw [if_neg hmode]
        omega
      have ok : FrameOk mode (len * 2 ^ 16) := by
        unfold FrameOk
        rw [hsize]
        exact ⟨hle, hpos⟩
      exact hsize ▸ accepted_of_frameOk ok

end Accepts

/-- **Short frames.** The poll takes frames of up to 16384 bytes, with no lower bound
but on A0, where they have a byte; and of every such frame, nothing but its own bytes
is used, and its header does not go to an interface, exactly when it has 24 bytes. -/
theorem usesFrameOnly_iff (mode : AddressMode) (len : Nat) :
    (Accepted mode len ↔ len ≤ xpnetMaxPacketSize ∧ (mode = .a0Uncompressed → 0 < len)) ∧
      (Accepted mode len → (UsesFrameOnly len ↔ 24 ≤ len)) := by
  refine ⟨accepted_iff mode len, ?_⟩
  intro _
  constructor
  · rintro ⟨hreads, hdelivers⟩
    by_contra hshort
    rcases Nat.lt_or_ge len 20 with hlt | hge
    · exact not_readsFrameOnly hlt hreads
    · exact not_deliversPayload hge (Nat.not_le.mp hshort) hdelivers
  · exact usesFrameOnly_of_le

/-- The bridge domain of a frame of ten bytes lies behind it. -/
theorem short_frame_used : ¬ ∀ mode len, Accepted mode len → UsesFrameOnly len := by
  intro hused
  have haccepted : Accepted .b0Compressed 10 :=
    (accepted_iff .b0Compressed 10).mpr ⟨by decide, fun h => by cases h⟩
  exact not_readsFrameOnly (by decide) (hused .b0Compressed 10 haccepted).1

end XpNet.Rx

/-
`xp_nl_msg_process`: the loop that reads the sub-messages of a netlink message
and calls their handlers.

`offset` counts the bytes read from the start of the message, but each round
takes all of it off `payload_len`, not the bytes of the round. So the loop stops
with the last record exactly when the ends of the records before it add up to
zero in 32 bits, and none of their partial sums hits the length on the way
(`InStep`): with one record always, with several only by wrapping.
-/

import XpNet.Intf.Driver
import Mathlib.Data.Nat.ModEq

namespace XpNet.Intf

/-! ### The loop -/

/-- A received netlink message after its `nlmsghdr`, whose length field is 32
bits wide. -/
structure NlPayload where
  bytes : List UInt8
  fits : bytes.length < 2 ^ 32

/-- How `xp_nl_msg_process` ends: with its result, or with a read past the end of
the message. -/
inductive Exit where
  | returned (rc : Int)
  | overrun
  deriving DecidableEq, Repr

/-- `sizeof(xp_nl_tlv_msg_t)`. -/
def xpNlTlvMsgSize : Nat := 8

/-- The bytes from `offset` on. -/
def NlPayload.at (payload : NlPayload) (offset : Nat) : List UInt8 := payload.bytes.drop offset

/-- The `while` loop of `xp_nl_msg_process`: how it ends, and the handlers it
calls, in order. -/
def xpNlMsgLoop (payload : NlPayload) (offset payloadLen : Nat) : Exit × List XpNlMsg :=
  if payloadLen = 0 then (.returned 0, [])
  else if _room : offset + 4 ≤ payload.bytes.length then
    match xpNlMsgTypeOf (getU32 (payload.at offset)) with
    | none => (.returned (-einval), [])
    | some msgType =>
      if _inside : u32Add offset 4 + msgType.size ≤ payload.bytes.length then
        let msg := msgType.read (payload.at (u32Add offset 4))
        let next := u32Add (u32Add offset 4) msgType.size
        let rest := xpNlMsgLoop payload next (u32Sub payloadLen next)
        (rest.1, msg :: rest.2)
      else (.overrun, [])
  else (.overrun, [])
termination_by payload.bytes.length - offset
decreasing_by
  have := payload.fits
  simp only [u32Add] at _inside ⊢
  omega

/-- `xp_nl_msg_process(netns, nl_msg_payload)`. -/
def xpNlMsgProcess (payload : NlPayload) : Exit × List XpNlMsg :=
  if payload.bytes.length < xpNlTlvMsgSize then (.overrun, [])
  else
    let payloadLen := (getU32 (payload.at 4)).toNat
    xpNlMsgLoop payload xpNlTlvMsgSize (u32Add payloadLen xpNlTlvMsgSize)

/-- `xp_netlink_rcv`, with what the kernel answers each handler. -/
def xpNetlinkRcv (hashMin : UInt32 → Bucket) (kernel : Nat → Kernel) (payload : NlPayload)
    (drv : Driver) : Driver :=
  callHandlers hashMin drv ((xpNlMsgProcess payload).2.mapIdx fun i msg => (kernel i, msg))

/-! ### Encodings -/

/-- The bytes of the records, back to back. -/
def recordBytes (rs : List Record) : List UInt8 := rs.flatMap Record.bytes

/-- The sum of `4 + sizeof` over the records. -/
def recordsLen (rs : List Record) : Nat := (rs.map fun r => 4 + r.type.size).sum

theorem length_recordBytes (rs : List Record) : (recordBytes rs).length = recordsLen rs := by
  simp [recordBytes, recordsLen, List.length_flatMap, Record.length_bytes]

/-- The TLV message of the records, with a type that nobody reads. -/
def encodeTlv (tlvType : UInt32) (rs : List Record) (fits : xpNlTlvMsgSize + recordsLen rs < 2 ^ 32) :
    NlPayload where
  bytes := putU32 tlvType ++ (putU32 (.ofNat (recordsLen rs)) ++ recordBytes rs)
  fits := by
    simp only [List.length_append, length_putU32, length_recordBytes]
    simpa [xpNlTlvMsgSize, ← Nat.add_assoc] using fits

/-- The ends of the records, counted from the start of the message. -/
def recordEnds (start : Nat) : List Record → List Nat
  | [] => []
  | r :: rs => (start + 4 + r.type.size) :: recordEnds (start + 4 + r.type.size) rs

/-- The ends of the records before the last add up to zero in 32 bits, and the
ends of no fewer records add up to the length of the message. -/
def InStep (rs : List Record) : Prop :=
  2 ^ 32 ∣ (recordEnds xpNlTlvMsgSize rs).dropLast.sum ∧
    ∀ i < rs.length, ¬ ((recordEnds xpNlTlvMsgSize rs).take i).sum ≡
      xpNlTlvMsgSize + recordsLen rs [MOD 2 ^ 32]

section Rounds

variable {payload : NlPayload} {offset len : Nat} {r : Record} {rs : List Record}

theorem xpNlMsgLoop_stop (hlen : len = 0) :
    xpNlMsgLoop payload offset len = (.returned 0, []) := by
  unfold xpNlMsgLoop
  rw [if_pos hlen]

/-- A round on a well-formed record calls its handler and moves on to its end. -/
theorem xpNlMsgLoop_record {rest : List UInt8} (hlen : len ≠ 0)
    (hat : payload.at offset = r.bytes ++ rest) :
    xpNlMsgLoop payload offset len =
      ((xpNlMsgLoop payload (offset + 4 + r.type.size)
          (u32Sub len (offset + 4 + r.type.size))).1,
        r.msg :: (xpNlMsgLoop payload (offset + 4 + r.type.size)
          (u32Sub len (offset + 4 + r.type.size))).2) := by
  have hfits := payload.fits
  have hlength := congrArg List.length hat
  rw [List.length_append, r.length_bytes, NlPayload.at, List.length_drop] at hlength
  have hroom : offset + 4 ≤ payload.bytes.length := by omega
  have hbody : u32Add offset 4 = offset + 4 := by
    unfold u32Add
    omega
  have hnext : u32Add (offset + 4) r.type.size = offset + 4 + r.type.size := by
    unfold u32Add
    omega
  have htype : getU32 (payload.at offset) = r.type.code := by
    rw [hat, Record.bytes, List.append_assoc, getU32_putU32]
  have hmsg : r.type.read (payload.at (offset + 4)) = r.msg := by
    have : payload.at (offset + 4) = r.body ++ rest := by
      unfold NlPayload.at at hat ⊢
      rw [← List.drop_drop, hat, Record.bytes, List.append_assoc]
      exact drop_putU32 _ _ 0
    rw [this, XpNlMsgType.read_append r.length_body]
    rfl
  rw [xpNlMsgLoop.eq_def payload offset len, if_neg hlen, dif_pos hroom, htype,
    xpNlMsgTypeOf_code]
  simp only [hbody, hnext, hmsg]
  rw [dif_pos (by omega)]

/-- A round at the end of the message reads past it. -/
theorem xpNlMsgLoop_end (hlen : len ≠ 0) (hat : payload.at offset = []) :
    xpNlMsgLoop payload offset len = (.overrun, []) := by
  have hlength := congrArg List.length hat
  rw [NlPayload.at, List.length_drop, List.length_nil] at hlength
  unfold xpNlMsgLoop
  rw [if_neg hlen, dif_neg (by omega)]

theorem zero_modEq_iff (hlen : len < 2 ^ 32) : 0 ≡ len [MOD 2 ^ 32] ↔ len = 0 := by
  unfold Nat.ModEq
  omega

/-- Taking an end off the length takes it off the sum to be reached. -/
theorem sum_modEq_u32Sub {s e : Nat} (hlen : len < 2 ^ 32) (he : e < 2 ^ 32) :
    s ≡ u32Sub len e [MOD 2 ^ 32] ↔ e + s ≡ len [MOD 2 ^ 32] := by
  unfold Nat.ModEq u32Sub
  omega

/-- The loop over the records calls their handlers and stops after them exactly
when their ends add up to the length in 32 bits, and no fewer of them do. -/
theorem xpNlMsgLoop_eq_iff (hlen : len < 2 ^ 32) (hat : payload.at offset = recordBytes rs) :
    xpNlMsgLoop payload offset len = (.returned 0, rs.map Record.msg) ↔
      (recordEnds offset rs).sum ≡ len [MOD 2 ^ 32] ∧
        ∀ i < rs.length, ¬ ((recordEnds offset rs).take i).sum ≡ len [MOD 2 ^ 32] := by
  induction rs generalizing offset len with
  | nil =>
    by_cases h : len = 0
    · rw [xpNlMsgLoop_stop h]
      simp [recordEnds, h, Nat.ModEq]
    · rw [xpNlMsgLoop_end h hat]
      have := zero_modEq_iff hlen
      simp only [recordEnds, List.sum_nil, this, h]
      simp
  | cons r rs ih =>
    by_cases h : len = 0
    · -- the loop has stopped in front of the record
      rw [xpNlMsgLoop_stop h]
      constructor
      · intro heq
        simp at heq
      · rintro ⟨-, hpart⟩
        exact absurd ((zero_modEq_iff hlen).mpr h) (hpart 0 (Nat.succ_pos _))
    · have hcons : payload.at offset = r.bytes ++ recordBytes rs := hat
      have hfits := payload.fits
      have hlength := congrArg List.length hcons
      rw [List.length_append, r.length_bytes, NlPayload.at, List.length_drop] at hlength
      generalize hend : offset + 4 + r.type.size = e at *
      have hrest : payload.at e = recordBytes rs := by
        unfold NlPayload.at at hcons ⊢
        rw [← hend, Nat.add_assoc, ← List.drop_drop, hcons, ← r.length_bytes, List.drop_left]
      have hlen' : u32Sub len e < 2 ^ 32 := Nat.mod_lt _ (by decide)
      have hmod : ∀ s, s ≡ u32Sub len e [MOD 2 ^ 32] ↔ e + s ≡ len [MOD 2 ^ 32] := fun s =>
        sum_modEq_u32Sub hlen (by omega)
      have hround := ih hlen' hrest
      rw [xpNlMsgLoop_record h hcons, hend]
      simp only [hmod] at hround
      simp only [recordEnds, hend, List.sum_cons, List.map_cons, List.length_cons]
      constructor
      · intro heq
        have htail : xpNlMsgLoop payload e (u32Sub len e) = (.returned 0, rs.map Record.msg) := by
          simp only [Prod.mk.injEq, List.cons.injEq, true_and] at heq
          exact Prod.ext heq.1 heq.2
        obtain ⟨hsum, hpart⟩ := hround.mp htail
        refine ⟨hsum, ?_⟩
        intro i hi
        cases i with
        | zero => exact fun hpart => h ((zero_modEq_iff hlen).mp hpart)
        | succ i =>
          rw [List.take_succ_cons, List.sum_cons]
          exact hpart i (Nat.lt_of_succ_lt_succ hi)
      · rintro ⟨hsum, hpart⟩
        have htail := hround.mpr ⟨hsum, fun i hi => by
          have := hpart (i + 1) (Nat.succ_lt_succ hi)
          rwa [List.take_succ_cons, List.sum_cons] at this⟩
        rw [htail]

/-! ### Messages -/

theorem encodeTlv_at (tlvType : UInt32) (fits : xpNlTlvMsgSize + recordsLen rs < 2 ^ 32) :
    (encodeTlv tlvType rs fits).at xpNlTlvMsgSize = recordBytes rs := by
  unfold NlPayload.at encodeTlv xpNlTlvMsgSize
  rw [drop_putU32 _ _ 4, drop_putU32 _ _ 0, List.drop_zero]

/-- The length that the loop starts with is that of the message. -/
theorem encodeTlv_len (tlvType : UInt32) (fits : xpNlTlvMsgSize + recordsLen rs < 2 ^ 32) :
    u32Add (getU32 ((encodeTlv tlvType rs fits).at 4)).toNat xpNlTlvMsgSize =
      xpNlTlvMsgSize + recordsLen rs := by
  have hfield : getU32 ((encodeTlv tlvType rs fits).at 4) = .ofNat (recordsLen rs) := by
    unfold NlPayload.at encodeTlv
    rw [drop_putU32 _ _ 0, List.drop_zero, getU32_putU32]
  rw [hfield, UInt32.toNat_ofNat']
  unfold u32Add
  omega

/-- The last end is the length of the message. -/
theorem sum_recordEnds (start : Nat) (hrs : rs ≠ []) :
    (recordEnds start rs).sum = (recordEnds start rs).dropLast.sum + (start + recordsLen rs) := by
  induction rs generalizing start with
  | nil => exact absurd rfl hrs
  | cons r rs ih =>
    cases rs with
    | nil => simp [recordEnds, recordsLen, Nat.add_assoc]
    | cons r' rs =>
      have hrest := ih (start + 4 + r.type.size) (List.cons_ne_nil _ _)
      have hlen : recordsLen (r :: r' :: rs) = 4 + r.type.size + recordsLen (r' :: rs) := rfl
      have hne : recordEnds (start + 4 + r.type.size) (r' :: rs) ≠ [] := List.cons_ne_nil _ _
      rw [recordEnds, List.dropLast_cons_of_ne_nil hne, List.sum_cons, List.sum_cons, hrest, hlen]
      omega

/-- `xp_nl_msg_process` calls exactly the handlers of a message's records, in order
and each once, and returns 0 without reading past the end, exactly when the ends
of the records are in step with the length. -/
theorem xpNlMsgProcess_eq_iff (tlvType : UInt32) (rs : List Record) (hrs : rs ≠ [])
    (fits : xpNlTlvMsgSize + recordsLen rs < 2 ^ 32) :
    xpNlMsgProcess (encodeTlv tlvType rs fits) = (.returned 0, rs.map Record.msg) ↔
      InStep rs := by
  have hroom : ¬ (encodeTlv tlvType rs fits).bytes.length < xpNlTlvMsgSize := by
    simp only [encodeTlv, List.length_append, length_putU32, xpNlTlvMsgSize]
    omega
  have hsum : (recordEnds xpNlTlvMsgSize rs).sum ≡ xpNlTlvMsgSize + recordsLen rs [MOD 2 ^ 32] ↔
      2 ^ 32 ∣ (recordEnds xpNlTlvMsgSize rs).dropLast.sum := by
    rw [sum_recordEnds _ hrs]
    unfold Nat.ModEq
    omega
  unfold xpNlMsgProcess InStep
  rw [if_neg hroom]
  dsimp only
  rw [encodeTlv_len, xpNlMsgLoop_eq_iff fits (encodeTlv_at tlvType fits), hsum]

/-- A message of one record is in step. -/
theorem inStep_one (r : Record) : InStep [r] := by
  constructor
  · exact Nat.dvd_zero _
  · intro i hi
    obtain rfl : i = 0 := Nat.lt_one_iff.mp hi
    have hsize : r.type.size ≤ 32 := by
      cases r.type <;> decide
    simp only [recordsLen, List.take_zero, List.sum_nil, List.map_cons, List.map_nil,
      List.sum_cons, xpNlTlvMsgSize, Nat.ModEq]
    omega

/-- Where nothing wraps, a message in step has one record. -/
theorem InStep.length_eq_one (h : InStep rs) (hrs : rs ≠ [])
    (small : (recordEnds xpNlTlvMsgSize rs).dropLast.sum < 2 ^ 32) : rs.length = 1 := by
  have hzero := Nat.eq_zero_of_dvd_of_lt h.1 small
  cases rs with
  | nil => exact absurd rfl hrs
  | cons r rs =>
    cases rs with
    | nil => rfl
    | cons r' rs =>
      have hne : recordEnds (xpNlTlvMsgSize + 4 + r.type.size) (r' :: rs) ≠ [] :=
        List.cons_ne_nil _ _
      rw [recordEnds, List.dropLast_cons_of_ne_nil hne, List.sum_cons] at hzero
      simp [xpNlTlvMsgSize] at hzero

/-- Whatever arrives on the socket, the interfaces stay consistent. -/
theorem Consistent.netlinkRcv {hashMin : UInt32 → Bucket} {drv : Driver}
    (ok : Consistent hashMin drv.interfaces) (kernel : Nat → Kernel) (payload : NlPayload) :
    Consistent hashMin (xpNetlinkRcv hashMin kernel payload drv).interfaces :=
  history_invariant (I := fun drv : Driver => Consistent hashMin drv.interfaces) ok
    (fun _ req ok => ok.callHandler req.1 req.2) _

end Rounds

/-- A message that switches mirroring on. -/
def enableMirror : XpNlMsg := .mirrorSet ⟨xpNlOperationEnable⟩

/-- One record is processed as it should be. -/
theorem xpNlMsgProcess_one :
    xpNlMsgProcess (encodeTlv 0 [enableMirror.record] (by decide)) =
      (.returned 0, [enableMirror.record].map Record.msg) :=
  (xpNlMsgProcess_eq_iff 0 [enableMirror.record] (by decide) (by decide)).mpr (inStep_one _)

/-- Two records are not: after the second the length has wrapped below zero, and
the loop reads on past the end. -/
theorem xpNlMsgProcess_two :
    xpNlMsgProcess (encodeTlv 0 [enableMirror.record, enableMirror.record] (by decide)) ≠
      (.returned 0, [enableMirror.record, enableMirror.record].map Record.msg) := by
  decide +kernel

end XpNet.Intf

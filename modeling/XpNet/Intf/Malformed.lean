/-
What `xp_nl_msg_process` does with any bytes at all.

A message is `WellFormed` when its `payload_len` bytes are there and are whole records
of known types. The claimed length only decides where the loop stops: the length of
the message is never looked at, so what is read depends on the bytes alone.

* `xpNlMsgLoop_exit`: the loop returns 0 when the ends of some whole records add up to
  the length, an error when it meets an unknown type before that, and otherwise reads
  past the end of the message.
* `readsSafely_iff`: it reads inside the message and rejects what is not well formed
  exactly when it meets an unknown type first, or the message is well formed and the
  ends of its records add up.
-/

import XpNet.Intf.Netlink

namespace XpNet.Intf

/-! ### What the bytes start with -/

/-- A type that no case of the `switch` has. -/
def UnknownType (bytes : List UInt8) : Prop :=
  4 ≤ bytes.length ∧ xpNlMsgTypeOf (getU32 bytes) = none

/-- The bytes end inside a type, or inside the struct of a known one. -/
def Truncated (bytes : List UInt8) : Prop :=
  bytes.length < 4 ∨
    ∃ type, xpNlMsgTypeOf (getU32 bytes) = some type ∧ bytes.length < 4 + type.size

theorem xpNlMsgTypeOf_eq_some {code : UInt32} {type : XpNlMsgType}
    (h : xpNlMsgTypeOf code = some type) : code = type.code := by
  unfold xpNlMsgTypeOf at h
  repeat' split at h
  all_goals cases h
  all_goals assumption

section Bytes

variable {bytes : List UInt8}

/-- The bytes of an `unsigned int` are those that it is read from. -/
theorem putU32_getU32 (h : 4 ≤ bytes.length) : putU32 (getU32 bytes) = bytes.take 4 := by
  match bytes, h with
  | a :: b :: c :: d :: rest, _ =>
    have ha := a.toNat_lt
    have hb := b.toNat_lt
    have hc := c.toNat_lt
    have hd := d.toNat_lt
    have hget : (getU32 (a :: b :: c :: d :: rest)).toNat =
        a.toNat + 256 * (b.toNat + 256 * (c.toNat + 256 * d.toNat)) := by
      simp only [getU32, List.getD_cons_zero, List.getD_cons_succ, UInt32.toNat_ofNat']
      omega
    simp only [putU32, hget, List.take_succ_cons, List.take_zero, List.cons.injEq, and_true]
    refine ⟨?_, ?_, ?_, ?_⟩ <;> apply UInt8.toNat_inj.mp <;> rw [UInt8.toNat_ofNat'] <;> omega

theorem Record.known (r : Record) (rest : List UInt8) :
    xpNlMsgTypeOf (getU32 (r.bytes ++ rest)) = some r.type := by
  rw [Record.bytes, List.append_assoc, getU32_putU32, xpNlMsgTypeOf_code]

/-- The bytes start with a record, with an unknown type, or with part of a record. -/
theorem record_cases (bytes : List UInt8) :
    (∃ r rest, bytes = Record.bytes r ++ rest) ∨ UnknownType bytes ∨ Truncated bytes := by
  by_cases hroom : 4 ≤ bytes.length
  · cases htype : xpNlMsgTypeOf (getU32 bytes) with
    | none => exact .inr (.inl ⟨hroom, htype⟩)
    | some type =>
      by_cases hbody : bytes.length < 4 + type.size
      · exact .inr (.inr (.inr ⟨type, htype, hbody⟩))
      · have hlength : ((bytes.drop 4).take type.size).length = type.size := by
          rw [List.length_take, List.length_drop]
          omega
        refine .inl ⟨⟨type, _, hlength⟩, (bytes.drop 4).drop type.size, ?_⟩
        rw [Record.bytes, ← xpNlMsgTypeOf_eq_some htype, putU32_getU32 hroom, List.append_assoc,
          List.take_append_drop, List.take_append_drop]
  · exact .inr (.inr (.inl (Nat.lt_of_not_le hroom)))

theorem not_record_of_unknown (unknown : UnknownType bytes) (r : Record) (rest : List UInt8) :
    bytes ≠ r.bytes ++ rest := by
  rintro rfl
  have known := unknown.2
  rw [r.known] at known
  cases known

theorem not_record_of_truncated (short : Truncated bytes) (r : Record) (rest : List UInt8) :
    bytes ≠ r.bytes ++ rest := by
  rintro rfl
  have hlength : (r.bytes ++ rest).length = 4 + r.type.size + rest.length := by
    rw [List.length_append, r.length_bytes]
  rcases short with hroom | ⟨type, htype, hbody⟩
  · omega
  · rw [r.known] at htype
    cases htype
    omega

theorem not_unknown_of_truncated (short : Truncated bytes) : ¬ UnknownType bytes := by
  rintro ⟨hroom, unknown⟩
  rcases short with hshort | ⟨type, htype, -⟩
  · omega
  · rw [unknown] at htype
    cases htype

/-- Bytes start with one record at most. -/
theorem record_inj {r r' : Record} {rest rest' : List UInt8}
    (h : r.bytes ++ rest = r'.bytes ++ rest') : r = r' ∧ rest = rest' := by
  have htype : r.type = r'.type := by
    have := r.known rest
    rw [h, r'.known] at this
    exact (Option.some.inj this).symm
  have hlength : r.bytes.length = r'.bytes.length := by
    rw [r.length_bytes, r'.length_bytes, htype]
  obtain ⟨hbytes, hrest⟩ := List.append_inj h hlength
  refine ⟨?_, hrest⟩
  have hbody : r.body = r'.body := by
    rw [Record.bytes, Record.bytes, htype] at hbytes
    exact List.append_cancel_left hbytes
  cases r
  cases r'
  cases htype
  cases hbody
  rfl

end Bytes

/-! ### The loop -/

section Loop

variable {payload : NlPayload} {offset len : Nat} {rs : List Record} {rest : List UInt8}

theorem xpNlMsgLoop_unknown (hlen : len ≠ 0) (unknown : UnknownType (payload.at offset)) :
    xpNlMsgLoop payload offset len = (.returned (-einval), []) := by
  obtain ⟨hroom, htype⟩ := unknown
  rw [NlPayload.at, List.length_drop] at hroom
  rw [xpNlMsgLoop.eq_def, if_neg hlen, dif_pos (by omega), htype]

theorem xpNlMsgLoop_truncated (hlen : len ≠ 0) (short : Truncated (payload.at offset)) :
    xpNlMsgLoop payload offset len = (.overrun, []) := by
  have hfits := payload.fits
  rw [Truncated, NlPayload.at, List.length_drop] at short
  rw [xpNlMsgLoop.eq_def, if_neg hlen]
  split
  case isTrue hroom =>
    obtain ⟨type, htype, hbody⟩ := short.resolve_left (by omega)
    have hoffset : u32Add offset 4 = offset + 4 := by
      unfold u32Add
      omega
    rw [NlPayload.at, htype]
    dsimp only
    rw [hoffset, dif_neg (by omega)]
  case isFalse => rfl

/-- The ends of some whole records at `offset` add up to the length. -/
def StopsAt (payload : NlPayload) (offset len : Nat) : Prop :=
  ∃ rs, recordBytes rs <+: payload.at offset ∧ (recordEnds offset rs).sum ≡ len [MOD 2 ^ 32]

/-- Behind some whole records comes an unknown type, and no ends up to there add up to
the length. -/
def MeetsUnknown (payload : NlPayload) (offset len : Nat) : Prop :=
  ∃ rs rest, payload.at offset = recordBytes rs ++ rest ∧ UnknownType rest ∧
    ∀ i ≤ rs.length, ¬ ((recordEnds offset rs).take i).sum ≡ len [MOD 2 ^ 32]

theorem stopsAt_zero : StopsAt payload offset 0 := ⟨[], List.nil_prefix, rfl⟩

theorem not_meetsUnknown_zero : ¬ MeetsUnknown payload offset 0 := by
  rintro ⟨rs, rest, -, -, hpart⟩
  exact hpart 0 (Nat.zero_le _) rfl

/-- Bytes that start with no record hold none. -/
theorem nil_of_prefix (none : ∀ (r : Record) rest', rest ≠ r.bytes ++ rest')
    (h : recordBytes rs <+: rest) : rs = [] := by
  cases rs with
  | nil => rfl
  | cons r rs =>
    obtain ⟨rest', hrest⟩ := h
    refine absurd ?_ (none r (recordBytes rs ++ rest'))
    rw [← hrest]
    exact List.append_assoc _ _ _

/-- Where no record starts, the loop stops only with nothing left of the length. -/
theorem not_stopsAt (hlen : len < 2 ^ 32) (hpos : len ≠ 0)
    (none : ∀ (r : Record) rest, payload.at offset ≠ r.bytes ++ rest) :
    ¬ StopsAt payload offset len := by
  rintro ⟨rs, hrs, hsum⟩
  obtain rfl := nil_of_prefix none hrs
  exact hpos ((zero_modEq_iff hlen).mp hsum)

section Record

variable {r : Record}

/-- The end of a record in a message fits in 32 bits, and the rest of the message starts
there. -/
theorem end_of_record (hat : payload.at offset = r.bytes ++ rest) :
    offset + 4 + r.type.size < 2 ^ 32 ∧ payload.at (offset + 4 + r.type.size) = rest := by
  have hfits := payload.fits
  have hlength := congrArg List.length hat
  rw [List.length_append, r.length_bytes, NlPayload.at, List.length_drop] at hlength
  have hsize : 0 < r.type.size := by
    cases r.type <;> decide
  constructor
  · omega
  · unfold NlPayload.at at hat ⊢
    rw [Nat.add_assoc, ← List.drop_drop, hat, ← r.length_bytes, List.drop_left]

/-- A record in front. -/
theorem stopsAt_record (hlen : len < 2 ^ 32) (hpos : len ≠ 0)
    (hat : payload.at offset = r.bytes ++ rest) :
    StopsAt payload offset len ↔ StopsAt payload (offset + 4 + r.type.size)
      (u32Sub len (offset + 4 + r.type.size)) := by
  obtain ⟨hend, hrest⟩ := end_of_record hat
  unfold StopsAt
  rw [hat, hrest]
  constructor
  · rintro ⟨rs, hrs, hsum⟩
    cases rs with
    | nil => exact absurd ((zero_modEq_iff hlen).mp hsum) hpos
    | cons r' rs =>
      obtain ⟨rest', hrest'⟩ := hrs
      obtain ⟨rfl, rfl⟩ := record_inj ((List.append_assoc _ _ _).symm.trans hrest')
      exact ⟨rs, List.prefix_append _ _, (sum_modEq_u32Sub hlen hend).mpr hsum⟩
  · rintro ⟨rs, ⟨rest', rfl⟩, hsum⟩
    refine ⟨r :: rs, ⟨rest', List.append_assoc _ _ _⟩, ?_⟩
    exact (sum_modEq_u32Sub hlen hend).mp hsum

theorem meetsUnknown_record (hlen : len < 2 ^ 32) (hpos : len ≠ 0)
    (hat : payload.at offset = r.bytes ++ rest) :
    MeetsUnknown payload offset len ↔ MeetsUnknown payload (offset + 4 + r.type.size)
      (u32Sub len (offset + 4 + r.type.size)) := by
  obtain ⟨hend, hrest⟩ := end_of_record hat
  unfold MeetsUnknown
  rw [hat, hrest]
  constructor
  · rintro ⟨rs, rest', hrs, unknown, hpart⟩
    cases rs with
    | nil => exact absurd hrs.symm (not_record_of_unknown unknown r rest)
    | cons r' rs =>
      obtain ⟨rfl, rfl⟩ := record_inj (hrs.trans (List.append_assoc _ _ _))
      refine ⟨rs, rest', rfl, unknown, fun i hi => ?_⟩
      rw [sum_modEq_u32Sub hlen hend]
      exact hpart (i + 1) (Nat.succ_le_succ hi)
  · rintro ⟨rs, rest', rfl, unknown, hpart⟩
    refine ⟨r :: rs, rest', (List.append_assoc _ _ _).symm, unknown, fun i hi => ?_⟩
    cases i with
    | zero => exact fun hsum => hpos ((zero_modEq_iff hlen).mp hsum)
    | succ i =>
      have := hpart i (Nat.le_of_succ_le_succ hi)
      rw [sum_modEq_u32Sub hlen hend] at this
      exact this

end Record

/-- **How the loop ends.** -/
theorem xpNlMsgLoop_exit (payload : NlPayload) (offset : Nat) (hlen : len < 2 ^ 32) :
    ((xpNlMsgLoop payload offset len).1 = .returned 0 ↔ StopsAt payload offset len) ∧
      ((xpNlMsgLoop payload offset len).1 = .returned (-einval) ↔
        MeetsUnknown payload offset len) ∧
      (xpNlMsgLoop payload offset len).1 ∈
        [Exit.returned 0, Exit.returned (-einval), Exit.overrun] := by
  induction hn : (payload.at offset).length using Nat.strong_induction_on
    generalizing offset len with
  | _ n ih =>
  by_cases hpos : len = 0
  · subst hpos
    rw [xpNlMsgLoop_stop rfl]
    exact ⟨iff_of_true rfl stopsAt_zero, iff_of_false nofun not_meetsUnknown_zero,
      List.mem_cons_self⟩
  rcases record_cases (payload.at offset) with ⟨r, rest, hat⟩ | unknown | short
  · rw [xpNlMsgLoop_record hpos hat, stopsAt_record hlen hpos hat,
      meetsUnknown_record hlen hpos hat]
    obtain ⟨-, hrest⟩ := end_of_record hat
    apply ih _ _ _ (Nat.mod_lt _ (by decide)) rfl
    have hlength := congrArg List.length hat
    rw [List.length_append, r.length_bytes] at hlength
    rw [hrest]
    omega
  · rw [xpNlMsgLoop_unknown hpos unknown]
    refine ⟨iff_of_false nofun (not_stopsAt hlen hpos (not_record_of_unknown unknown)),
      iff_of_true rfl ⟨[], _, rfl, unknown, fun i hi => ?_⟩, by simp⟩
    rw [Nat.le_zero.mp hi]
    exact fun hsum => hpos ((zero_modEq_iff hlen).mp hsum)
  · rw [xpNlMsgLoop_truncated hpos short]
    refine ⟨iff_of_false nofun (not_stopsAt hlen hpos (not_record_of_truncated short)),
      iff_of_false nofun ?_, by simp⟩
    rintro ⟨rs, rest, hrs, unknown, -⟩
    obtain rfl := nil_of_prefix (not_record_of_truncated short) ⟨rest, hrs.symm⟩
    rw [hrs] at short
    exact not_unknown_of_truncated short unknown

/-- The loop calls a handler for every five bytes at most. -/
theorem xpNlMsgLoop_length (payload : NlPayload) (offset len : Nat) :
    5 * (xpNlMsgLoop payload offset len).2.length ≤ (payload.at offset).length := by
  induction hn : (payload.at offset).length using Nat.strong_induction_on
    generalizing offset len with
  | _ n ih =>
  by_cases hpos : len = 0
  · rw [xpNlMsgLoop_stop hpos]
    exact Nat.zero_le _
  rcases record_cases (payload.at offset) with ⟨r, rest, hat⟩ | unknown | short
  · obtain ⟨-, hrest⟩ := end_of_record hat
    have hlength := congrArg List.length hat
    rw [List.length_append, r.length_bytes] at hlength
    have hsize : 0 < r.type.size := by
      cases r.type <;> decide
    have hround := ih rest.length (by omega) (offset + 4 + r.type.size)
      (u32Sub len (offset + 4 + r.type.size)) (by rw [hrest])
    rw [xpNlMsgLoop_record hpos hat, List.length_cons]
    omega
  · rw [xpNlMsgLoop_unknown hpos unknown]
    exact Nat.zero_le _
  · rw [xpNlMsgLoop_truncated hpos short]
    exact Nat.zero_le _

end Loop

/-! ### Messages -/

/-- The length that the message claims for its payload. -/
def NlPayload.payloadLen (payload : NlPayload) : Nat := (getU32 (payload.at 4)).toNat

/-- The claimed payload is there and is whole records of known types: none is cut off by
the end of the message or of the payload. -/
def WellFormed (payload : NlPayload) : Prop :=
  xpNlTlvMsgSize ≤ payload.bytes.length ∧
    ∃ rs, recordBytes rs <+: payload.at xpNlTlvMsgSize ∧ payload.payloadLen = recordsLen rs

/-- Nothing outside the message is read, the records are bounded by its length, and
what is not well formed is an error. -/
structure ReadsSafely (payload : NlPayload) : Prop where
  inside : (xpNlMsgProcess payload).1 ≠ .overrun
  bounded : 5 * (xpNlMsgProcess payload).2.length ≤ payload.bytes.length
  rejects : ¬ WellFormed payload → ∃ rc < 0, (xpNlMsgProcess payload).1 = .returned rc

/-- The length that the loop starts with. -/
def NlPayload.startLen (payload : NlPayload) : Nat := u32Add payload.payloadLen xpNlTlvMsgSize

section Messages

variable {payload : NlPayload}

theorem xpNlMsgProcess_short (h : payload.bytes.length < xpNlTlvMsgSize) :
    xpNlMsgProcess payload = (.overrun, []) := if_pos h

theorem xpNlMsgProcess_loop (h : xpNlTlvMsgSize ≤ payload.bytes.length) :
    xpNlMsgProcess payload = xpNlMsgLoop payload xpNlTlvMsgSize payload.startLen :=
  if_neg (Nat.not_lt.mpr h)

theorem xpNlMsgProcess_length (payload : NlPayload) :
    5 * (xpNlMsgProcess payload).2.length ≤ payload.bytes.length := by
  by_cases hroom : payload.bytes.length < xpNlTlvMsgSize
  · rw [xpNlMsgProcess_short hroom]
    exact Nat.zero_le _
  · rw [xpNlMsgProcess_loop (Nat.le_of_not_lt hroom)]
    apply (xpNlMsgLoop_length payload _ _).trans
    rw [NlPayload.at, List.length_drop]
    exact Nat.sub_le _ _

/-- **Malformed messages.** For every byte string: `xp_nl_msg_process` reads only inside
it, calls a number of handlers bounded by its length and returns an error unless it is
well formed, if and only if it holds the header and either an unknown type comes before
any records whose ends add up to the claimed length, or it is well formed and the ends
of some of its records do. -/
theorem readsSafely_iff (payload : NlPayload) : ReadsSafely payload ↔
    xpNlTlvMsgSize ≤ payload.bytes.length ∧
      (MeetsUnknown payload xpNlTlvMsgSize payload.startLen ∨
        (WellFormed payload ∧ StopsAt payload xpNlTlvMsgSize payload.startLen)) := by
  by_cases hroom : payload.bytes.length < xpNlTlvMsgSize
  · apply iff_of_false
    · intro safe
      exact safe.inside (congrArg Prod.fst (xpNlMsgProcess_short hroom))
    · rintro ⟨hle, -⟩
      exact absurd hroom (Nat.not_lt.mpr hle)
  rw [Nat.not_lt] at hroom
  have hlen : payload.startLen < 2 ^ 32 := Nat.mod_lt _ (by decide)
  obtain ⟨hstops, hunknown, hexit⟩ := xpNlMsgLoop_exit payload xpNlTlvMsgSize hlen
  rw [← xpNlMsgProcess_loop hroom] at hstops hunknown hexit
  rw [and_iff_right hroom, ← hunknown, ← hstops]
  constructor
  · intro safe
    simp only [List.mem_cons, List.not_mem_nil, or_false] at hexit
    rcases hexit with hzero | herror | hover
    · refine .inr ⟨?_, hzero⟩
      by_contra malformed
      obtain ⟨rc, hrc, heq⟩ := safe.rejects malformed
      rw [hzero] at heq
      cases heq
      exact absurd hrc (by decide)
    · exact .inl herror
    · exact absurd hover safe.inside
  · rintro (herror | ⟨formed, hzero⟩)
    · refine ⟨?_, xpNlMsgProcess_length payload, fun _ => ⟨-einval, by decide, herror⟩⟩
      rw [herror]
      nofun
    · refine ⟨?_, xpNlMsgProcess_length payload, fun malformed => absurd formed malformed⟩
      rw [hzero]
      nofun

end Messages

/-- A message that ends behind the type of its record. -/
def cutOff : NlPayload where
  bytes := putU32 0 ++ (putU32 4 ++ putU32 XpNlMsgType.mirrorSet.code)
  fits := by decide

/-- Its record is read past the end of the message. -/
theorem not_readsSafely_cutOff : ¬ ReadsSafely cutOff := by
  intro safe
  exact safe.inside (by decide +kernel)

end XpNet.Intf

/-
`xp_rx_skb_process`: what becomes of a received frame.

The driver reads the ingress port, the ingress vif, the bridge domain and the
reason code from the 24-byte header of the frame, looks up the trap of the reason
code, and hands the frame to a socket or to interfaces. `Routed` says where a frame
is to go; `xpRxSkbProcess_routes` compares the code with it, in every state that
messages and frames can lead to. That a frame is never handed to an interface twice
rests on the numbers: a port is below 256, and a bridge domain's from 65536 on.
-/

import XpNet.Intf.Driver

namespace XpNet.Intf

/-! ### Socket buffers and the receive header -/

/-- What the receive side uses of a `struct sk_buff`: the memory from `skb->data`
on, and `skb->len`. -/
structure RxSkb where
  data : Image
  len : Nat

/-- The bytes of the frame. -/
def RxSkb.bytes (skb : RxSkb) : List UInt8 := readBytes skb.data skb.len

/-- `skb_pull(skb, len)`, which leaves a shorter buffer as it is. -/
def skbPull (skb : RxSkb) (len : Nat) : RxSkb :=
  if len > skb.len then skb else ⟨fun o => skb.data (o + len), skb.len - len⟩

/-- `sizeof(xphRxHdr)`. -/
def rxHeaderLen : Nat := 24

/-! The fields of `xphRxHdr`, on a little-endian host. -/

def ingressPortNum (rxHeader : Image) : UInt8 := rxHeader 9
def ingressVifLsbByte2 (rxHeader : Image) : UInt8 := rxHeader 10
def ingressVifLsbByte1 (rxHeader : Image) : UInt8 := rxHeader 11
def ingressVifLsbByte0 (rxHeader : Image) : UInt8 := rxHeader 12 >>> 4
def reasonCodeMSB (rxHeader : Image) : UInt8 := rxHeader 13
def reasonCodeLsbs (rxHeader : Image) : UInt8 := rxHeader 14 >>> 6
def metadataBdId0 (rxHeader : Image) : UInt8 := rxHeader 18
def metadataBdId1 (rxHeader : Image) : UInt8 := rxHeader 19

/-- `struct xp_skb_info` without its `skb`. -/
structure XpSkbInfo where
  rc : UInt32
  rifId : UInt32
  intfId : UInt32
  portNum : UInt32
  deriving DecidableEq

/-- `xp_rx_skb_info_get(skb, info)`. -/
def xpRxSkbInfoGet (skb : RxSkb) : XpSkbInfo :=
  let rxHeader := skb.data
  let intfId := (ingressVifLsbByte2 rxHeader).toUInt32
  let intfId := intfId <<< 8 ||| (ingressVifLsbByte1 rxHeader).toUInt32
  let intfId := intfId <<< 4 ||| (ingressVifLsbByte0 rxHeader).toUInt32
  let bdId := (metadataBdId0 rxHeader).toUInt32
  let bdId := bdId <<< 8 ||| (metadataBdId1 rxHeader).toUInt32
  { portNum := (ingressPortNum rxHeader).toUInt32
    intfId := intfId
    rifId := if bdId < xpOffsetBdIntf then bdId + xpOffsetBdIntf else bdId
    rc := (reasonCodeMSB rxHeader).toUInt32 <<< 2 ||| (reasonCodeLsbs rxHeader).toUInt32 }

/-! ### The code -/

/-- `XP_NL_HOSTIF_TRAP_CB` and `XP_NL_HOSTIF_TRAP_NETDEV`. -/
def xpNlHostifTrapCb : UInt32 := 1
def xpNlHostifTrapNetdev : UInt32 := 2

/-- Where a frame, or a part of it, goes. -/
inductive RxEvent where
  | sockSendmsg (sock : Nat) (bytes : List UInt8)
  | netifRx (netdev : Nat) (bytes : List UInt8)
  | devKfreeSkb
  deriving DecidableEq

/-- The receive counters of `priv->stats` and of `netdev->stats`. -/
structure RxCounters where
  rxPackets : Nat
  rxBytes : Nat
  deriving DecidableEq

def RxCounters.count (stats : RxCounters) (len : Nat) : RxCounters :=
  ⟨stats.rxPackets + 1, stats.rxBytes + len⟩

/-- The driver with the counters that the receive side changes. -/
structure RxHost where
  driver : Driver
  stats : RxCounters
  netdevStats : Nat → RxCounters

def RxHost.start : RxHost := ⟨.start, ⟨0, 0⟩, fun _ => ⟨0, 0⟩⟩

/-- `xp_rx_netdev_skb_netif_rx(skb, netdev)`; `granted` says whether the new buffer
gets its memory. -/
def xpRxNetdevSkbNetifRx (granted : Bool) (skb : RxSkb) (netdev : Nat) (st : RxHost) :
    List RxEvent × RxHost :=
  if granted then
    ([.netifRx netdev skb.bytes], { st with
      netdevStats := Function.update st.netdevStats netdev
        ((st.netdevStats netdev).count skb.len) })
  else ([], st)

/-- `xp_rx_skb_fd_process(sock, skb_info)`. -/
def xpRxSkbFdProcess (sock : Option Nat) (skb : RxSkb) : List RxEvent :=
  match sock with
  | some sock => [.sockSendmsg sock skb.bytes]
  | none => []

section Process

variable (hashMin : UInt32 → Bucket) (alloc : Nat → Bool)

/-- A lookup of `xp_rx_skb_netdev_process`, and the delivery to the entry it stops at. -/
def deliverTo (granted : Bool) (skb : RxSkb) (num : UInt32) (st : RxHost) :
    List RxEvent × RxHost :=
  match findActive hashMin st.driver.interfaces num with
  | some entry => xpRxNetdevSkbNetifRx granted skb entry st
  | none => ([], st)

/-- The lookup by `vif`, which `XP_NO_VIF` skips. -/
def deliverToVif (granted : Bool) (skb : RxSkb) (vif : UInt32) (st : RxHost) :
    List RxEvent × RxHost :=
  if xpNoVif ≠ vif then deliverTo hashMin granted skb vif st else ([], st)

/-- The `vif` that `xp_rx_skb_netdev_process` looks up. -/
def vifOfInfo (skbInfo : XpSkbInfo) : UInt32 :=
  if (xpMinFpIntf ≤ skbInfo.intfId ∧ skbInfo.intfId < xpMaxFpIntf) ∨
      (xpMinLagIntf ≤ skbInfo.intfId ∧ skbInfo.intfId < xpMaxLagIntf) then
    skbInfo.portNum
  else xpNoVif

/-- The copy that `packet_mirroring_enable` asks for. -/
def mirrorFrame (drv : Driver) (skb : RxSkb) : List RxEvent :=
  if drv.packetMirroringEnable then xpRxSkbFdProcess drv.cbSockPtr skb else []

/-- `xp_rx_skb_netdev_process(skb_info)`; `alloc` says which of its allocations are
granted. -/
def xpRxSkbNetdevProcess (skbInfo : XpSkbInfo) (skb : RxSkb) (st : RxHost) :
    List RxEvent × RxHost :=
  let mirrored := mirrorFrame st.driver skb
  let skb := skbPull skb rxHeaderLen
  let byVif := deliverToVif hashMin (alloc 0) skb (vifOfInfo skbInfo) st
  let byRif := deliverTo hashMin (alloc 1) skb skbInfo.rifId byVif.2
  (mirrored ++ byVif.1 ++ byRif.1, byRif.2)

/-- `trap_cfg->rx_count++` in the entry of a trap id. -/
def countTrap (trapId : UInt32) (trapCfg : XpTrapConfig) (st : RxHost) : RxHost :=
  { st with driver := { st.driver with trapTable := { st.driver.trapTable with
    trap := Function.update st.driver.trapTable.trap trapId
      (some { trapCfg with rxCount := trapCfg.rxCount + 1 }) } } }

/-- The `switch` of `xp_rx_skb_process` and what follows it, but for the release. -/
def switchOnChannel (trapId : UInt32) (trapCfg : XpTrapConfig) (skbInfo : XpSkbInfo)
    (skb : RxSkb) (st : RxHost) : List RxEvent × RxHost :=
  if trapCfg.ch = xpNlHostifTrapCb then
    (xpRxSkbFdProcess st.driver.cbSockPtr skb, countTrap trapId trapCfg st)
  else if trapCfg.ch = xpNlHostifTrapFd then
    (xpRxSkbFdProcess trapCfg.sockPtr skb, countTrap trapId trapCfg st)
  else if trapCfg.ch = xpNlHostifTrapNetdev then
    let r := xpRxSkbNetdevProcess hashMin alloc skbInfo skb st
    (r.1, countTrap trapId trapCfg r.2)
  else ([], st)

/-- `xp_rx_skb_process(priv, skb)`. -/
def xpRxSkbProcess (skb : RxSkb) (st : RxHost) : List RxEvent × RxHost :=
  let skbInfo := xpRxSkbInfoGet skb
  let st := { st with stats := st.stats.count skb.len }
  let trapId := xpTrapIdGet st.driver.trapTable skbInfo.rc
  let r :=
    match xpTrapConfigGet st.driver.trapTable trapId with
    | some trapCfg =>
      if trapId = xpInvalidTrapId then (xpRxSkbFdProcess st.driver.cbSockPtr skb, st)
      else switchOnChannel hashMin alloc trapId trapCfg skbInfo skb st
    | none => (xpRxSkbFdProcess st.driver.cbSockPtr skb, st)
  (r.1 ++ [.devKfreeSkb], r.2)

/-- What comes to the driver: messages, with what the kernel answers their handler,
and frames. -/
inductive RxInput where
  | message (kernel : Kernel) (msg : XpNlMsg)
  | frame (alloc : Nat → Bool) (skb : RxSkb)

def rxStep (st : RxHost) : RxInput → RxHost
  | .message kernel msg => { st with driver := callHandler hashMin kernel st.driver msg }
  | .frame alloc skb => (xpRxSkbProcess hashMin alloc skb st).2

end Process

/-! ### Where a frame is to go -/

/-- The fields of the receive header, as numbers. -/
structure RxFields where
  port : Nat
  ingressVif : Nat
  reasonCode : Nat
  bdId : Nat

/-- The fields of a frame: the port is byte 9, the 20-bit ingress vif begins in byte
10, the 10-bit reason code in byte 13, and the bridge domain is bytes 18 and 19. -/
def rxFields (frame : List UInt8) : RxFields where
  port := (frame.getD 9 0).toNat
  ingressVif :=
    (frame.getD 10 0).toNat * 2 ^ 12 + (frame.getD 11 0).toNat * 2 ^ 4 +
      (frame.getD 12 0).toNat / 2 ^ 4
  reasonCode := (frame.getD 13 0).toNat * 2 ^ 2 + (frame.getD 14 0).toNat / 2 ^ 6
  bdId := (frame.getD 18 0).toNat * 2 ^ 8 + (frame.getD 19 0).toNat

/-- The number is in the range of the front panel ports or in that of the LAGs. -/
def InFpOrLag (num : Nat) : Prop := num < 128 ∨ 4096 ≤ num ∧ num < 5019

/-- An interface that is linked to a number. -/
def Linked (st : Interfaces) (num p : Nat) : Prop :=
  p ∈ st.xpNetdevList ∧ (st.priv p).vif.toNat = num

/-- One interface that is linked to the number, if there is one. -/
def OneLinked (st : Interfaces) (num : Nat) : Option Nat → Prop
  | some p => Linked st num p
  | none => ∀ p, ¬ Linked st num p

/-- The frame goes to a socket, if there is one. -/
def toSocket (sock : Option Nat) (frame : List UInt8) : List RxEvent :=
  sock.toList.map fun sock => .sockSendmsg sock frame

/-- The frame goes to an interface, if there is one, without its header. -/
def toInterface (p : Option Nat) (frame : List UInt8) : List RxEvent :=
  p.toList.map fun p => .netifRx p (frame.drop 24)

/-- The deliveries of the NETDEV channel: to the callback socket under mirroring; to
one interface linked to the port, if the ingress vif is a port's or a LAG's; and to
one linked to the bridge domain, which is another one. -/
def RoutedToInterfaces (drv : Driver) (frame : List UInt8) (events : List RxEvent) : Prop :=
  ∃ byPort byBd : Option Nat,
    (InFpOrLag (rxFields frame).ingressVif →
      OneLinked drv.interfaces (rxFields frame).port byPort) ∧
    (¬ InFpOrLag (rxFields frame).ingressVif → byPort = none) ∧
    OneLinked drv.interfaces ((rxFields frame).bdId + 65536) byBd ∧
    (∀ p, byPort = some p → byBd ≠ some p) ∧
    events = (if drv.packetMirroringEnable then toSocket drv.cbSockPtr frame else []) ++
      toInterface byPort frame ++ toInterface byBd frame

/-- The trap that the table has for the frame's reason code, with its id. -/
def trapOf (drv : Driver) (frame : List UInt8) : Option (UInt32 × XpTrapConfig) :=
  let trapId := xpTrapIdGet drv.trapTable (UInt32.ofNat (rxFields frame).reasonCode)
  (xpTrapConfigGet drv.trapTable trapId).map fun trapCfg => (trapId, trapCfg)

/-- Where the frame is to go. -/
def Routed (drv : Driver) (frame : List UInt8) (events : List RxEvent) : Prop :=
  match trapOf drv frame with
  | none => events = toSocket drv.cbSockPtr frame
  | some (_, trapCfg) =>
    (trapCfg.ch = xpNlHostifTrapCb → events = toSocket drv.cbSockPtr frame) ∧
    (trapCfg.ch = xpNlHostifTrapFd → events = toSocket trapCfg.sockPtr frame) ∧
    (trapCfg.ch = xpNlHostifTrapNetdev → RoutedToInterfaces drv frame events) ∧
    (trapCfg.ch ∉ [xpNlHostifTrapCb, xpNlHostifTrapFd, xpNlHostifTrapNetdev] → events = [])

/-- The trap table after the frame: the count of the chosen trap is one more when its
channel is one of the three, and nothing else is changed. -/
def countedTable (drv : Driver) (frame : List UInt8) : XpTrapTable :=
  match trapOf drv frame with
  | none => drv.trapTable
  | some (trapId, trapCfg) =>
    if trapCfg.ch ∈ [xpNlHostifTrapCb, xpNlHostifTrapFd, xpNlHostifTrapNetdev] then
      { drv.trapTable with
        trap := Function.update drv.trapTable.trap trapId
          (some { trapCfg with rxCount := trapCfg.rxCount + 1 }) }
    else drv.trapTable

/-! ### The header -/

/-- A value moved up by `k` bits, and another one below it. -/
theorem shiftLeft_or_toNat {a b k : UInt32} (hk : k.toNat < 32)
    (ha : a.toNat * 2 ^ k.toNat < 2 ^ 32) (hb : b.toNat < 2 ^ k.toNat) :
    (a <<< k ||| b).toNat = a.toNat * 2 ^ k.toNat + b.toNat := by
  rw [UInt32.toNat_or, UInt32.toNat_shiftLeft, Nat.mod_eq_of_lt hk, Nat.shiftLeft_eq,
    Nat.mod_eq_of_lt ha, ← Nat.shiftLeft_eq, Nat.shiftLeft_add_eq_or_of_lt hb]

theorem bytes_getD (skb : RxSkb) {o : Nat} (ho : o < skb.len) :
    skb.bytes.getD o 0 = skb.data o := by
  simp [RxSkb.bytes, readBytes, ho]

section Header

variable {skb : RxSkb}

/-- The fields of a frame that has its header. -/
theorem rxFields_bytes (hlen : 24 ≤ skb.len) : rxFields skb.bytes = {
    port := (skb.data 9).toNat
    ingressVif :=
      (skb.data 10).toNat * 2 ^ 12 + (skb.data 11).toNat * 2 ^ 4 + (skb.data 12).toNat / 2 ^ 4
    reasonCode := (skb.data 13).toNat * 2 ^ 2 + (skb.data 14).toNat / 2 ^ 6
    bdId := (skb.data 18).toNat * 2 ^ 8 + (skb.data 19).toNat } := by
  have hget : ∀ o < 24, skb.bytes.getD o 0 = skb.data o := fun o ho => bytes_getD skb (by omega)
  unfold rxFields
  rw [hget 9 (by decide), hget 10 (by decide), hget 11 (by decide), hget 12 (by decide),
    hget 13 (by decide), hget 14 (by decide), hget 18 (by decide), hget 19 (by decide)]

theorem info_portNum (hlen : 24 ≤ skb.len) :
    (xpRxSkbInfoGet skb).portNum.toNat = (rxFields skb.bytes).port := by
  rw [rxFields_bytes hlen]
  exact UInt8.toNat_toUInt32 _

theorem info_intfId (hlen : 24 ≤ skb.len) :
    (xpRxSkbInfoGet skb).intfId.toNat = (rxFields skb.bytes).ingressVif := by
  have h2 := (skb.data 10).toNat_lt
  have h1 := (skb.data 11).toNat_lt
  have h0 := (skb.data 12).toNat_lt
  have hlow : (ingressVifLsbByte0 skb.data).toUInt32.toNat = (skb.data 12).toNat / 2 ^ 4 := by
    rw [UInt8.toNat_toUInt32, ingressVifLsbByte0, UInt8.toNat_shiftRight]
    exact Nat.shiftRight_eq_div_pow _ _
  have hhigh : ((ingressVifLsbByte2 skb.data).toUInt32 <<< 8 |||
      (ingressVifLsbByte1 skb.data).toUInt32).toNat =
        (skb.data 10).toNat * 2 ^ 8 + (skb.data 11).toNat := by
    apply shiftLeft_or_toNat (by decide)
    · rw [UInt8.toNat_toUInt32]
      exact Nat.lt_of_lt_of_le (Nat.mul_lt_mul_of_pos_right h2 (by decide)) (by decide)
    · rw [UInt8.toNat_toUInt32]
      exact h1
  rw [rxFields_bytes hlen]
  change ((_ : UInt32) <<< 4 ||| _).toNat = _ * 2 ^ 12 + _ * 2 ^ 4 + _
  rw [shiftLeft_or_toNat (by decide), hhigh, hlow]
  · change ((skb.data 10).toNat * 2 ^ 8 + (skb.data 11).toNat) * 2 ^ 4 + _ = _
    omega
  · rw [hhigh]
    change _ * 2 ^ 4 < 2 ^ 32
    omega
  · rw [hlow]
    change _ < 2 ^ 4
    omega

theorem info_rifId (hlen : 24 ≤ skb.len) :
    (xpRxSkbInfoGet skb).rifId.toNat = (rxFields skb.bytes).bdId + 65536 := by
  have h0 := (skb.data 18).toNat_lt
  have h1 := (skb.data 19).toNat_lt
  have hbd : ((metadataBdId0 skb.data).toUInt32 <<< 8 |||
      (metadataBdId1 skb.data).toUInt32).toNat =
        (skb.data 18).toNat * 2 ^ 8 + (skb.data 19).toNat := by
    apply shiftLeft_or_toNat (by decide)
    · rw [UInt8.toNat_toUInt32]
      exact Nat.lt_of_lt_of_le (Nat.mul_lt_mul_of_pos_right h0 (by decide)) (by decide)
    · rw [UInt8.toNat_toUInt32]
      exact h1
  have hoffset : xpOffsetBdIntf.toNat = 65536 := rfl
  have hbelow : (metadataBdId0 skb.data).toUInt32 <<< 8 |||
      (metadataBdId1 skb.data).toUInt32 < xpOffsetBdIntf := by
    rw [UInt32.lt_iff_toNat_lt, hbd, hoffset]
    omega
  rw [rxFields_bytes hlen]
  change (if _ < xpOffsetBdIntf then _ else _ : UInt32).toNat = _ * 2 ^ 8 + _ + 65536
  rw [if_pos hbelow, UInt32.toNat_add, hbd, hoffset]
  omega

theorem info_rc (hlen : 24 ≤ skb.len) :
    (xpRxSkbInfoGet skb).rc = UInt32.ofNat (rxFields skb.bytes).reasonCode := by
  have hm := (skb.data 13).toNat_lt
  have hl := (skb.data 14).toNat_lt
  have hlow : (reasonCodeLsbs skb.data).toUInt32.toNat = (skb.data 14).toNat / 2 ^ 6 := by
    rw [UInt8.toNat_toUInt32, reasonCodeLsbs, UInt8.toNat_shiftRight]
    exact Nat.shiftRight_eq_div_pow _ _
  have hcode : (xpRxSkbInfoGet skb).rc.toNat = (rxFields skb.bytes).reasonCode := by
    rw [rxFields_bytes hlen]
    change ((reasonCodeMSB skb.data).toUInt32 <<< 2 ||| _ : UInt32).toNat = _ * 2 ^ 2 + _
    rw [shiftLeft_or_toNat (by decide), hlow, UInt8.toNat_toUInt32]
    · rfl
    · rw [UInt8.toNat_toUInt32]
      exact Nat.lt_of_lt_of_le (Nat.mul_lt_mul_of_pos_right hm (by decide)) (by decide)
    · rw [hlow]
      change _ < 2 ^ 2
      omega
  rw [← hcode, UInt32.ofNat_toNat]

/-- The ranges of the code are those of the frame's field. -/
theorem inFpOrLag_iff (num : UInt32) :
    (xpMinFpIntf ≤ num ∧ num < xpMaxFpIntf) ∨ (xpMinLagIntf ≤ num ∧ num < xpMaxLagIntf) ↔
      InFpOrLag num.toNat := by
  have hfp : xpMinFpIntf ≤ num := UInt32.le_iff_toNat_le.mpr (Nat.zero_le _)
  rw [UInt32.lt_iff_toNat_lt, UInt32.le_iff_toNat_le (a := xpMinLagIntf), UInt32.lt_iff_toNat_lt]
  constructor
  · rintro (⟨-, hlt⟩ | hlag)
    · exact .inl hlt
    · exact .inr hlag
  · rintro (hlt | hlag)
    · exact .inl ⟨hfp, hlt⟩
    · exact .inr hlag

/-- The rest of a frame after its header. -/
theorem skbPull_bytes (hlen : 24 ≤ skb.len) :
    (skbPull skb rxHeaderLen).bytes = skb.bytes.drop 24 := by
  have hpull : skbPull skb rxHeaderLen = ⟨fun o => skb.data (o + 24), skb.len - 24⟩ :=
    if_neg (Nat.not_lt.mpr hlen)
  rw [hpull]
  apply List.ext_getElem (by simp [RxSkb.bytes])
  intro o ho _
  simp [RxSkb.bytes, readBytes, Nat.add_comm]

end Header

/-! ### The lookups -/

section Lookups

variable {hashMin : UInt32 → Bucket} {st : Interfaces} {num : UInt32}

theorem findActive_eq_some {p : Nat} (h : findActive hashMin st num = some p) :
    p ∈ st.xpActiveNetdevHtable (hashMin num) ∧ (st.priv p).vif = num :=
  ⟨List.mem_of_find?_eq_some h, by simpa using List.find?_some h⟩

/-- The lookup of a number finds one interface that is linked to it, if there is one. -/
theorem Consistent.oneLinked (ok : Consistent hashMin st) (hnum : num ≠ xpNoVif) :
    OneLinked st num.toNat (findActive hashMin st num) := by
  cases hfind : findActive hashMin st num with
  | some p =>
    obtain ⟨hmem, hvif⟩ := findActive_eq_some hfind
    exact ⟨ok.listed _ p hmem, by rw [hvif]⟩
  | none =>
    rintro p ⟨hlisted, hvif⟩
    have hsome := (ok.findActive_isSome num).mpr
      ⟨p, hlisted, UInt32.toNat_inj.mp hvif, hnum⟩
    rw [hfind] at hsome
    cases hsome

/-- Two lookups of different numbers find different interfaces. -/
theorem findActive_ne {num' : UInt32} (hne : num ≠ num') {p : Nat}
    (h : findActive hashMin st num = some p) : findActive hashMin st num' ≠ some p := by
  intro h'
  exact hne ((findActive_eq_some h).2.symm.trans (findActive_eq_some h').2)

end Lookups

/-! ### Deliveries -/

section Deliveries

variable {hashMin : UInt32 → Bucket} {alloc : Nat → Bool} {skb : RxSkb} {st : RxHost}

theorem fdProcess_eq (sock : Option Nat) : xpRxSkbFdProcess sock skb = toSocket sock skb.bytes := by
  cases sock <;> rfl

theorem deliverTo_driver (granted : Bool) (num : UInt32) :
    (deliverTo hashMin granted skb num st).2.driver = st.driver := by
  unfold deliverTo xpRxNetdevSkbNetifRx
  split
  · split <;> rfl
  · rfl

/-- A delivery with memory for the new buffer. -/
theorem deliverTo_events (num : UInt32) :
    (deliverTo hashMin true skb num st).1 =
      (findActive hashMin st.driver.interfaces num).toList.map fun p => .netifRx p skb.bytes := by
  unfold deliverTo xpRxNetdevSkbNetifRx
  cases findActive hashMin st.driver.interfaces num <;> rfl

/-- No delivery releases the frame. -/
theorem deliverTo_keeps (granted : Bool) (num : UInt32) :
    (deliverTo hashMin granted skb num st).1.count .devKfreeSkb = 0 := by
  unfold deliverTo xpRxNetdevSkbNetifRx
  split
  · split <;> simp
  · simp

theorem fdProcess_keeps (sock : Option Nat) :
    (xpRxSkbFdProcess sock skb).count .devKfreeSkb = 0 := by
  cases sock <;> simp [xpRxSkbFdProcess]

theorem deliverToVif_driver (granted : Bool) (vif : UInt32) :
    (deliverToVif hashMin granted skb vif st).2.driver = st.driver := by
  unfold deliverToVif
  split
  · exact deliverTo_driver granted vif
  · rfl

theorem deliverToVif_keeps (granted : Bool) (vif : UInt32) :
    (deliverToVif hashMin granted skb vif st).1.count .devKfreeSkb = 0 := by
  unfold deliverToVif
  split
  · exact deliverTo_keeps granted vif
  · rfl

theorem netdevProcess_driver (info : XpSkbInfo) :
    (xpRxSkbNetdevProcess hashMin alloc info skb st).2.driver = st.driver := by
  unfold xpRxSkbNetdevProcess
  dsimp only
  rw [deliverTo_driver, deliverToVif_driver]

theorem netdevProcess_keeps (info : XpSkbInfo) :
    (xpRxSkbNetdevProcess hashMin alloc info skb st).1.count .devKfreeSkb = 0 := by
  have hmirror : (mirrorFrame st.driver skb).count .devKfreeSkb = 0 := by
    unfold mirrorFrame
    split
    · exact fdProcess_keeps _
    · rfl
  unfold xpRxSkbNetdevProcess
  dsimp only
  rw [List.count_append, List.count_append, hmirror, deliverToVif_keeps, deliverTo_keeps]

/-- The two numbers that a frame is looked up by: a port is a byte, and a bridge domain's
number is past 65535. -/
theorem info_numbers (hlen : 24 ≤ skb.len) :
    (xpRxSkbInfoGet skb).portNum ≠ xpNoVif ∧ (xpRxSkbInfoGet skb).rifId ≠ xpNoVif ∧
      (xpRxSkbInfoGet skb).portNum ≠ (xpRxSkbInfoGet skb).rifId := by
  have h18 := (skb.data 18).toNat_lt
  have h19 := (skb.data 19).toNat_lt
  have hno : xpNoVif.toNat = 4294967295 := rfl
  have hport : (xpRxSkbInfoGet skb).portNum.toNat < 256 := by
    rw [info_portNum hlen, rxFields_bytes hlen]
    exact (skb.data 9).toNat_lt
  have hrif : (xpRxSkbInfoGet skb).rifId.toNat =
      (skb.data 18).toNat * 2 ^ 8 + (skb.data 19).toNat + 65536 := by
    rw [info_rifId hlen, rxFields_bytes hlen]
  refine ⟨?_, ?_, ?_⟩
  · intro heq
    rw [heq] at hport
    omega
  · intro heq
    rw [heq] at hrif
    omega
  · intro heq
    rw [heq] at hport
    omega

/-- The NETDEV channel, with memory for the buffers. -/
theorem netdevProcess_routed (ok : Consistent hashMin st.driver.interfaces)
    (hlen : 24 ≤ skb.len) :
    RoutedToInterfaces st.driver skb.bytes
      (xpRxSkbNetdevProcess hashMin (fun _ => true) (xpRxSkbInfoGet skb) skb st).1 := by
  obtain ⟨hportVif, hrifVif, hne⟩ := info_numbers hlen
  have hmirror : mirrorFrame st.driver skb =
      if st.driver.packetMirroringEnable then toSocket st.driver.cbSockPtr skb.bytes else [] := by
    unfold mirrorFrame
    rw [fdProcess_eq]
  have hbyBd := ok.oneLinked hrifVif
  rw [info_rifId hlen] at hbyBd
  have hrange := inFpOrLag_iff (xpRxSkbInfoGet skb).intfId
  rw [info_intfId hlen] at hrange
  unfold xpRxSkbNetdevProcess
  dsimp only
  rw [hmirror, deliverTo_events, deliverToVif_driver, skbPull_bytes hlen]
  by_cases hin : InFpOrLag (rxFields skb.bytes).ingressVif
  · have hvif : vifOfInfo (xpRxSkbInfoGet skb) = (xpRxSkbInfoGet skb).portNum :=
      if_pos (hrange.mpr hin)
    have hbyPort := ok.oneLinked hportVif
    rw [info_portNum hlen] at hbyPort
    rw [hvif, deliverToVif, if_pos hportVif.symm, deliverTo_events, skbPull_bytes hlen]
    exact ⟨_, _, fun _ => hbyPort, fun hout => absurd hin hout, hbyBd,
      fun p hp => findActive_ne hne hp, rfl⟩
  · have hvif : vifOfInfo (xpRxSkbInfoGet skb) = xpNoVif := if_neg fun h => hin (hrange.mp h)
    rw [hvif, deliverToVif, if_neg (not_not.mpr rfl)]
    exact ⟨none, _, fun hin' => absurd hin' hin, fun _ => rfl, hbyBd,
      fun p hp => absurd hp (by simp), rfl⟩

/-! ### The channels -/

/-- What follows the lookup: the events, and the driver's table after it. -/
theorem switchOnChannel_keeps (trapId : UInt32) (trapCfg : XpTrapConfig) (info : XpSkbInfo) :
    (switchOnChannel hashMin alloc trapId trapCfg info skb st).1.count .devKfreeSkb = 0 := by
  unfold switchOnChannel
  split
  · exact fdProcess_keeps _
  · split
    · exact fdProcess_keeps _
    · split
      · exact netdevProcess_keeps _
      · rfl

theorem switchOnChannel_driver (trapId : UInt32) (trapCfg : XpTrapConfig) (info : XpSkbInfo) :
    (switchOnChannel hashMin alloc trapId trapCfg info skb st).2.driver =
      if trapCfg.ch ∈ [xpNlHostifTrapCb, xpNlHostifTrapFd, xpNlHostifTrapNetdev] then
        (countTrap trapId trapCfg st).driver
      else st.driver := by
  unfold switchOnChannel
  by_cases hcb : trapCfg.ch = xpNlHostifTrapCb
  · rw [if_pos hcb, if_pos (by simp [hcb])]
  · rw [if_neg hcb]
    by_cases hfd : trapCfg.ch = xpNlHostifTrapFd
    · rw [if_pos hfd, if_pos (by simp [hfd])]
    · rw [if_neg hfd]
      by_cases hnetdev : trapCfg.ch = xpNlHostifTrapNetdev
      · rw [if_pos hnetdev, if_pos (by simp [hnetdev])]
        change (countTrap trapId trapCfg
          (xpRxSkbNetdevProcess hashMin alloc info skb st).2).driver = _
        unfold countTrap
        rw [netdevProcess_driver]
      · rw [if_neg hnetdev, if_neg (by simp [hcb, hfd, hnetdev])]

/-- The channels are three. -/
theorem channels_distinct : xpNlHostifTrapFd ≠ xpNlHostifTrapCb ∧
    xpNlHostifTrapNetdev ≠ xpNlHostifTrapCb ∧ xpNlHostifTrapNetdev ≠ xpNlHostifTrapFd := by
  decide

/-- A frame with a trap, with memory for the buffers. -/
theorem switchOnChannel_routed (st : RxHost) (ok : Consistent hashMin st.driver.interfaces)
    (hlen : 24 ≤ skb.len) {trapId : UInt32} {trapCfg : XpTrapConfig}
    (htrap : trapOf st.driver skb.bytes = some (trapId, trapCfg)) :
    Routed st.driver skb.bytes (switchOnChannel hashMin (fun _ => true) trapId trapCfg
      (xpRxSkbInfoGet skb) skb st).1 := by
  obtain ⟨hfdcb, hndcb, hndfd⟩ := channels_distinct
  unfold Routed
  rw [htrap]
  dsimp only
  unfold switchOnChannel
  refine ⟨?cb, ?fd, ?netdev, ?other⟩
  case cb =>
    intro hch
    rw [if_pos hch]
    exact fdProcess_eq _
  case fd =>
    intro hch
    rw [if_neg (hch.symm ▸ hfdcb), if_pos hch]
    exact fdProcess_eq _
  case netdev =>
    intro hch
    rw [if_neg (hch.symm ▸ hndcb), if_neg (hch.symm ▸ hndfd), if_pos hch]
    exact netdevProcess_routed ok hlen
  case other =>
    intro hch
    simp only [List.mem_cons, List.not_mem_nil, or_false, not_or] at hch
    rw [if_neg hch.1, if_neg hch.2.1, if_neg hch.2.2]

/-! ### The frame -/

/-- The lookup of the code is that of the frame's reason code; a trap that is found has
an id in range. -/
theorem process_eq (hlen : 24 ≤ skb.len) :
    let st' : RxHost := { st with stats := st.stats.count skb.len }
    xpRxSkbProcess hashMin alloc skb st =
      match trapOf st.driver skb.bytes with
      | none => (xpRxSkbFdProcess st.driver.cbSockPtr skb ++ [.devKfreeSkb], st')
      | some (trapId, trapCfg) =>
        let r := switchOnChannel hashMin alloc trapId trapCfg (xpRxSkbInfoGet skb) skb st'
        (r.1 ++ [.devKfreeSkb], r.2) := by
  have hcode := info_rc hlen
  unfold xpRxSkbProcess trapOf
  dsimp only
  rw [hcode]
  cases htrap : xpTrapConfigGet st.driver.trapTable
      (xpTrapIdGet st.driver.trapTable (UInt32.ofNat (rxFields skb.bytes).reasonCode)) with
  | none => rfl
  | some trapCfg =>
    have hvalid : xpTrapIdGet st.driver.trapTable
        (UInt32.ofNat (rxFields skb.bytes).reasonCode) ≠ xpInvalidTrapId := by
      intro heq
      have hle := (xpTrapConfigGet_eq_some.mp htrap).1
      rw [heq] at hle
      exact absurd hle (by decide)
    simp only [Option.map_some, if_neg hvalid]

theorem xpRxSkbProcess_driver (hlen : 24 ≤ skb.len) :
    (xpRxSkbProcess hashMin alloc skb st).2.driver =
      { st.driver with trapTable := countedTable st.driver skb.bytes } := by
  rw [process_eq hlen]
  unfold countedTable
  cases htrap : trapOf st.driver skb.bytes with
  | none => rfl
  | some trap =>
    obtain ⟨trapId, trapCfg⟩ := trap
    dsimp only
    rw [switchOnChannel_driver]
    split
    · rfl
    · rfl

end Deliveries

/-! ### Every run -/

/-- A frame leaves the interfaces alone, whatever its length. -/
theorem xpRxSkbProcess_interfaces (hashMin : UInt32 → Bucket) (alloc : Nat → Bool) (skb : RxSkb)
    (st : RxHost) :
    (xpRxSkbProcess hashMin alloc skb st).2.driver.interfaces = st.driver.interfaces := by
  unfold xpRxSkbProcess
  dsimp only
  split
  · split
    · rfl
    · rw [switchOnChannel_driver]
      split <;> rfl
  · rfl

theorem consistent_rxRun (hashMin : UInt32 → Bucket) (inputs : List RxInput) :
    Consistent hashMin (history (rxStep hashMin) .start inputs).driver.interfaces := by
  apply history_invariant (I := fun st : RxHost => Consistent hashMin st.driver.interfaces)
  · exact consistent_noInterfaces
  · intro st input ok
    cases input with
    | message kernel msg => exact ok.callHandler kernel msg
    | frame alloc skb =>
      change Consistent hashMin (xpRxSkbProcess hashMin alloc skb st).2.driver.interfaces
      rw [xpRxSkbProcess_interfaces]
      exact ok

/-- **Where a received frame goes.** In every state that messages and frames lead to, a
frame of at least 24 bytes goes where its header, the trap of its reason code and the
interfaces send it, without its header where it goes to an interface. Its buffer is
released exactly once, and the count of the chosen trap goes up by one when its
channel is one of the three. -/
theorem xpRxSkbProcess_routes (hashMin : UInt32 → Bucket) (inputs : List RxInput) (skb : RxSkb)
    (hlen : 24 ≤ skb.len) :
    let st := history (rxStep hashMin) .start inputs
    (∃ events, (xpRxSkbProcess hashMin (fun _ => true) skb st).1 = events ++ [.devKfreeSkb] ∧
      Routed st.driver skb.bytes events) ∧
    ∀ alloc, (xpRxSkbProcess hashMin alloc skb st).1.count .devKfreeSkb = 1 ∧
      (xpRxSkbProcess hashMin alloc skb st).2.driver =
        { st.driver with trapTable := countedTable st.driver skb.bytes } := by
  intro st
  have ok : Consistent hashMin st.driver.interfaces := consistent_rxRun hashMin inputs
  constructor
  · rw [process_eq hlen]
    cases htrap : trapOf st.driver skb.bytes with
    | none =>
      refine ⟨_, rfl, ?_⟩
      unfold Routed
      rw [htrap]
      exact fdProcess_eq _
    | some trap =>
      obtain ⟨trapId, trapCfg⟩ := trap
      exact ⟨_, rfl, switchOnChannel_routed { st with stats := st.stats.count skb.len } ok hlen
        htrap⟩
  · intro alloc
    refine ⟨?_, xpRxSkbProcess_driver hlen⟩
    rw [process_eq hlen]
    cases trapOf st.driver skb.bytes with
    | none => simp [fdProcess_keeps]
    | some trap => simp [switchOnChannel_keeps]

/-- A header with port 5, ingress vif 5 and reason code 4, and one byte after it. -/
def portFrame : RxSkb where
  data o :=
    if o = 9 then 5 else if o = 12 then 0x50 else if o = 13 then 1 else if o = 24 then 7 else 0
  len := 25

/-- Interface 1 linked to port 5, and a trap of reason code 4 for the NETDEV channel. -/
def portTrapped : List RxInput := [
  .message grantingKernel (.intfAdd ⟨1, ⟨List.replicate ifnamsiz 0, length_replicate_ifnamsiz⟩⟩),
  .message grantingKernel (.linkAdd ⟨1, 5⟩),
  .message grantingKernel (.trapSet ⟨4, 0, xpNlHostifTrapNetdev, 9, xpNlOperationAdd⟩)]

/-- The byte after the header reaches the interface. -/
theorem xpRxSkbProcess_routes_port :
    let st := history (rxStep fun _ => 0) .start portTrapped
    (xpRxSkbProcess (fun _ => 0) (fun _ => true) portFrame st).1 =
        [.netifRx 1 [7], .devKfreeSkb] ∧
      (∃ events, (xpRxSkbProcess (fun _ => 0) (fun _ => true) portFrame st).1 =
        events ++ [.devKfreeSkb] ∧ Routed st.driver portFrame.bytes events) ∧
      ∀ alloc, (xpRxSkbProcess (fun _ => 0) alloc portFrame st).1.count .devKfreeSkb = 1 ∧
        (xpRxSkbProcess (fun _ => 0) alloc portFrame st).2.driver =
          { st.driver with trapTable := countedTable st.driver portFrame.bytes } := by
  intro st
  exact ⟨by decide +kernel,
    xpRxSkbProcess_routes (fun _ => 0) portTrapped portFrame (by decide)⟩

end XpNet.Intf

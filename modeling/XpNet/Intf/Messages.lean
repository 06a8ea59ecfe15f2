/-
The messages of `xp_export.h` that user space sends to the driver: eight types,
each with its struct, and how the bytes of a struct are read.

A struct's bytes are those of the C type in the host's little-endian order, with
the padding after the last byte field that the compiler adds and nobody reads.
-/

import XpNet.Common
import Mathlib.Data.List.GetD
import Mathlib.Data.UInt

namespace XpNet.Intf

/-! ### Constants -/

/-- `XP_NO_VIF` and `XP_NO_RIF`, `-1` as an `unsigned int`. -/
def xpNoVif : UInt32 := 0xFFFFFFFF

/-- `XP_INVALID_TRAP_ID`, `-1` as an `unsigned int`. -/
def xpInvalidTrapId : UInt32 := 0xFFFFFFFF

def xpMaxReasonCode : UInt32 := 803
def xpMaxTrapId : UInt32 := 0x5000

/-- The `errno` values that the handlers return. -/
def eperm : Int := 1
def enomem : Int := 12
def einval : Int := 22
def espipe : Int := 29

/-! ### The kernel under the handlers -/

/-- What the kernel answers while one message is handled: the memory of a new
net device among the live ones, whether it takes the device of that name,
whether `kmalloc` has memory, and the socket behind a file descriptor, with what
`sockfd_lookup` leaves in its `err`. There is always memory for a net device here;
that there may be none is a second answer beside these where it matters. -/
structure Kernel where
  allocNetdev : (live : List Nat) → { p : Nat // p ∉ live }
  registerNetdev : List UInt8 → Int
  kmalloc : Bool
  sockfdLookup : UInt32 → Option Nat × Int

/-! ### Message structs -/

/-- The values of `xp_nl_operation_t` as a message carries them. -/
def xpNlOperationAdd : UInt8 := 0
def xpNlOperationRemove : UInt8 := 1
def xpNlOperationEnable : UInt8 := 2
def xpNlOperationDisable : UInt8 := 3

/-- `IFNAMSIZ`. -/
def ifnamsiz : Nat := 16

/-- A name of zero bytes. -/
theorem length_replicate_ifnamsiz : (List.replicate ifnamsiz (0 : UInt8)).length = ifnamsiz := rfl

/-- `xp_nl_msg_intf_t`. -/
structure XpNlMsgIntf where
  xpnetIntfId : UInt32
  intfName : { bytes : List UInt8 // bytes.length = ifnamsiz }
  deriving DecidableEq

/-- `xp_nl_msg_link_t`; `vif` and `rif` are one field. -/
structure XpNlMsgLink where
  xpnetIntfId : UInt32
  vif : UInt32
  deriving DecidableEq, Repr

/-- `xp_nl_msg_tx_hdr_t`. -/
structure XpNlMsgTxHdr where
  xpnetIntfId : UInt32
  operation : UInt8
  txHeader : TxHeader
  deriving DecidableEq

/-- `xp_nl_msg_trap_t`. -/
structure XpNlMsgTrap where
  rc : UInt32
  fd : UInt32
  ch : UInt32
  trapId : UInt32
  operation : UInt8
  deriving DecidableEq, Repr

/-- `xp_nl_msg_cb_fd_t`. -/
structure XpNlMsgCbFd where
  fd : UInt32
  operation : UInt8
  deriving DecidableEq, Repr

/-- `xp_nl_msg_mirror_t`. -/
structure XpNlMsgMirror where
  operation : UInt8
  deriving DecidableEq, Repr

/-- `xp_nl_msg_t`, in the order of its values. -/
inductive XpNlMsgType where
  | intfAdd
  | intfDel
  | linkAdd
  | linkDel
  | txHdrSet
  | trapSet
  | cbFdSet
  | mirrorSet
  deriving DecidableEq, Repr

/-- A message with its struct. -/
inductive XpNlMsg where
  | intfAdd (msg : XpNlMsgIntf)
  | intfDel (msg : XpNlMsgIntf)
  | linkAdd (msg : XpNlMsgLink)
  | linkDel (msg : XpNlMsgLink)
  | txHdrSet (msg : XpNlMsgTxHdr)
  | trapSet (msg : XpNlMsgTrap)
  | cbFdSet (msg : XpNlMsgCbFd)
  | mirrorSet (msg : XpNlMsgMirror)
  deriving DecidableEq

/-! ### Bytes -/

/-- An `unsigned int` at the start of `bytes`. -/
def getU32 (bytes : List UInt8) : UInt32 :=
  .ofNat ((bytes.getD 0 0).toNat + 256 * ((bytes.getD 1 0).toNat + 256 *
    ((bytes.getD 2 0).toNat + 256 * (bytes.getD 3 0).toNat)))

/-- The bytes of an `unsigned int`. -/
def putU32 (w : UInt32) : List UInt8 :=
  [.ofNat w.toNat, .ofNat (w.toNat / 2 ^ 8), .ofNat (w.toNat / 2 ^ 16), .ofNat (w.toNat / 2 ^ 24)]

@[simp] theorem length_putU32 (w : UInt32) : (putU32 w).length = 4 := rfl

@[simp] theorem getU32_putU32 (w : UInt32) (rest : List UInt8) : getU32 (putU32 w ++ rest) = w := by
  have hw := w.toNat_lt
  apply UInt32.toNat_inj.mp
  simp only [getU32, putU32, List.cons_append, List.getD_cons_zero, List.getD_cons_succ,
    UInt32.toNat_ofNat', UInt8.toNat_ofNat']
  omega

theorem drop_putU32 (w : UInt32) (rest : List UInt8) (i : Nat) :
    (putU32 w ++ rest).drop (i + 4) = rest.drop i := rfl

theorem getD_putU32 (w : UInt32) (rest : List UInt8) (i : Nat) :
    (putU32 w ++ rest).getD (i + 4) 0 = rest.getD i 0 := rfl

theorem getU32_append {bytes : List UInt8} (h : 4 ≤ bytes.length) (rest : List UInt8) :
    getU32 (bytes ++ rest) = getU32 bytes := by
  have hget : ∀ i < 4, (bytes ++ rest).getD i 0 = bytes.getD i 0 := fun i hi =>
    List.getD_append _ _ _ _ (Nat.lt_of_lt_of_le hi h)
  unfold getU32
  rw [hget 0 (by decide), hget 1 (by decide), hget 2 (by decide), hget 3 (by decide)]

/-- The `n` bytes at the start of `bytes`. -/
def getBytes (n : Nat) (bytes : List UInt8) : { bytes : List UInt8 // bytes.length = n } :=
  ⟨(List.range n).map fun i => bytes.getD i 0, by simp⟩

theorem getBytes_append {n : Nat} {bytes : List UInt8} (h : n ≤ bytes.length)
    (rest : List UInt8) : getBytes n (bytes ++ rest) = getBytes n bytes := by
  apply Subtype.ext
  apply List.map_congr_left
  intro i hi
  exact List.getD_append _ _ _ _ (Nat.lt_of_lt_of_le (List.mem_range.mp hi) h)

@[simp] theorem getBytes_self {n : Nat} (bytes : { bytes : List UInt8 // bytes.length = n }) :
    getBytes n bytes.val = bytes := by
  apply Subtype.ext
  apply List.ext_getElem
  · simp [getBytes, bytes.property]
  · intro i _ hi
    simp [getBytes, hi]

/-- The value of a type on the wire. -/
def XpNlMsgType.code : XpNlMsgType → UInt32
  | .intfAdd => 0
  | .intfDel => 1
  | .linkAdd => 2
  | .linkDel => 3
  | .txHdrSet => 4
  | .trapSet => 5
  | .cbFdSet => 6
  | .mirrorSet => 7

/-- The `switch` on `msg_type`; `none` is its default. -/
def xpNlMsgTypeOf (code : UInt32) : Option XpNlMsgType :=
  if code = 0 then some .intfAdd
  else if code = 1 then some .intfDel
  else if code = 2 then some .linkAdd
  else if code = 3 then some .linkDel
  else if code = 4 then some .txHdrSet
  else if code = 5 then some .trapSet
  else if code = 6 then some .cbFdSet
  else if code = 7 then some .mirrorSet
  else none

@[simp] theorem xpNlMsgTypeOf_code (t : XpNlMsgType) : xpNlMsgTypeOf t.code = some t := by
  cases t <;> rfl

/-- `sizeof` of the type's struct. -/
def XpNlMsgType.size : XpNlMsgType → Nat
  | .intfAdd | .intfDel => 20
  | .linkAdd | .linkDel => 8
  | .txHdrSet => 32
  | .trapSet => 20
  | .cbFdSet => 8
  | .mirrorSet => 1

/-- `memcpy(&msg, …, sizeof(msg))`: the struct that `bytes` hold. -/
def XpNlMsgType.read (bytes : List UInt8) : XpNlMsgType → XpNlMsg
  | .intfAdd => .intfAdd ⟨getU32 bytes, getBytes ifnamsiz (bytes.drop 4)⟩
  | .intfDel => .intfDel ⟨getU32 bytes, getBytes ifnamsiz (bytes.drop 4)⟩
  | .linkAdd => .linkAdd ⟨getU32 bytes, getU32 (bytes.drop 4)⟩
  | .linkDel => .linkDel ⟨getU32 bytes, getU32 (bytes.drop 4)⟩
  | .txHdrSet => .txHdrSet ⟨getU32 bytes, bytes.getD 4 0, getBytes txHeaderLen (bytes.drop 5)⟩
  | .trapSet => .trapSet ⟨getU32 bytes, getU32 (bytes.drop 4), getU32 (bytes.drop 8),
      getU32 (bytes.drop 12), bytes.getD 16 0⟩
  | .cbFdSet => .cbFdSet ⟨getU32 bytes, bytes.getD 4 0⟩
  | .mirrorSet => .mirrorSet ⟨bytes.getD 0 0⟩

/-- A struct is read from its own bytes, whatever follows them. -/
theorem XpNlMsgType.read_append {type : XpNlMsgType} {body : List UInt8}
    (h : body.length = type.size) (rest : List UInt8) : type.read (body ++ rest) = type.read body := by
  have hdrop : ∀ i ≤ body.length, (body ++ rest).drop i = body.drop i ++ rest := fun i hi =>
    List.drop_append_of_le_length hi
  have hu32 : ∀ i, i + 4 ≤ body.length →
      getU32 ((body ++ rest).drop i) = getU32 (body.drop i) := by
    intro i hi
    rw [hdrop i (by omega)]
    exact getU32_append (by rw [List.length_drop]; omega) rest
  have hbytes : ∀ n i, i + n ≤ body.length →
      getBytes n ((body ++ rest).drop i) = getBytes n (body.drop i) := by
    intro n i hi
    rw [hdrop i (by omega)]
    exact getBytes_append (by rw [List.length_drop]; omega) rest
  have hu8 : ∀ i < body.length, (body ++ rest).getD i 0 = body.getD i 0 := fun i hi =>
    List.getD_append _ _ _ _ hi
  have hfirst := hu32 0
  simp only [List.drop_zero] at hfirst
  cases type <;> simp only [XpNlMsgType.size] at h <;>
    simp only [XpNlMsgType.read, h, hfirst, hu32, hbytes, hu8, ifnamsiz, txHeaderLen,
      Nat.reduceLeDiff, Nat.reduceAdd, Nat.reduceLT]

/-! ### Records -/

/-- A sub-message on the wire: a type and the bytes of its struct, padding and all. -/
structure Record where
  type : XpNlMsgType
  body : List UInt8
  length_body : body.length = type.size

/-- The message of a record. -/
def Record.msg (r : Record) : XpNlMsg := r.type.read r.body

/-- The type and the struct, back to back. -/
def Record.bytes (r : Record) : List UInt8 := putU32 r.type.code ++ r.body

theorem Record.length_bytes (r : Record) : r.bytes.length = 4 + r.type.size := by
  simp [Record.bytes, r.length_body]

def XpNlMsg.type : XpNlMsg → XpNlMsgType
  | .intfAdd _ => .intfAdd
  | .intfDel _ => .intfDel
  | .linkAdd _ => .linkAdd
  | .linkDel _ => .linkDel
  | .txHdrSet _ => .txHdrSet
  | .trapSet _ => .trapSet
  | .cbFdSet _ => .cbFdSet
  | .mirrorSet _ => .mirrorSet

/-- The bytes of a message's struct, with zero padding. -/
def XpNlMsg.put : XpNlMsg → List UInt8
  | .intfAdd msg | .intfDel msg => putU32 msg.xpnetIntfId ++ msg.intfName.val
  | .linkAdd msg | .linkDel msg => putU32 msg.xpnetIntfId ++ putU32 msg.vif
  | .txHdrSet msg =>
    putU32 msg.xpnetIntfId ++ (msg.operation :: (msg.txHeader.val ++ List.replicate 3 0))
  | .trapSet msg => putU32 msg.rc ++ (putU32 msg.fd ++ (putU32 msg.ch ++ (putU32 msg.trapId ++
      (msg.operation :: List.replicate 3 0))))
  | .cbFdSet msg => putU32 msg.fd ++ (msg.operation :: List.replicate 3 0)
  | .mirrorSet msg => [msg.operation]

theorem XpNlMsg.length_put (msg : XpNlMsg) : msg.put.length = msg.type.size := by
  cases msg with
  | intfAdd msg => simp [put, type, XpNlMsgType.size, msg.intfName.property, ifnamsiz]
  | intfDel msg => simp [put, type, XpNlMsgType.size, msg.intfName.property, ifnamsiz]
  | txHdrSet msg => simp [put, type, XpNlMsgType.size, msg.txHeader.property, txHeaderLen]
  | _ => rfl

/-- The record of a message. -/
def XpNlMsg.record (msg : XpNlMsg) : Record := ⟨msg.type, msg.put, msg.length_put⟩

/-- Every message is the message of its record. -/
theorem XpNlMsg.msg_record (msg : XpNlMsg) : msg.record.msg = msg := by
  have hlast : ∀ w, getU32 (putU32 w) = w := fun w => by simpa using getU32_putU32 w []
  unfold XpNlMsg.record Record.msg
  cases msg with
  | intfAdd msg =>
    simp only [type, put, XpNlMsgType.read, getU32_putU32, drop_putU32 _ _ 0, List.drop_zero,
      getBytes_self]
  | intfDel msg =>
    simp only [type, put, XpNlMsgType.read, getU32_putU32, drop_putU32 _ _ 0, List.drop_zero,
      getBytes_self]
  | linkAdd msg =>
    simp only [type, put, XpNlMsgType.read, getU32_putU32, drop_putU32 _ _ 0, List.drop_zero, hlast]
  | linkDel msg =>
    simp only [type, put, XpNlMsgType.read, getU32_putU32, drop_putU32 _ _ 0, List.drop_zero, hlast]
  | txHdrSet msg =>
    have hdr : getBytes txHeaderLen (msg.txHeader.val ++ List.replicate 3 0) = msg.txHeader := by
      rw [getBytes_append (Nat.le_of_eq msg.txHeader.property.symm)]
      exact getBytes_self msg.txHeader
    simp only [type, put, XpNlMsgType.read, getU32_putU32, drop_putU32 _ _ 1, getD_putU32 _ _ 0,
      List.drop_succ_cons, List.drop_zero, hdr, List.getD_cons_zero]
  | trapSet msg =>
    simp only [type, put, XpNlMsgType.read, getU32_putU32, drop_putU32, drop_putU32 _ _ 0,
      getD_putU32, List.drop_zero, List.getD_cons_zero]
  | cbFdSet msg =>
    simp only [type, put, XpNlMsgType.read, getU32_putU32, getD_putU32 _ _ 0, List.getD_cons_zero]
  | mirrorSet msg => rfl

end XpNet.Intf

/-
What the transmit and the receive side of `xp_netdev_core.c` share: constants
and index macros of `xp_netdev.h`, the bits of `qword[0]`, the address modes,
socket buffers and TX headers, and the byte swap of the uncompressed A0 device.

Index arithmetic is 32-bit as in the source: an `int` is kept as the `u32` with
its bits, and products wrap, as the kernel is compiled to have them. `RingSize`
collects what a ring size must satisfy for its sums not to wrap, and the lemmas
after it say that the macros are then ring arithmetic.
-/

import XpNet.Ring
import XpNet.Bytes
import Mathlib.Data.BitVec

namespace XpNet

/-! ### Constants of `xp_netdev.h` and `xp_netdev_core.c` -/

def xpnetRxNumQueues : Nat := 64
def xpnetRxNumDescs : Nat := 10
def xpnetTxNumQueues : Nat := 64
def xpnetTxNumDescs : Nat := 10
/-- `XPNET_MAX_DMA_SEGMENT_SIZE` and `XPNET_MAX_DMA_SIZE`, both `4 << 10`. -/
def xpnetMaxDmaSegmentSize : Nat := 4096
def xpnetMaxPacketSize : Nat := 16384
def xpnetMinPacketSize : Nat := 60 + 24
/-- `XPNET_DESC_SIZE`: four qwords. -/
def xpnetDescSize : Nat := 32
def xpnetMaxAttempts : Nat := 50
/-- `MAX_DEV_SUPPORTED` of `xp_pcie_slave.c`. -/
def maxDevSupported : Nat := 8

/-- `xp_address_mode_t`. -/
inductive AddressMode where
  | a0Uncompressed
  | b0Uncompressed
  | b0Compressed
  deriving DecidableEq, Repr

/-- The queue states of `xpnet_enum_t`. -/
inductive QueueStatus where
  | stopped
  | active
  | resetPending
  deriving DecidableEq, Repr

/-! ### The bits of `qword[0]` -/

/-- `(qword[0] >> XP_TX_DESCRIPTOR_BITOFF_OWNERSHIP) & 1`. -/
def ownership (q : BitVec 64) : Bool := (q >>> 4) &&& 1#64 != 0#64
/-- `(qword[0] >> XP_TX_DESCRIPTOR_BITOFF_ERRORINDICATION) & 1`. -/
def errorIndication (q : BitVec 64) : Bool := (q >>> 0) &&& 1#64 != 0#64
/-- The start-of-packet flag, `1 << 3`. -/
def sop (q : BitVec 64) : Bool := (q >>> 3) &&& 1#64 != 0#64
/-- The end-of-packet flag, `1 << 2`. -/
def eop (q : BitVec 64) : Bool := (q >>> 2) &&& 1#64 != 0#64

/-- `1 << XP_TX_DESCRIPTOR_BITOFF_OWNERSHIP`. -/
def ownBit : BitVec 64 := 1#64 <<< 4
def sopBit : BitVec 64 := 1#64 <<< 3
def eopBit : BitVec 64 := 1#64 <<< 2
def errBit : BitVec 64 := 1#64

theorem shift_and_one (q : BitVec 64) {i : Nat} :
    ((q >>> i) &&& 1#64 != 0#64) = q.getLsbD i := by
  rw [Bool.eq_iff_iff, bne_iff_ne]
  constructor
  · intro h
    by_contra hbit
    refine h (BitVec.eq_of_getLsbD_eq fun j hj => ?_)
    cases j with
    | zero => simpa using hbit
    | succ j => simp
  · intro h heq
    have := congrArg (fun b : BitVec 64 => b.getLsbD 0) heq
    simp [h] at this

theorem ownership_eq (q : BitVec 64) : ownership q = q.getLsbD 4 := shift_and_one q
theorem sop_eq (q : BitVec 64) : sop q = q.getLsbD 3 := shift_and_one q
theorem eop_eq (q : BitVec 64) : eop q = q.getLsbD 2 := shift_and_one q
theorem errorIndication_eq (q : BitVec 64) : errorIndication q = q.getLsbD 0 := shift_and_one q

@[simp] theorem ownership_or (q r : BitVec 64) :
    ownership (q ||| r) = (ownership q || ownership r) := by simp [ownership_eq]
@[simp] theorem eop_or (q r : BitVec 64) : eop (q ||| r) = (eop q || eop r) := by simp [eop_eq]
@[simp] theorem sop_or (q r : BitVec 64) : sop (q ||| r) = (sop q || sop r) := by simp [sop_eq]

@[simp] theorem ownership_ownBit : ownership ownBit = true := by decide
@[simp] theorem ownership_sopBit : ownership sopBit = false := by decide
@[simp] theorem ownership_eopBit : ownership eopBit = false := by decide
@[simp] theorem eop_ownBit : eop ownBit = false := by decide
@[simp] theorem eop_sopBit : eop sopBit = false := by decide
@[simp] theorem eop_eopBit : eop eopBit = true := by decide
@[simp] theorem sop_ownBit : sop ownBit = false := by decide
@[simp] theorem sop_sopBit : sop sopBit = true := by decide
@[simp] theorem sop_eopBit : sop eopBit = false := by decide

/-- The device giving a descriptor back: it clears the ownership bit. -/
def clearOwn (q : BitVec 64) : BitVec 64 := q &&& ~~~ownBit
/-- The device reporting an error: it sets the error bit. -/
def setError (q : BitVec 64) : BitVec 64 := q ||| errBit

@[simp] theorem ownership_clearOwn (q : BitVec 64) : ownership (clearOwn q) = false := by
  simp [ownership_eq, clearOwn, ownBit]
@[simp] theorem eop_clearOwn (q : BitVec 64) : eop (clearOwn q) = eop q := by
  simp [eop_eq, clearOwn, ownBit]
@[simp] theorem ownership_setError (q : BitVec 64) : ownership (setError q) = ownership q := by
  simp [setError, errBit, ownership_eq]
@[simp] theorem errorIndication_clearOwn (q : BitVec 64) :
    errorIndication (clearOwn q) = errorIndication q := by
  simp [errorIndication_eq, clearOwn, ownBit]
@[simp] theorem errorIndication_setError (q : BitVec 64) :
    errorIndication (setError q) = true := by
  simp [errorIndication_eq, setError, errBit]
@[simp] theorem eop_setError (q : BitVec 64) : eop (setError q) = eop q := by
  simp [setError, errBit, eop_eq]

/-! ### Ring indices -/

/-- `u32` addition. -/
def u32Add (a b : Nat) : Nat := (a + b) % 2 ^ 32
/-- `u32` subtraction, which wraps below zero. -/
def u32Sub (a b : Nat) : Nat := (a + 2 ^ 32 - b) % 2 ^ 32
/-- `u32` multiplication. -/
def u32Mul (a b : Nat) : Nat := a * b % 2 ^ 32

/-- A `u32` value read as an `int`. -/
def asInt (x : Nat) : Int := if x < 2 ^ 31 then x else x - 2 ^ 32

theorem u32Mul_le (a b : Nat) : u32Mul a b ≤ a * b := Nat.mod_le _ _

/-- `xpnet_add_and_wrap(idx, incr, limit)`. -/
def xpnetAddAndWrap (idx incr limit : Nat) : Nat := u32Add (u32Add idx limit) incr % limit

/-- `xpnet_get_busy_desc(q)`. -/
def xpnetGetBusyDesc (numDesc head tail : Nat) : Nat :=
  u32Sub (u32Add numDesc tail) (u32Add head 1) % numDesc

/-- `xpnet_get_free_desc(q)`. -/
def xpnetGetFreeDesc (numDesc head tail : Nat) : Nat :=
  u32Sub (u32Sub numDesc 1) (xpnetGetBusyDesc numDesc head tail)

/-- The ring sizes the index arithmetic is meant for: one slot stays free, and
no sum of three indices wraps in `u32`. `XPNET_TX_NUM_DESCS` is one. -/
structure RingSize (n : Nat) : Prop where
  two_le : 2 ≤ n
  sums_fit : 3 * n < 2 ^ 32

theorem ringSize_txNumDescs : RingSize xpnetTxNumDescs := ⟨by decide, by decide⟩

theorem RingSize.pos {n : Nat} (size : RingSize n) : 0 < n := by
  have := size.two_le
  omega

/-- Up to a number of free descriptors the `int` comparison is that of naturals. -/
theorem RingSize.not_asInt_gt {n k free : Nat} (size : RingSize n) (hk : k ≤ free)
    (hfree : free < n) : ¬ asInt k > asInt free := by
  have := size.sums_fit
  unfold asInt
  split <;> split <;> omega

theorem xpnetAddAndWrap_eq {n idx incr : Nat} (size : RingSize n) (hidx : idx ≤ n)
    (hincr : incr ≤ n) : xpnetAddAndWrap idx incr n = slot n idx incr := by
  have := size.sums_fit
  have hidxn : idx + n < 2 ^ 32 := by omega
  have hsum : idx + n + incr < 2 ^ 32 := by omega
  have hcomm : idx + n + incr = n + (idx + incr) := by omega
  unfold xpnetAddAndWrap u32Add slot
  rw [Nat.mod_eq_of_lt hidxn, Nat.mod_eq_of_lt hsum, hcomm, Nat.add_mod_left]

/-- The subtraction in `xpnet_get_busy_desc` stays above zero, and the macro
counts the filled slots. -/
theorem xpnetGetBusyDesc_eq (r : Ring) (size : RingSize r.size) :
    xpnetGetBusyDesc r.size r.head r.tail = r.busy := by
  have := size.sums_fit
  have hh := r.head_lt
  have ht := r.tail_lt
  have hsum : r.size + r.tail < 2 ^ 32 := by omega
  have hnext : r.head + 1 < 2 ^ 32 := by omega
  unfold xpnetGetBusyDesc u32Sub u32Add Ring.busy
  rw [Nat.mod_eq_of_lt hsum, Nat.mod_eq_of_lt hnext]
  congr 1
  omega

theorem xpnetGetFreeDesc_eq (r : Ring) (size : RingSize r.size) :
    xpnetGetFreeDesc r.size r.head r.tail = r.free := by
  have := size.sums_fit
  have := r.size_pos
  have := r.busy_lt
  unfold xpnetGetFreeDesc u32Sub Ring.free
  rw [xpnetGetBusyDesc_eq r size]
  omega

/-! ### Socket buffers -/

/-- What the driver reads of a `struct sk_buff`: the bytes from `skb->data` to
the end of the linear part, those in its fragments, the room in front of them,
and the two lengths. `expanded` tells a buffer `skb_copy_expand` made from one
the kernel owns. -/
structure SkBuff where
  headroom : Nat
  data : List UInt8
  frags : List UInt8
  len : Nat
  dataLen : Nat
  expanded : Bool
  dataLen_eq : dataLen = frags.length
  len_eq : len = data.length + dataLen

/-- A linear buffer has nothing in its fragments. -/
theorem dataLen_linear : 0 = ([] : List UInt8).length := rfl

/-- `skb_push(skb, bytes.length)` and the copy of `bytes` to the new `skb->data`. -/
def skbPush (skb : SkBuff) (bytes : List UInt8) : SkBuff where
  headroom := skb.headroom - bytes.length
  data := bytes ++ skb.data
  frags := skb.frags
  len := skb.len + bytes.length
  dataLen := skb.dataLen
  expanded := skb.expanded
  dataLen_eq := skb.dataLen_eq
  len_eq := by simp [skb.len_eq]; omega

/-- `skb_copy_expand(skb, newHeadroom, 0, …)` when it gets its memory: the same
bytes in one linear buffer with the headroom asked for. -/
def skbCopyExpand (skb : SkBuff) (newHeadroom : Nat) : SkBuff where
  headroom := newHeadroom
  data := skb.data ++ skb.frags
  frags := []
  len := skb.len
  dataLen := 0
  expanded := true
  dataLen_eq := dataLen_linear
  len_eq := by simp [skb.len_eq, skb.dataLen_eq]

/-- `sizeof(xphTxHdr)`. -/
def txHeaderLen : Nat := 24

/-- The bytes of an `xphTxHdr`. -/
def TxHeader := { bytes : List UInt8 // bytes.length = txHeaderLen }

instance : DecidableEq TxHeader := inferInstanceAs (DecidableEq { _bytes : List UInt8 // _ })

/-- A header that is not set: all zero. -/
def unsetTxHeader : TxHeader := ⟨List.replicate txHeaderLen 0, rfl⟩

/-! ### The byte swap -/

/-- `__xpnet_endian_swap32(base, buf_size, mode)`. The loop counter is a
`uint16_t` compared with `(buf_size - 1) / 4` in `u32`; where that bound is not
below `0xffff` the counter wraps around and the loop does not end. -/
def xpnetEndianSwap32 (base : Image) (bufSize : Nat) (mode : AddressMode) : Option Image :=
  if mode = .a0Uncompressed then
    let last := u32Sub bufSize 1 / 4
    if last < 65535 then some (swapWords base (last + 1)) else none
  else some base

/-- The words the swap reverses when it ends. -/
def swappedWords (bufSize : Nat) (mode : AddressMode) : Nat :=
  if mode = .a0Uncompressed then (bufSize + 3) / 4 else 0

/-- The first `len` bytes of a buffer as they go over the wire, the byte swap undone. -/
def wireBytes (va : Image) (len : Nat) (mode : AddressMode) : List UInt8 :=
  readBytes (swapWords va (swappedWords len mode)) len

/-- On a non-empty buffer of at most `2 ^ 18` bytes the swap ends, and reverses
the words the buffer's bytes lie in. -/
theorem xpnetEndianSwap32_eq (base : Image) {bufSize : Nat} (mode : AddressMode)
    (pos : 0 < bufSize) (bound : bufSize ≤ 2 ^ 18 - 4) :
    xpnetEndianSwap32 base bufSize mode = some (swapWords base (swappedWords bufSize mode)) := by
  unfold xpnetEndianSwap32 swappedWords
  by_cases hmode : mode = .a0Uncompressed
  · have hsub : u32Sub bufSize 1 = bufSize - 1 := by
      unfold u32Sub
      omega
    have hlast : (bufSize - 1) / 4 < 65535 := by omega
    have hwords : (bufSize - 1) / 4 + 1 = (bufSize + 3) / 4 := by omega
    simp only [hmode, hsub, if_true, if_pos hlast, hwords]
  · simp [hmode, swapWords]

end XpNet

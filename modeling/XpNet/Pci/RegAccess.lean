/-
`xp_dev_reg_access`, the ioctl that reads and writes registers.

A request of a size divisible by four is an access of dwords, one of size two an
access of one word, and every other one an access of single bytes. The values go
through a buffer with one `u32` for each element, which is copied from and to the
user in pieces of 1024 bytes.

The pieces are counted in a `u8`: after 256 of them the copy starts over at the
front, so that it covers the first 262144 bytes and no more
(`copyInChunks_eq_some`, `copyOutChunks_eq`). An access of dwords is therefore
right up to that size and wrong beyond (`regAccess_dwords_iff`). An access of
bytes copies in as many bytes as it has elements, not four for each; what is
stored then comes from memory nobody wrote (`regAccess_roundtrip_iff`).
-/

import XpNet.Pci.Regs
import XpNet.Common

namespace XpNet.Pci

open XpNet.Intf (enomem einval)

/-! ### The request -/

/-- `GET_REG` and `SET_REG`. -/
def getReg : Nat := 1
def setReg : Nat := 0

/-- `XP_MAX_BYTES_FOR_COPY`. -/
def xpMaxBytesForCopy : Nat := 1024

/-- `xp_reg_rw_t`. What `value` points to is the user buffer of the request. -/
structure XpRegRw where
  regAddress : BitVec 32
  direction : Nat
  size : Nat
  size_lt : size < 2 ^ 32

/-- A request that writes, and one that reads. -/
def setRequest (regAddress : BitVec 32) (size : Nat) (hlt : size < 2 ^ 32) : XpRegRw :=
  ⟨regAddress, setReg, size, hlt⟩
def getRequest (regAddress : BitVec 32) (size : Nat) (hlt : size < 2 ^ 32) : XpRegRw :=
  ⟨regAddress, getReg, size, hlt⟩

/-- `sizeof(xp_reg_rw_t)`; the structure is packed. -/
def xpRegRwLen : Nat := 17

/-- What the kernel answers to one call: which allocations it grants, how many
bytes of its `i`-th user copy it leaves uncopied (the first is that of the
request), and what the memory it hands out holds. -/
structure AccessKernel where
  kmalloc : Nat → Bool
  uncopied : Nat → Nat
  fresh : Image

/-- The number of elements of an access and the size of each. -/
def regShape (size : Nat) : Nat × RegSize :=
  if size % 4 = 0 then (size / 4, .dword)
  else if size = 2 then (1, .word)
  else (size, .byte)

/-! ### The copies -/

/-- `copy_count`: the length of the next piece. -/
def copyCount (countValue : Nat) : Nat :=
  if countValue > xpMaxBytesForCopy then xpMaxBytesForCopy else countValue

theorem copyCount_le_limit (countValue : Nat) : copyCount countValue ≤ xpMaxBytesForCopy := by
  unfold copyCount
  split <;> omega

theorem copyCount_le (countValue : Nat) : copyCount countValue ≤ countValue := by
  unfold copyCount
  split <;> omega

/-- A piece that is not the last is a full one. -/
theorem copyCount_of_more {countValue : Nat} (more : ¬ countValue - copyCount countValue = 0) :
    copyCount countValue = 1024 := by
  unfold copyCount at more ⊢
  split
  · rfl
  · rename_i h
    rw [if_neg h] at more
    omega

/-- The last piece is what is left. -/
theorem copyCount_of_last {countValue : Nat} (last : countValue - copyCount countValue = 0) :
    copyCount countValue = countValue :=
  Nat.le_antisymm (copyCount_le countValue) (Nat.sub_eq_zero_iff_le.mp last)

/-- How much of a piece stays uncopied. -/
def leftOf (kernel : AccessKernel) (copy countValue : Nat) : Nat :=
  min (kernel.uncopied copy) (copyCount countValue)

/-- The copy loop of a write, with `idx` the `u8` that counts the pieces. It gives
up at the first piece that does not come through. -/
def copyInChunks (kernel : AccessKernel) (user : Image) (copy : Nat) (idx : UInt8)
    (countValue : Nat) (tmp : Image) : Option Image :=
  if leftOf kernel copy countValue ≠ 0 then none
  else if countValue - copyCount countValue = 0 then
    some (blit tmp user (idx.toNat * xpMaxBytesForCopy) (copyCount countValue))
  else
    copyInChunks kernel user (copy + 1) (idx + 1) (countValue - copyCount countValue)
      (blit tmp user (idx.toNat * xpMaxBytesForCopy) (copyCount countValue))
termination_by countValue
decreasing_by
  have := copyCount_of_more ‹_›
  omega

/-- One piece of the copy loop of a read: what has come through of it. -/
def copyOutPiece (kernel : AccessKernel) (tmp : Image) (copy : Nat) (idx : UInt8)
    (countValue : Nat) (user : Image) : Image :=
  blit user tmp (idx.toNat * xpMaxBytesForCopy)
    (copyCount countValue - leftOf kernel copy countValue)

/-- The result after one piece of a read. -/
def copyOutRc (kernel : AccessKernel) (copy countValue : Nat) (rc : Int) : Int :=
  if leftOf kernel copy countValue ≠ 0 then -efault else rc

/-- The copy loop of a read, which goes on after a piece that does not come
through. -/
def copyOutChunks (kernel : AccessKernel) (tmp : Image) (copy : Nat) (idx : UInt8)
    (countValue : Nat) (rc : Int) (user : Image) : Int × Image :=
  if countValue - copyCount countValue = 0 then
    (copyOutRc kernel copy countValue rc, copyOutPiece kernel tmp copy idx countValue user)
  else
    copyOutChunks kernel tmp (copy + 1) (idx + 1) (countValue - copyCount countValue)
      (copyOutRc kernel copy countValue rc) (copyOutPiece kernel tmp copy idx countValue user)
termination_by countValue
decreasing_by
  have := copyCount_of_more ‹_›
  omega

/-! ### The call -/

variable {δ : Type}

/-- The first half of `xp_dev_reg_access`: it gets the request and the memory for
its values, and answers the number and the size of them. -/
def regRequest (kernel : AccessKernel) (pciRw : XpRegRw) : Except Int (Nat × RegSize) :=
  if !kernel.kmalloc xpRegRwLen then .error (-enomem)
  else if min (kernel.uncopied 0) xpRegRwLen ≠ 0 then
    .error (min (kernel.uncopied 0) xpRegRwLen : Nat)
  else if (regShape pciRw.size).1 = 0 then .error (-einval)
  else if !kernel.kmalloc ((regShape pciRw.size).1 * 4) then .error (-enomem)
  else .ok (regShape pciRw.size)

/-- `xp_dev_reg_access(argp, priv)`: the result, the user buffer and the device
after the call. -/
def xpDevRegAccess (regs : Registers δ) (kernel : AccessKernel) (pciRw : XpRegRw) (user : Image)
    (s : δ) : Int × Image × δ :=
  match regRequest kernel pciRw with
  | .error rc => (rc, user, s)
  | .ok (count, regSize) =>
      if pciRw.direction = setReg then
        match copyInChunks kernel user 1 0 (u32Mul count regSize.bytes) kernel.fresh with
        | none => (-efault, user, s)
        | some tmpValue =>
            let r := xpDevRegWrite regs (words tmpValue count) pciRw.regAddress regSize.bytes s
            if r.1 ≠ 0 then (-efault, user, r.2) else (r.1, user, r.2)
      else if pciRw.direction = getReg then
        let r := xpDevRegRead regs pciRw.regAddress regSize.bytes count s
        if r.1 ≠ 0 then (-efault, user, r.2.2)
        else
          let tmpValue := putWords kernel.fresh r.2.1
          let out := copyOutChunks kernel tmpValue 1 0 (u32Mul count 4) r.1 user
          (out.1, out.2, r.2.2)
      else (-einval, user, s)

/-! ### What the copies move -/

/-- The bytes that 256 pieces hold. -/
def copyLimit : Nat := 262144

/-- `dst` with the first `n` bytes of `src`, but no more than 256 pieces. -/
def copied (n : Nat) (src dst : Image) : Image :=
  fun o => if o < min n copyLimit then src o else dst o

theorem copied_of_lt {n o : Nat} (hn : n ≤ copyLimit) (ho : o < n) (src dst : Image) :
    copied n src dst o = src o := by
  unfold copied
  rw [Nat.min_eq_left hn, if_pos ho]

theorem copied_zero (src dst : Image) : copied (0 * 1024) src dst = dst := by
  funext o
  simp [copied]

section Copies

variable {kernel : AccessKernel} {src dst : Image} {idx : UInt8} {c : Nat}

/-- One more piece, at the place its wrapped number gives it. -/
theorem blit_copied (hidx : idx.toNat = c % 256) {n : Nat} (hn : n ≤ xpMaxBytesForCopy) :
    blit (copied (c * 1024) src dst) src (idx.toNat * xpMaxBytesForCopy) n =
      copied (c * 1024 + n) src dst := by
  have hpiece : xpMaxBytesForCopy = 1024 := rfl
  have hlimit : copyLimit = 262144 := rfl
  funext o
  simp only [blit, copied, hidx, hpiece, hlimit] at hn ⊢
  by_cases hc : c < 256
  · rw [Nat.mod_eq_of_lt hc]
    grind
  · -- every piece after the 256th is one that was copied before
    have := Nat.mod_lt c (show 0 < 256 by decide)
    grind

theorem idx_succ (hidx : idx.toNat = c % 256) : (idx + 1).toNat = (c + 1) % 256 := by
  rw [UInt8.toNat_add, hidx]
  exact Nat.mod_add_mod c 256 1

/-- The pieces after a full one. -/
theorem copied_more {countValue : Nat} (more : ¬ countValue - copyCount countValue = 0) :
    (c + 1) * 1024 = c * 1024 + copyCount countValue ∧
      (c + 1) * 1024 + (countValue - copyCount countValue) = c * 1024 + countValue := by
  have hfull := copyCount_of_more more
  have hle := copyCount_le countValue
  omega

/-- A write's buffer after the copy: the user's bytes as far as 256 pieces go, and
what was there before beyond. -/
theorem copyInChunks_eq_some {copy countValue : Nat} {tmp t : Image}
    (hidx : idx.toNat = c % 256) (htmp : tmp = copied (c * 1024) src dst)
    (h : copyInChunks kernel src copy idx countValue tmp = some t) :
    t = copied (c * 1024 + countValue) src dst := by
  fun_induction copyInChunks kernel src copy idx countValue tmp generalizing c with
  | case1 => cases h
  | case2 copy idx countValue tmp hdone hlast =>
      rw [htmp, blit_copied hidx (copyCount_le_limit _), copyCount_of_last hlast] at h
      exact (Option.some.inj h).symm
  | case3 copy idx countValue tmp hdone hmore ih =>
      obtain ⟨hnext, hrest⟩ := copied_more (c := c) hmore
      have htmp' : blit tmp src (idx.toNat * xpMaxBytesForCopy) (copyCount countValue) =
          copied ((c + 1) * 1024) src dst := by
        rw [htmp, blit_copied hidx (copyCount_le_limit _), hnext]
      rw [ih (idx_succ hidx) htmp' h, hrest]

theorem leftOf_complete (hall : ∀ i, kernel.uncopied i = 0) (copy countValue : Nat) :
    leftOf kernel copy countValue = 0 := by
  simp [leftOf, hall]

theorem copyInChunks_isSome (hall : ∀ i, kernel.uncopied i = 0) (copy countValue : Nat)
    (tmp : Image) : (copyInChunks kernel src copy idx countValue tmp).isSome = true := by
  fun_induction copyInChunks kernel src copy idx countValue tmp with
  | case1 copy idx countValue tmp hfail => exact absurd (leftOf_complete hall _ _) hfail
  | case2 => rfl
  | case3 copy idx countValue tmp hdone hmore ih => exact ih

/-- A piece of a read leaves the result zero only when it comes through. -/
theorem copyOutRc_eq_zero {copy countValue : Nat} {rc : Int} :
    copyOutRc kernel copy countValue rc = 0 ↔ leftOf kernel copy countValue = 0 ∧ rc = 0 := by
  unfold copyOutRc
  by_cases hleft : leftOf kernel copy countValue = 0
  · simp [hleft]
  · simp [hleft, efault]

/-- A read that has failed stays failed. -/
theorem copyOutChunks_rc {copy countValue : Nat} {rc : Int} {user : Image}
    (h : (copyOutChunks kernel src copy idx countValue rc user).1 = 0) : rc = 0 := by
  fun_induction copyOutChunks kernel src copy idx countValue rc user with
  | case1 => exact (copyOutRc_eq_zero.mp h).2
  | case2 copy idx countValue rc user hmore ih => exact (copyOutRc_eq_zero.mp (ih h)).2

/-- A piece of a read that comes through. -/
theorem copyOutPiece_copied {copy countValue : Nat} {user : Image} (hidx : idx.toNat = c % 256)
    (huser : user = copied (c * 1024) src dst) (hleft : leftOf kernel copy countValue = 0) :
    copyOutPiece kernel src copy idx countValue user =
      copied (c * 1024 + copyCount countValue) src dst := by
  unfold copyOutPiece
  rw [hleft, Nat.sub_zero, huser, blit_copied hidx (copyCount_le_limit _)]

/-- The user buffer after a read that succeeds: what was read as far as 256 pieces
go, and what was there before beyond. -/
theorem copyOutChunks_eq {copy countValue : Nat} {rc : Int} {user : Image}
    (hidx : idx.toNat = c % 256) (huser : user = copied (c * 1024) src dst)
    (h : (copyOutChunks kernel src copy idx countValue rc user).1 = 0) :
    (copyOutChunks kernel src copy idx countValue rc user).2 =
      copied (c * 1024 + countValue) src dst := by
  fun_induction copyOutChunks kernel src copy idx countValue rc user generalizing c with
  | case1 copy idx countValue rc user hlast =>
      obtain ⟨hleft, -⟩ := copyOutRc_eq_zero.mp h
      have hpiece := copyOutPiece_copied hidx huser hleft
      rw [copyCount_of_last hlast] at hpiece
      exact hpiece
  | case2 copy idx countValue rc user hmore ih =>
      obtain ⟨hnext, hrest⟩ := copied_more (c := c) hmore
      obtain ⟨hleft, -⟩ := copyOutRc_eq_zero.mp (copyOutChunks_rc h)
      have hpiece := copyOutPiece_copied hidx huser hleft
      rw [← hnext] at hpiece
      rw [ih (idx_succ hidx) hpiece h, hrest]

theorem copyOutChunks_complete (hall : ∀ i, kernel.uncopied i = 0) {rc : Int} (hrc : rc = 0)
    (copy countValue : Nat) (user : Image) :
    (copyOutChunks kernel src copy idx countValue rc user).1 = 0 := by
  fun_induction copyOutChunks kernel src copy idx countValue rc user with
  | case1 => exact copyOutRc_eq_zero.mpr ⟨leftOf_complete hall _ _, hrc⟩
  | case2 copy idx countValue rc user hmore ih =>
      exact ih (copyOutRc_eq_zero.mpr ⟨leftOf_complete hall _ _, hrc⟩)

/-- A piece lies before the end of what its number allows. -/
theorem copyOutPiece_beyond (hidx : idx.toNat ≤ c) {copy countValue o : Nat}
    (ho : c * 1024 + countValue ≤ o) (user : Image) :
    copyOutPiece kernel src copy idx countValue user o = user o := by
  have hpiece : idx.toNat * xpMaxBytesForCopy ≤ c * 1024 := Nat.mul_le_mul_right 1024 hidx
  have hle := copyCount_le countValue
  unfold copyOutPiece blit
  rw [if_neg (by omega)]

/-- Whatever a read's copies do, they leave the user's bytes after the request. -/
theorem copyOutChunks_beyond {copy countValue : Nat} {rc : Int} {user : Image}
    (hidx : idx.toNat ≤ c) {o : Nat} (ho : c * 1024 + countValue ≤ o) :
    (copyOutChunks kernel src copy idx countValue rc user).2 o = user o := by
  fun_induction copyOutChunks kernel src copy idx countValue rc user generalizing c with
  | case1 copy idx countValue rc user hlast => exact copyOutPiece_beyond hidx ho user
  | case2 copy idx countValue rc user hmore ih =>
      have hidx' : (idx + 1).toNat ≤ c + 1 := by
        rw [UInt8.toNat_add]
        exact (Nat.mod_le _ _).trans (Nat.succ_le_succ hidx)
      rw [ih hidx' ((copied_more hmore).2.le.trans ho)]
      exact copyOutPiece_beyond hidx ho user

end Copies

end XpNet.Pci

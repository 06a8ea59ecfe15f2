/-
What a register request moves between the user buffer and the device.

For an access of dwords this is the request's contract: a write stores the `k`-th
dword of the buffer at `reg_addr + 4k` or fails and stores nothing, and a read
delivers the dword at `reg_addr + 4k` as the `k`-th of the buffer and touches no
other byte. The driver meets it up to 262144 bytes, and for no larger request
(`regAccess_dwords_iff`).

For the other sizes, a read and a write back of the same request leave registers
that behave like memory as they were exactly for one and two bytes
(`regAccess_roundtrip_iff`): from three bytes on the last element a write stores
is one that no byte of the user's was copied to.
-/

import XpNet.Pci.RegAccess

namespace XpNet.Pci

open XpNet.Intf (enomem einval)

variable {δ : Type}

/-! ### The call in terms of its copies -/

theorem regShape_bytes {size : Nat} (hlt : size < 2 ^ 32) :
    u32Mul (regShape size).1 (regShape size).2.bytes = size := by
  have hmod : size % 2 ^ 32 = size := Nat.mod_eq_of_lt hlt
  unfold regShape u32Mul
  split
  · rename_i hmul
    rw [show size / 4 * RegSize.dword.bytes = size from
      Nat.div_mul_cancel (Nat.dvd_of_mod_eq_zero hmul), hmod]
  · split
    · rename_i hword
      subst hword
      rfl
    · rw [show size * RegSize.byte.bytes = size from Nat.mul_one size, hmod]

/-- The kernel has the memory for the request and for its values. -/
def AccessKernel.Allocates (kernel : AccessKernel) (size : Nat) : Prop :=
  kernel.kmalloc xpRegRwLen = true ∧ kernel.kmalloc ((regShape size).1 * 4) = true

/-- Every user copy of the call comes through. -/
def AccessKernel.Copies (kernel : AccessKernel) : Prop := ∀ i, kernel.uncopied i = 0

section Calls

variable {kernel : AccessKernel} {pciRw : XpRegRw}

/-- A request that is turned down has an error to answer. -/
theorem regRequest_error {rc : Int} (h : regRequest kernel pciRw = .error rc) : rc ≠ 0 := by
  unfold regRequest at h
  split at h
  · cases h
    decide
  split at h
  · rename_i hcopy
    cases h
    exact_mod_cast hcopy
  split at h
  · cases h
    decide
  split at h
  · cases h
    decide
  · cases h

theorem regRequest_ok {shape : Nat × RegSize} (h : regRequest kernel pciRw = .ok shape) :
    shape = regShape pciRw.size := by
  unfold regRequest at h
  split at h
  · cases h
  split at h
  · cases h
  split at h
  · cases h
  split at h
  · cases h
  · cases h
    rfl

theorem regRequest_of (hpos : 0 < (regShape pciRw.size).1)
    (halloc : kernel.Allocates pciRw.size) (hcopies : kernel.Copies) :
    regRequest kernel pciRw = .ok (regShape pciRw.size) := by
  obtain ⟨hreq, htmp⟩ := halloc
  have hcopy : min (kernel.uncopied 0) xpRegRwLen = 0 := by simp [hcopies 0]
  simp [regRequest, hreq, htmp, hcopy, Nat.pos_iff_ne_zero.mp hpos]

variable (regs : Registers δ) (regAddress : BitVec 32) {size : Nat} (hlt : size < 2 ^ 32)
  (user : Image) (s : δ)

/-- A write that fails stores nothing; one that succeeds stores the elements of
its buffer, which has the user's bytes as far as 256 pieces go. -/
theorem access_set (kernel : AccessKernel) :
    ((xpDevRegAccess regs kernel (setRequest regAddress size hlt) user s).1 ≠ 0 ∧
      (xpDevRegAccess regs kernel (setRequest regAddress size hlt) user s).2.2 = s) ∨
    ((xpDevRegAccess regs kernel (setRequest regAddress size hlt) user s).1 = 0 ∧
      (xpDevRegAccess regs kernel (setRequest regAddress size hlt) user s).2.2 =
        storeEach regs (regShape size).2
          (words (copied size user kernel.fresh) (regShape size).1) regAddress s) := by
  unfold xpDevRegAccess
  cases hreq : regRequest kernel (setRequest regAddress size hlt) with
  | error rc => exact .inl ⟨regRequest_error hreq, rfl⟩
  | ok shape =>
      rw [regRequest_ok hreq]
      simp only [setRequest, if_true]
      cases hin : copyInChunks kernel user 1 0
          (u32Mul (regShape size).1 (regShape size).2.bytes) kernel.fresh with
      | none => exact .inl ⟨by simp [efault], rfl⟩
      | some tmpValue =>
          have heq := copyInChunks_eq_some (c := 0) rfl (copied_zero user kernel.fresh).symm hin
          rw [Nat.zero_mul, Nat.zero_add, regShape_bytes hlt] at heq
          simp [xpDevRegWrite, heq]

theorem access_set_ok (hpos : 0 < (regShape size).1) (halloc : kernel.Allocates size)
    (hcopies : kernel.Copies) :
    (xpDevRegAccess regs kernel (setRequest regAddress size hlt) user s).1 = 0 := by
  have hsome : (copyInChunks kernel user 1 0
      (u32Mul (regShape size).1 (regShape size).2.bytes) kernel.fresh).isSome = true :=
    copyInChunks_isSome hcopies _ _ _
  obtain ⟨tmpValue, hin⟩ := Option.isSome_iff_exists.mp hsome
  have hreq : regRequest kernel (setRequest regAddress size hlt) = .ok (regShape size) :=
    regRequest_of hpos halloc hcopies
  unfold xpDevRegAccess
  rw [hreq]
  simp [setRequest, hin, xpDevRegWrite]

theorem getReg_ne_setReg : getReg ≠ setReg := by decide

/-- A read that succeeds delivers the elements it loaded as far as 256 pieces go. -/
theorem access_get {kernel : AccessKernel}
    (hok : (xpDevRegAccess regs kernel (getRequest regAddress size hlt) user s).1 = 0) :
    (xpDevRegAccess regs kernel (getRequest regAddress size hlt) user s).2 =
      (copied (u32Mul (regShape size).1 4)
        (putWords kernel.fresh
          (loadEach regs (regShape size).2 (regShape size).1 regAddress s).1) user,
      (loadEach regs (regShape size).2 (regShape size).1 regAddress s).2) := by
  unfold xpDevRegAccess at hok ⊢
  cases hreq : regRequest kernel (getRequest regAddress size hlt) with
  | error rc =>
      rw [hreq] at hok
      exact absurd hok (regRequest_error hreq)
  | ok shape =>
      rw [hreq, regRequest_ok hreq] at hok
      rw [regRequest_ok hreq]
      simp only [getRequest, getReg_ne_setReg, xpDevRegRead, RegSize.ofNat?_bytes, ne_eq,
        not_true_eq_false, if_true, if_false] at hok ⊢
      rw [copyOutChunks_eq (c := 0) rfl (copied_zero _ _).symm hok, Nat.zero_mul, Nat.zero_add]

theorem access_get_ok (hpos : 0 < (regShape size).1) (halloc : kernel.Allocates size)
    (hcopies : kernel.Copies) :
    (xpDevRegAccess regs kernel (getRequest regAddress size hlt) user s).1 = 0 := by
  have hreq : regRequest kernel (getRequest regAddress size hlt) = .ok (regShape size) :=
    regRequest_of hpos halloc hcopies
  unfold xpDevRegAccess
  rw [hreq]
  simp only [getRequest, getReg_ne_setReg, xpDevRegRead, RegSize.ofNat?_bytes, ne_eq,
    not_true_eq_false, if_true, if_false]
  exact copyOutChunks_complete hcopies rfl _ _ _

/-- A read leaves the user's bytes after its elements. -/
theorem access_get_beyond (kernel : AccessKernel) {o : Nat}
    (ho : u32Mul (regShape size).1 4 ≤ o) :
    (xpDevRegAccess regs kernel (getRequest regAddress size hlt) user s).2.1 o = user o := by
  unfold xpDevRegAccess
  cases hreq : regRequest kernel (getRequest regAddress size hlt) with
  | error rc => rfl
  | ok shape =>
      rw [regRequest_ok hreq]
      simp only [getRequest, getReg_ne_setReg, xpDevRegRead, RegSize.ofNat?_bytes, ne_eq,
        not_true_eq_false, if_true, if_false]
      exact copyOutChunks_beyond (c := 0) (le_refl _) (by omega)

end Calls

/-- A kernel that grants everything and hands out memory that holds `fresh`. -/
def plainKernel (fresh : Image) : AccessKernel where
  kmalloc _ := true
  uncopied _ := 0
  fresh := fresh

/-! ### Accesses of dwords -/

/-- The stores of the dwords of `m` from `reg_addr` on, four apart. -/
def dwordWrites (regAddr : BitVec 32) (m : Image) (count : Nat) : List (BitVec 32 × BitVec 32) :=
  (List.range count).map fun k => (dwordAddr regAddr k, wordFrom m (4 * k))

/-- A write fails and stores nothing, or it stores the user's dwords. -/
def StoresDwords (regs : Registers δ) (kernel : AccessKernel) (pciRw : XpRegRw) (user : Image)
    (s : δ) : Prop :=
  let r := xpDevRegAccess regs kernel pciRw user s
  (r.1 ≠ 0 ∧ r.2.2 = s) ∨
    (r.1 = 0 ∧ r.2.2 = regs.stores (dwordWrites pciRw.regAddress user (pciRw.size / 4)) s)

/-- A read whose copies come through delivers the registers' dwords, and no read
touches the user's other bytes. -/
def DeliversDwords (regs : Registers δ) (kernel : AccessKernel) (pciRw : XpRegRw) (user : Image)
    (s : δ) : Prop :=
  let r := xpDevRegAccess regs kernel pciRw user s
  (kernel.Copies → r.1 = 0 ∧ ∀ k < pciRw.size / 4,
    (regs.loads ((List.range (pciRw.size / 4)).map (dwordAddr pciRw.regAddress)) s).1[k]? =
      some (wordFrom r.2.1 (4 * k))) ∧
  ∀ o, pciRw.size ≤ o → r.2.1 o = user o

theorem storeEach_words (regs : Registers δ) (regAddr : BitVec 32) (m : Image) (count : Nat)
    (s : δ) :
    storeEach regs .dword (words m count) regAddr s =
      regs.stores (dwordWrites regAddr m count) s := by
  rw [storeEach_dword, length_words, words, List.zip_map']
  rfl

section Dwords

variable {regAddress : BitVec 32} {size : Nat} (hlt : size < 2 ^ 32)

theorem regShape_dword (hmul : size % 4 = 0) : regShape size = (size / 4, .dword) := by
  unfold regShape
  rw [if_pos hmul]

/-- Below the limit the values a write stores are the user's. -/
theorem words_copied (hle : size ≤ copyLimit) (user fresh : Image) :
    words (copied size user fresh) (size / 4) = words user (size / 4) := by
  exact words_congr fun o ho => copied_of_lt hle (by omega) user fresh

theorem storesDwords_of_le (hmul : size % 4 = 0) (hle : size ≤ copyLimit) (regs : Registers δ)
    (kernel : AccessKernel) (user : Image) (s : δ) :
    StoresDwords regs kernel (setRequest regAddress size hlt) user s := by
  rcases access_set regs regAddress hlt user s kernel with hfail | ⟨hok, hstored⟩
  · exact .inl hfail
  · refine .inr ⟨hok, ?_⟩
    rw [hstored]
    simp only [setRequest, regShape_dword hmul, words_copied hle, storeEach_words]

theorem deliversDwords_of_le (hpos : 0 < size) (hmul : size % 4 = 0) (hle : size ≤ copyLimit)
    (regs : Registers δ) {kernel : AccessKernel} (hreq : kernel.kmalloc xpRegRwLen = true)
    (htmp : kernel.kmalloc size = true) (user : Image) (s : δ) :
    DeliversDwords regs kernel (getRequest regAddress size hlt) user s := by
  have hwhole : size / 4 * 4 = size := Nat.div_mul_cancel (Nat.dvd_of_mod_eq_zero hmul)
  have hbytes : u32Mul (size / 4) 4 = size := by
    rw [u32Mul, hwhole, Nat.mod_eq_of_lt hlt]
  constructor
  · intro hcopies
    have hcount : 0 < (regShape size).1 := by
      rw [regShape_dword hmul]
      omega
    have halloc : kernel.Allocates size := by
      refine ⟨hreq, ?_⟩
      rw [regShape_dword hmul]
      simpa only [hwhole] using htmp
    have hok := access_get_ok regs regAddress hlt user s hcount halloc hcopies
    refine ⟨hok, fun k (hk : k < size / 4) => ?_⟩
    have hout := access_get regs regAddress hlt user s hok
    simp only [regShape_dword hmul, hbytes] at hout
    simp only [getRequest] at hout ⊢
    rw [hout, ← loadEach_dword]
    have hlen : k < (loadEach regs .dword (size / 4) regAddress s).1.length := by
      rw [loadEach_length]
      exact hk
    rw [List.getElem?_eq_getElem hlen, ← wordFrom_putWords kernel.fresh _ hlen]
    have hword := wordFrom_congr fun j hj => (copied_of_lt hle
      (show 4 * k + j < size by omega)
      (putWords kernel.fresh (loadEach regs .dword (size / 4) regAddress s).1) user)
    exact congrArg some hword.symm
  · intro o ho
    refine access_get_beyond regs regAddress hlt user s kernel ?_
    rw [regShape_dword hmul, hbytes]
    exact ho

/-- The recorder tells two writes apart by any of their values. -/
theorem recorder_dwordWrites {m m' : Image} {count : Nat}
    (h : recorder.stores (dwordWrites regAddress m count) [] =
      recorder.stores (dwordWrites regAddress m' count) []) {k : Nat} (hk : k < count) :
    wordFrom m (4 * k) = wordFrom m' (4 * k) := by
  rw [recorder_stores, recorder_stores] at h
  have hk' := congrArg (fun l : List (Nat × BitVec 32) => l[k]?) h
  simp [dwordWrites, hk] at hk'
  exact hk'

/-- The byte at the limit is never copied. -/
theorem copied_copyLimit (n : Nat) (src dst : Image) : copied n src dst copyLimit = dst copyLimit := by
  unfold copied
  rw [if_neg (by omega)]

/-- Past the limit a write stores what the memory of its buffer held. -/
theorem not_storesDwords (hmul : size % 4 = 0) (hgt : copyLimit < size) :
    ¬ StoresDwords recorder (plainKernel fun _ => 1) (setRequest regAddress size hlt)
      (fun _ => 0) [] := by
  have hlimit : copyLimit = 4 * 65536 := rfl
  have hcount : 65536 < size / 4 := by omega
  intro hstores
  have hpos : 0 < (regShape size).1 := by
    rw [regShape_dword hmul]
    omega
  have hok : (xpDevRegAccess recorder (plainKernel fun _ => 1) (setRequest regAddress size hlt)
      (fun _ => 0) []).1 = 0 :=
    access_set_ok recorder regAddress hlt _ [] hpos ⟨rfl, rfl⟩ fun _ => rfl
  rcases access_set recorder regAddress hlt (fun _ => 0) [] (plainKernel fun _ => 1) with
    ⟨hfail, -⟩ | ⟨-, hstored⟩
  · exact hfail hok
  rcases hstores with ⟨hfail, -⟩ | ⟨-, hstores⟩
  · exact hfail hok
  rw [hstored] at hstores
  simp only [setRequest, regShape_dword hmul, storeEach_words] at hstores
  have hword := recorder_dwordWrites hstores hcount
  have hbyte := congrArg (fun v => byteOf v 0) hword
  simp only [byteOf_wordFrom _ _ (show 0 < 4 by decide), Nat.add_zero] at hbyte
  rw [← hlimit, copied_copyLimit] at hbyte
  exact absurd hbyte (by decide)

theorem recorder_loads (addrs : List (BitVec 32)) (s : List (Nat × BitVec 32)) :
    recorder.loads addrs s = (List.replicate addrs.length 0#32, s) := by
  induction addrs generalizing s with
  | nil => rfl
  | cons a as ih =>
      have hload : recorder.loadU32 .dword a.toNat s = (0#32, s) := rfl
      simp [Registers.loads, hload, ih, List.replicate_succ]

/-- Past the limit a read leaves the user's bytes as they were. -/
theorem not_deliversDwords (hmul : size % 4 = 0) (hgt : copyLimit < size) :
    ¬ DeliversDwords recorder (plainKernel fun _ => 0) (getRequest regAddress size hlt)
      (fun _ => 1) [] := by
  have hlimit : copyLimit = 4 * 65536 := rfl
  have hcount : 65536 < size / 4 := by omega
  rintro ⟨hdelivers, -⟩
  obtain ⟨hok, hwords⟩ := hdelivers fun _ => rfl
  have hword := hwords 65536 hcount
  rw [recorder_loads, access_get recorder regAddress hlt _ _ hok] at hword
  simp [getRequest, hcount] at hword
  have hbyte := congrArg (fun v => byteOf v 0) hword
  simp only [byteOf_wordFrom _ _ (show 0 < 4 by decide), Nat.add_zero] at hbyte
  have hat : (262144 : Nat) = copyLimit := rfl
  rw [hat, copied_copyLimit] at hbyte
  exact absurd hbyte (by decide)

/-- **Register transfers of dwords.** Writes and reads of dwords move what they
are for, whatever the device, the user buffer and the kernel's answers, exactly
up to 262144 bytes. -/
theorem regAccess_dwords_iff (regAddress : BitVec 32) (hpos : 0 < size) (hmul : size % 4 = 0) :
    ((∀ (δ : Type) (regs : Registers δ) (kernel : AccessKernel) (user : Image) (s : δ),
        kernel.kmalloc size = true →
          StoresDwords regs kernel (setRequest regAddress size hlt) user s) ↔ size ≤ 262144) ∧
    ((∀ (δ : Type) (regs : Registers δ) (kernel : AccessKernel) (user : Image) (s : δ),
        kernel.kmalloc xpRegRwLen = true → kernel.kmalloc size = true →
          DeliversDwords regs kernel (getRequest regAddress size hlt) user s) ↔
      size ≤ 262144) := by
  constructor
  · constructor
    · intro h
      by_contra hgt
      exact not_storesDwords hlt hmul (Nat.lt_of_not_le hgt) (h _ _ _ _ _ rfl)
    · intro hle δ regs kernel user s _
      exact storesDwords_of_le hlt hmul hle regs kernel user s
  · constructor
    · intro h
      by_contra hgt
      exact not_deliversDwords hlt hmul (Nat.lt_of_not_le hgt) (h _ _ _ _ _ rfl rfl)
    · intro hle δ regs kernel user s hreq htmp
      exact deliversDwords_of_le hlt hpos hmul hle regs hreq htmp user s

end Dwords

/-- A write of one dword more than the limit: the last one stored is not the user's. -/
theorem reg_write_past_limit :
    ¬ StoresDwords recorder (plainKernel fun _ => 1) (setRequest 0 262148 (by decide))
      (fun _ => 0) [] :=
  not_storesDwords (by decide) (by decide) (by decide)

/-- Writes and reads of two dwords. -/
theorem regAccess_dwords_iff_eight :
    (∀ (δ : Type) (regs : Registers δ) (kernel : AccessKernel) (user : Image) (s : δ),
      kernel.kmalloc 8 = true →
        StoresDwords regs kernel (setRequest 0 8 (by decide)) user s) ∧
    ∀ (δ : Type) (regs : Registers δ) (kernel : AccessKernel) (user : Image) (s : δ),
      kernel.kmalloc xpRegRwLen = true → kernel.kmalloc 8 = true →
        DeliversDwords regs kernel (getRequest 0 8 (by decide)) user s := by
  obtain ⟨stores, delivers⟩ :=
    regAccess_dwords_iff (show 8 < 2 ^ 32 by decide) 0 (by decide) (by decide)
  exact ⟨stores.mpr (by decide), delivers.mpr (by decide)⟩

/-! ### The other sizes -/

theorem storeEach_concat (regs : Registers δ) (w : RegSize) (vs : List (BitVec 32)) (v : BitVec 32)
    (regAddr : BitVec 32) (s : δ) :
    storeEach regs w (vs ++ [v]) regAddr s =
      storeOne regs w (regAddr + BitVec.ofNat 32 (vs.length * w.bytes)).toNat v
        (storeEach regs w vs regAddr s) := by
  induction vs generalizing regAddr s with
  | nil => simp [storeEach]
  | cons u vs ih =>
      have haddr : regAddr + BitVec.ofNat 32 w.bytes + BitVec.ofNat 32 (vs.length * w.bytes) =
          regAddr + BitVec.ofNat 32 ((vs.length + 1) * w.bytes) := by
        rw [BitVec.add_assoc, ← BitVec.ofNat_add, Nat.succ_mul, Nat.add_comm w.bytes]
      simp only [List.cons_append, storeEach, ih, haddr, List.length_cons]

theorem words_succ (m : Image) (count : Nat) :
    words m (count + 1) = words m count ++ [wordFrom m (4 * count)] := by
  simp [words, List.range_succ]

/-- A read and a write back leave registers that behave like memory as they were. -/
def RoundTrips (regAddress : BitVec 32) (size : Nat) (hlt : size < 2 ^ 32) : Prop :=
  ∀ (rd wr : AccessKernel) (user m : Image),
    (xpDevRegAccess memory rd (getRequest regAddress size hlt) user m).1 = 0 →
      (xpDevRegAccess memory wr (setRequest regAddress size hlt)
        (xpDevRegAccess memory rd (getRequest regAddress size hlt) user m).2.1
        (xpDevRegAccess memory rd (getRequest regAddress size hlt) user m).2.2).2.2 = m

/-- What a write stores does not depend on what its buffer held before. -/
def FreshFree (regAddress : BitVec 32) (size : Nat) (hlt : size < 2 ^ 32) : Prop :=
  ∀ (kernel kernel' : AccessKernel) (user m : Image),
    (xpDevRegAccess memory kernel (setRequest regAddress size hlt) user m).1 = 0 →
      (xpDevRegAccess memory kernel' (setRequest regAddress size hlt) user m).1 = 0 →
        (xpDevRegAccess memory kernel (setRequest regAddress size hlt) user m).2.2 =
          (xpDevRegAccess memory kernel' (setRequest regAddress size hlt) user m).2.2

section Bytes

variable {regAddress : BitVec 32} {size : Nat} (hlt : size < 2 ^ 32)

/-- A write of one or two bytes stores the user's. -/
theorem set_small (hsize : size = 1 ∨ size = 2) {kernel : AccessKernel} {user m : Image}
    (hok : (xpDevRegAccess memory kernel (setRequest regAddress size hlt) user m).1 = 0) :
    (xpDevRegAccess memory kernel (setRequest regAddress size hlt) user m).2.2 =
      fun p => if regAddress.toNat ≤ p ∧ p < regAddress.toNat + size
        then user (p - regAddress.toNat) else m p := by
  rcases access_set memory regAddress hlt user m kernel with ⟨hfail, -⟩ | ⟨-, hstored⟩
  · exact absurd hok hfail
  rw [hstored]
  -- both are one element, whose low bytes are the copied ones
  have hbyte (j : Nat) (hj : j < size) :
      byteOf (wordFrom (copied size user kernel.fresh) 0) j = user j := by
    rw [byteOf_wordFrom _ _ (by omega), Nat.zero_add,
      copied_of_lt (by simp [copyLimit]; omega) hj]
  rcases hsize with rfl | rfl
  · refine (storeOne_memory_byte _ _ _).trans ?_
    funext p
    by_cases hp : p = regAddress.toNat
    · subst hp
      simp [hbyte 0 (by decide)]
    · rw [Function.update_of_ne hp, if_neg (by omega)]
  · refine (storeOne_memory_word _ _ _).trans ?_
    funext p
    by_cases hp : regAddress.toNat ≤ p ∧ p < regAddress.toNat + 2
    · have hlow : p - regAddress.toNat < 2 := by omega
      rw [if_pos hp, if_pos hp]
      exact hbyte _ hlow
    · rw [if_neg hp, if_neg hp]

/-- A read of one or two bytes delivers the registers'. -/
theorem get_small (hsize : size = 1 ∨ size = 2) {kernel : AccessKernel} {user m : Image}
    (hok : (xpDevRegAccess memory kernel (getRequest regAddress size hlt) user m).1 = 0) :
    (xpDevRegAccess memory kernel (getRequest regAddress size hlt) user m).2.2 = m ∧
      ∀ j < size, (xpDevRegAccess memory kernel (getRequest regAddress size hlt) user m).2.1 j =
        m (regAddress.toNat + j) := by
  rw [access_get memory regAddress hlt user m hok]
  have hwhole : size < u32Mul (regShape size).1 4 ∧ u32Mul (regShape size).1 4 ≤ copyLimit := by
    rcases hsize with rfl | rfl <;> decide
  have hcopied (j : Nat) (hj : j < size) (vs : List (BitVec 32)) :
      copied (u32Mul (regShape size).1 4) (putWords kernel.fresh vs) user j =
        putWords kernel.fresh vs j :=
    copied_of_lt hwhole.2 (hj.trans hwhole.1) _ _
  rcases hsize with rfl | rfl
  · refine ⟨rfl, fun j hj => (hcopied j hj _).trans ?_⟩
    obtain rfl : j = 0 := by omega
    have hword := putWords_of_lt kernel.fresh
      (loadEach memory (regShape 1).2 (regShape 1).1 regAddress m).1 (i := 0) (j := 0)
      (by simp [regShape]) (by decide)
    exact hword.trans (byteOf_loadU32_byte regAddress.toNat m)
  · refine ⟨rfl, fun j hj => (hcopied j hj _).trans ?_⟩
    have hword := putWords_of_lt kernel.fresh
      (loadEach memory (regShape 2).2 (regShape 2).1 regAddress m).1 (i := 0) (j := j)
      (by simp [regShape]) (by omega)
    rw [Nat.mul_zero, Nat.zero_add] at hword
    exact hword.trans (byteOf_loadU32_word regAddress.toNat m hj)

/-- From three bytes on, a write stores a byte that no user byte was copied to. -/
theorem set_last {n : Nat} (hlt : n + 1 < 2 ^ 32) (hpos : 1 ≤ n)
    (hshape : regShape (n + 1) = (n + 1, .byte)) {kernel : AccessKernel} {user m : Image}
    (hok : (xpDevRegAccess memory kernel (setRequest regAddress (n + 1) hlt) user m).1 = 0) :
    (xpDevRegAccess memory kernel (setRequest regAddress (n + 1) hlt) user m).2.2
      (regAddress + BitVec.ofNat 32 n).toNat = kernel.fresh (4 * n) := by
  rcases access_set memory regAddress hlt user m kernel with ⟨hfail, -⟩ | ⟨-, hstored⟩
  · exact absurd hok hfail
  have huncopied : copied (n + 1) user kernel.fresh (4 * n) = kernel.fresh (4 * n) := by
    unfold copied
    rw [if_neg (by omega)]
  rw [hstored]
  simp only [hshape, words_succ, storeEach_concat, length_words, RegSize.bytes, Nat.mul_one]
  rw [storeOne_memory_byte, Function.update_self, byteOf_wordFrom _ _ (by decide)]
  exact huncopied

theorem regShape_bytewise (hmul : ¬ size % 4 = 0) (hsize : ¬ (size = 1 ∨ size = 2)) :
    ∃ n, size = n + 1 ∧ 1 ≤ n ∧ regShape (n + 1) = (n + 1, .byte) := by
  refine ⟨size - 1, by omega, by omega, ?_⟩
  unfold regShape
  rw [if_neg (by omega), if_neg (by omega)]

theorem regShape_count_pos {n : Nat} (hshape : regShape (n + 1) = (n + 1, .byte)) :
    0 < (regShape (n + 1)).1 := by
  rw [hshape]
  exact Nat.succ_pos n

/-- The write back of a buffer of zeros stores what its fresh memory held. -/
theorem set_fresh {n : Nat} (hlt : n + 1 < 2 ^ 32) (hpos : 1 ≤ n)
    (hshape : regShape (n + 1) = (n + 1, .byte)) (fresh user m : Image) :
    (xpDevRegAccess memory (plainKernel fresh) (setRequest regAddress (n + 1) hlt) user m).2.2
      (regAddress + BitVec.ofNat 32 n).toNat = fresh (4 * n) := by
  refine set_last hlt hpos hshape ?_
  exact access_set_ok memory regAddress hlt user m (regShape_count_pos hshape) ⟨rfl, rfl⟩
    fun _ => rfl

/-- **Reading registers and writing them back.** For a size that is not a multiple
of four, it leaves registers that behave like memory as they were, and what a
write stores comes from the user and the registers alone, exactly for one and two
bytes. -/
theorem regAccess_roundtrip_iff (regAddress : BitVec 32) (hmul : ¬ size % 4 = 0) :
    (RoundTrips regAddress size hlt ↔ size = 1 ∨ size = 2) ∧
      (FreshFree regAddress size hlt ↔ size = 1 ∨ size = 2) := by
  constructor
  · constructor
    · intro h
      by_contra hsize
      obtain ⟨n, rfl, hpos, hshape⟩ := regShape_bytewise hmul hsize
      have hcount := regShape_count_pos hshape
      have hread : (xpDevRegAccess memory (plainKernel fun _ => 0)
          (getRequest regAddress (n + 1) hlt) (fun _ => 0) fun _ => 0).1 = 0 :=
        access_get_ok memory regAddress hlt _ _ hcount ⟨rfl, rfl⟩ fun _ => rfl
      have hsame := congrFun (h _ (plainKernel fun _ => 1) _ _ hread)
        (regAddress + BitVec.ofNat 32 n).toNat
      rw [set_fresh hlt hpos hshape] at hsame
      exact absurd hsame (by decide)
    · intro hsize rd wr user m hread
      obtain ⟨hregs, hbytes⟩ := get_small hlt hsize hread
      rcases access_set memory regAddress hlt
        (xpDevRegAccess memory rd (getRequest regAddress size hlt) user m).2.1
        (xpDevRegAccess memory rd (getRequest regAddress size hlt) user m).2.2 wr with
        ⟨-, hkept⟩ | ⟨hok, -⟩
      · rw [hkept, hregs]
      · rw [set_small hlt hsize hok, hregs]
        funext p
        by_cases hp : regAddress.toNat ≤ p ∧ p < regAddress.toNat + size
        · rw [if_pos hp, hbytes _ (by omega), Nat.add_sub_of_le hp.1]
        · rw [if_neg hp]
  · constructor
    · intro h
      by_contra hsize
      obtain ⟨n, rfl, hpos, hshape⟩ := regShape_bytewise hmul hsize
      have hcount := regShape_count_pos hshape
      have hok (fresh : Image) : (xpDevRegAccess memory (plainKernel fresh)
          (setRequest regAddress (n + 1) hlt) (fun _ => 0) fun _ => 0).1 = 0 :=
        access_set_ok memory regAddress hlt _ _ hcount ⟨rfl, rfl⟩ fun _ => rfl
      have hsame := congrFun (h _ _ _ _ (hok fun _ => 0) (hok fun _ => 1))
        (regAddress + BitVec.ofNat 32 n).toNat
      rw [set_fresh hlt hpos hshape, set_fresh hlt hpos hshape] at hsame
      exact absurd hsame (by decide)
    · intro hsize kernel kernel' user m hok hok'
      rw [set_small hlt hsize hok, set_small hlt hsize hok']

/-- Three bytes read and written back: the third register byte is what fresh
memory held. -/
theorem reg_roundtrip_three : ¬ RoundTrips 0 3 (by decide) := by
  intro h
  have hread : (xpDevRegAccess memory (plainKernel fun _ => 0) (getRequest 0 3 (by decide))
      (fun _ => 0) fun _ => 0).1 = 0 :=
    access_get_ok memory 0 _ _ _ (by decide) ⟨rfl, rfl⟩ fun _ => rfl
  have hsame := congrFun (h _ (plainKernel fun _ => 1) _ _ hread) (0#32 + BitVec.ofNat 32 2).toNat
  have hstored (user m : Image) : (xpDevRegAccess memory (plainKernel fun _ => 1)
      (setRequest 0 3 (by decide)) user m).2.2 (0#32 + BitVec.ofNat 32 2).toNat = 1 :=
    set_fresh (n := 2) (by decide) (by decide) rfl _ user m
  exact absurd ((hstored _ _).symm.trans hsame) (by decide)

theorem regAccess_roundtrip_iff_five : ¬ RoundTrips 0 5 (by decide) := fun h =>
  absurd ((regAccess_roundtrip_iff (by decide) 0 (by decide)).1.mp h) (by decide)

end Bytes

end XpNet.Pci

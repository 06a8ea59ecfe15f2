/-
The DMA node of `xp_pcie_slave.c`: the list of the blocks that user space has
asked for, the requests that change it, and `mmap`.

An allocation puts its entry on the list before it tells the user, and takes the
next index only after. When the copy to the user fails, the entry stays with the
index that the next allocation gets as well. The offset told to the user is the
index times the page size in a `u32`, and so the index itself only below 2^20.

These are the only two ways to break the list: in every history the offsets on
it are distinct and each block told to the user is found at its offset, exactly
when no allocation meets either (`dma_offsets_iff`).
-/

import XpNet.Histories
import XpNet.Common
import XpNet.Pci.Regs
import Mathlib.Algebra.Order.BigOperators.Group.List
import Mathlib.Algebra.Order.Ring.Nat

namespace XpNet.Pci

open XpNet.Intf (enomem einval)

/-! ### The node -/

/-- `xp_mem_list_t`, an entry of the list. -/
structure XpMemList where
  addr : Nat
  paddr : Nat
  len : Nat
  offset : Nat
  deriving DecidableEq

/-- `xp_mem_user_t`. -/
structure XpMemUser where
  addr : Nat
  paddr : Nat
  len : Nat
  offset : Nat
  deriving DecidableEq

/-- A block of `dma_alloc_coherent`. -/
structure DmaBlock where
  addr : Nat
  paddr : Nat
  len : Nat
  deriving DecidableEq

/-- A call to the DMA allocator. -/
inductive DmaCall where
  | alloc (block : DmaBlock)
  | free (len addr paddr : Nat)
  deriving DecidableEq

/-- The blocks that the calls leave allocated. -/
def liveBlocks (calls : List DmaCall) : List DmaBlock :=
  calls.foldl (fun live call => match call with
    | .alloc block => block :: live
    | .free _ addr paddr => live.filter fun b => ¬ (b.addr = addr ∧ b.paddr = paddr)) []

/-- The DMA node: `xp_mem_list_head`, `mem_index`, the calls to the DMA allocator
so far, and what successful allocations have told the user of blocks that are
still on the list. -/
structure DmaNode where
  xpMemListHead : List XpMemList
  memIndex : Nat
  dmaCalls : List DmaCall
  told : List XpMemUser

/-- The node as `xp_module_init` leaves it. -/
def emptyNode : DmaNode := ⟨[], 0, [], []⟩

/-- `PAGE_SIZE`. -/
def pageSize : Nat := 4096

/-- `sizeof(xp_mem_user_t)`; the structure is packed. -/
def xpMemUserLen : Nat := 24

/-- What the kernel answers to a request: the memory for `user_mem`, the bytes a
copy from or to the user leaves, a block that none of the live ones shares an
address with, and the memory for the entry. -/
structure DmaKernel where
  kmallocUser : Bool
  fromUser : Nat
  dmaAlloc : (live : List DmaBlock) → (area : Nat) →
    Option { p : Nat × Nat // ∀ b ∈ live, b.addr ≠ p.1 ∧ b.paddr ≠ p.2 }
  kmallocEntry : Bool
  toUser : Nat

/-! ### Requests -/

/-- `area`: the length rounded up to whole pages. -/
def dmaArea (len : Nat) : Nat := (len + pageSize - 1) / pageSize * pageSize

/-- The entry of a new block; its `len` is a `u32`. -/
def newEntry (p : Nat × Nat) (len memIndex : Nat) : XpMemList :=
  ⟨p.1, p.2, dmaArea len % 2 ^ 32, memIndex⟩

/-- What the user is told of a new block; `offset` is a `u32` product. -/
def newUserMem (p : Nat × Nat) (len memIndex : Nat) : XpMemUser :=
  ⟨p.1, p.2, dmaArea len % 2 ^ 32, u32Mul memIndex pageSize⟩

/-- `xp_dma_mem_access(argp, priv)`, for a request of `len` bytes. -/
def xpDmaMemAccess (kernel : DmaKernel) (len : Nat) (node : DmaNode) : Int × DmaNode :=
  if !kernel.kmallocUser then (-enomem, node)
  else if min kernel.fromUser xpMemUserLen ≠ 0 then (min kernel.fromUser xpMemUserLen, node)
  else
    match kernel.dmaAlloc (liveBlocks node.dmaCalls) (dmaArea len) with
    | none => (-enomem, node)
    | some p =>
        let node := { node with
          dmaCalls := node.dmaCalls ++ [.alloc ⟨p.1.1, p.1.2, dmaArea len⟩] }
        if !kernel.kmallocEntry then (-enomem, node)
        else
          let node := { node with
            xpMemListHead := node.xpMemListHead ++ [newEntry p.1 len node.memIndex] }
          if min kernel.toUser xpMemUserLen ≠ 0 then (min kernel.toUser xpMemUserLen, node)
          else
            (0, { node with
              memIndex := u32Add node.memIndex 1
              told := node.told ++ [newUserMem p.1 len node.memIndex] })

/-- `xp_dma_mem_free(argp, priv)`, for the physical address the user names. -/
def xpDmaMemFree (kernel : DmaKernel) (paddr : Nat) (node : DmaNode) : Int × DmaNode :=
  if !kernel.kmallocUser then (-enomem, node)
  else if min kernel.fromUser xpMemUserLen ≠ 0 then (min kernel.fromUser xpMemUserLen, node)
  else
    (0, { node with
      xpMemListHead := node.xpMemListHead.filter fun entry => entry.paddr ≠ paddr
      dmaCalls := node.dmaCalls ++ (node.xpMemListHead.filter fun entry => entry.paddr = paddr).map
        fun entry => .free entry.len entry.addr paddr
      told := node.told.filter fun userMem => userMem.paddr ≠ paddr })

/-- `xp_dma_mem_cleanup(priv)`. -/
def xpDmaMemCleanup (node : DmaNode) : Int × DmaNode :=
  (0, {
    xpMemListHead := []
    memIndex := 0
    dmaCalls := node.dmaCalls ++
      node.xpMemListHead.map fun entry => .free entry.len entry.addr entry.paddr
    told := [] })

/-- The requests of `xp_dma_ioctl` that change the node, each with what the user
asks and the kernel answers. -/
inductive DmaRequest where
  | phyMemAlloc (kernel : DmaKernel) (len : Nat)
  | phyMemFree (kernel : DmaKernel) (paddr : Nat)
  | dmaCleanUp

/-- The switch of `xp_dma_ioctl`, once the DMA mask is set. -/
def xpDmaIoctl (node : DmaNode) : DmaRequest → Int × DmaNode
  | .phyMemAlloc kernel len => xpDmaMemAccess kernel len node
  | .phyMemFree kernel paddr => xpDmaMemFree kernel paddr node
  | .dmaCleanUp => xpDmaMemCleanup node

/-- The node after a history of requests. -/
def dmaHistory (node : DmaNode) (reqs : List DmaRequest) : DmaNode :=
  history (fun node req => (xpDmaIoctl node req).2) node reqs

/-! ### `mmap` -/

/-- The entry that `xp_dma_mmap` finds for a page offset within the index. -/
def mmapEntry (node : DmaNode) (vmPgoff : Nat) : Option XpMemList :=
  if vmPgoff ≥ node.memIndex then none
  else node.xpMemListHead.find? fun entry => entry.offset = vmPgoff

/-- `xp_dma_mmap(filp, vma)`: the kernel address whose pages are mapped, or the
error. `mem_len` is an `int`; without an entry it is zero and the address `NULL`. -/
def xpDmaMmap (node : DmaNode) (vmPgoff : Nat) (length : Int) : Except Int Nat :=
  if vmPgoff ≥ node.memIndex then .error (-eio)
  else
    let found := mmapEntry node vmPgoff
    let memLen := found.elim 0 fun entry => asInt entry.len
    let usrAddr := found.elim 0 fun entry => entry.addr
    if length > memLen then .error (-enomem) else .ok usrAddr

/-! ### Coherence -/

/-- The offsets on the list are distinct, and each block that the user was told of
and that is still on the list is what `mmap` finds at the page offset told. -/
structure Coherent (node : DmaNode) : Prop where
  offsets : (node.xpMemListHead.map XpMemList.offset).Nodup
  selects : ∀ userMem ∈ node.told, ∃ entry,
    mmapEntry node (userMem.offset / pageSize) = some entry ∧
      entry.addr = userMem.addr ∧ entry.paddr = userMem.paddr ∧ entry.len = userMem.len

/-- The allocation gets as far as putting its entry on the list. -/
def Inserts (kernel : DmaKernel) (len : Nat) (node : DmaNode) : Prop :=
  kernel.kmallocUser = true ∧ kernel.fromUser = 0 ∧
    (kernel.dmaAlloc (liveBlocks node.dmaCalls) (dmaArea len)).isSome ∧ kernel.kmallocEntry = true

/-- The request is no allocation that adds an entry while the entry of one that
could not tell the user is still listed under the same index, and none that
succeeds with an index of 2^20 or more. -/
def KeepsOffsets (node : DmaNode) : DmaRequest → Prop
  | .phyMemAlloc kernel len => Inserts kernel len node →
      (∀ entry ∈ node.xpMemListHead, entry.offset ≠ node.memIndex) ∧
        (kernel.toUser = 0 → node.memIndex < 2 ^ 20)
  | _ => True

/-! ### What a request can do -/

section Requests

variable {node : DmaNode} {kernel : DmaKernel} {len : Nat}

/-- The node once an allocation has put its entry on the list. -/
def inserted (p : Nat × Nat) (len : Nat) (node : DmaNode) : DmaNode :=
  { node with
    dmaCalls := node.dmaCalls ++ [.alloc ⟨p.1, p.2, dmaArea len⟩]
    xpMemListHead := node.xpMemListHead ++ [newEntry p len node.memIndex] }

/-- The node once it has told the user and taken the next index. -/
def granted (p : Nat × Nat) (len : Nat) (node : DmaNode) : DmaNode :=
  { inserted p len node with
    memIndex := u32Add node.memIndex 1
    told := node.told ++ [newUserMem p len node.memIndex] }

theorem xpMemUserLen_ne_zero : xpMemUserLen ≠ 0 := by decide

/-- An allocation leaves the list as it was, with perhaps a block that is lost, or
it inserts an entry for a block of its own, and tells the user when it can. -/
theorem xpDmaMemAccess_cases (kernel : DmaKernel) (len : Nat) (node : DmaNode) :
    (¬ Inserts kernel len node ∧ ∃ lost : List DmaBlock,
      (xpDmaMemAccess kernel len node).2 =
        { node with dmaCalls := node.dmaCalls ++ lost.map .alloc }) ∨
    (Inserts kernel len node ∧ ∃ p : Nat × Nat,
      (∀ b ∈ liveBlocks node.dmaCalls, b.addr ≠ p.1 ∧ b.paddr ≠ p.2) ∧
      (xpDmaMemAccess kernel len node).2 =
        if kernel.toUser = 0 then granted p len node else inserted p len node) := by
  unfold xpDmaMemAccess Inserts
  by_cases hmem : kernel.kmallocUser = true
  · by_cases hfrom : kernel.fromUser = 0
    · cases halloc : kernel.dmaAlloc (liveBlocks node.dmaCalls) (dmaArea len) with
      | none => exact .inl ⟨by simp, [], by simp [hmem, hfrom]⟩
      | some p =>
          by_cases hentry : kernel.kmallocEntry = true
          · refine .inr ⟨⟨hmem, hfrom, rfl, hentry⟩, p.1, p.2, ?_⟩
            by_cases hto : kernel.toUser = 0
            · simp [hmem, hfrom, hentry, hto, granted, inserted]
            · simp [hmem, hfrom, hentry, hto, inserted, xpMemUserLen_ne_zero]
          · refine .inl ⟨by simp [hentry], [⟨p.1.1, p.1.2, dmaArea len⟩], ?_⟩
            simp [hmem, hfrom, hentry]
    · refine .inl ⟨by simp [hfrom], [], ?_⟩
      simp [hmem, hfrom, xpMemUserLen_ne_zero]
  · exact .inl ⟨by simp [hmem], [], by simp [hmem]⟩

theorem liveBlocks_alloc (calls : List DmaCall) (b : DmaBlock) :
    liveBlocks (calls ++ [.alloc b]) = b :: liveBlocks calls := by
  simp [liveBlocks]

theorem liveBlocks_free (calls : List DmaCall) (len addr paddr : Nat) :
    liveBlocks (calls ++ [.free len addr paddr]) =
      (liveBlocks calls).filter fun b => ¬ (b.addr = addr ∧ b.paddr = paddr) := by
  simp [liveBlocks]

theorem liveBlocks_allocs {calls : List DmaCall} {b : DmaBlock} (hb : b ∈ liveBlocks calls)
    (lost : List DmaBlock) : b ∈ liveBlocks (calls ++ lost.map .alloc) := by
  induction lost using List.reverseRecOn with
  | nil => simpa using hb
  | append_singleton done last ih =>
      rw [List.map_append, ← List.append_assoc, List.map_singleton, liveBlocks_alloc]
      exact List.mem_cons_of_mem _ ih

/-- Freeing entries keeps the blocks of other physical addresses. -/
theorem liveBlocks_frees {calls : List DmaCall} {b : DmaBlock} (hb : b ∈ liveBlocks calls)
    {paddr : Nat} (hne : b.paddr ≠ paddr) (entries : List XpMemList) :
    b ∈ liveBlocks (calls ++ entries.map fun entry => .free entry.len entry.addr paddr) := by
  induction entries using List.reverseRecOn with
  | nil => simpa using hb
  | append_singleton done last ih =>
      rw [List.map_append, ← List.append_assoc, List.map_singleton, liveBlocks_free]
      exact List.mem_filter.mpr ⟨ih, by simp [hne]⟩

/-! ### The invariant -/

/-- What holds of a node as long as its requests keep the offsets apart: no offset
is beyond the index, every entry's block is allocated, and what the user was told
of a block is its entry, below the index. -/
structure Listed (node : DmaNode) : Prop where
  offsets : (node.xpMemListHead.map XpMemList.offset).Nodup
  offset_le : ∀ entry ∈ node.xpMemListHead, entry.offset ≤ node.memIndex
  index_le : node.memIndex ≤ 2 ^ 20
  live : ∀ entry ∈ node.xpMemListHead, ∃ b ∈ liveBlocks node.dmaCalls,
    b.addr = entry.addr ∧ b.paddr = entry.paddr
  told : ∀ userMem ∈ node.told, ∃ entry ∈ node.xpMemListHead, entry.offset < node.memIndex ∧
    userMem = ⟨entry.addr, entry.paddr, entry.len, entry.offset * pageSize⟩

theorem listed_emptyNode : Listed emptyNode where
  offsets := List.nodup_nil
  offset_le := by simp [emptyNode]
  index_le := Nat.zero_le _
  live := by simp [emptyNode]
  told := by simp [emptyNode]

/-- With distinct offsets, searching for one finds its entry. -/
theorem find_offset {entries : List XpMemList} (hnodup : (entries.map XpMemList.offset).Nodup)
    {entry : XpMemList} (hmem : entry ∈ entries) :
    (entries.find? fun e => e.offset = entry.offset) = some entry := by
  induction entries with
  | nil => cases hmem
  | cons first rest ih =>
      obtain ⟨hfirst, hrest⟩ := List.nodup_cons.mp (List.map_cons ▸ hnodup)
      rcases List.mem_cons.mp hmem with rfl | hin
      · simp
      · have hne : first.offset ≠ entry.offset := fun heq =>
          hfirst (heq ▸ List.mem_map_of_mem hin)
        rw [List.find?_cons_of_neg (by simpa using hne)]
        exact ih hrest hin

theorem Listed.coherent (listed : Listed node) : Coherent node where
  offsets := listed.offsets
  selects := by
    intro userMem htold
    obtain ⟨entry, hmem, hlt, rfl⟩ := listed.told userMem htold
    refine ⟨entry, ?_, rfl, rfl, rfl⟩
    have hpage : entry.offset * pageSize / pageSize = entry.offset :=
      Nat.mul_div_cancel _ (by decide)
    unfold mmapEntry
    rw [hpage, if_neg (Nat.not_le.mpr hlt)]
    exact find_offset listed.offsets hmem

theorem Listed.lost (listed : Listed node) (lost : List DmaBlock) :
    Listed { node with dmaCalls := node.dmaCalls ++ lost.map .alloc } where
  offsets := listed.offsets
  offset_le := listed.offset_le
  index_le := listed.index_le
  live := by
    intro entry hmem
    obtain ⟨b, hb, haddr⟩ := listed.live entry hmem
    exact ⟨b, liveBlocks_allocs hb lost, haddr⟩
  told := listed.told

theorem mem_inserted {p : Nat × Nat} {entry : XpMemList} :
    entry ∈ (inserted p len node).xpMemListHead ↔
      entry ∈ node.xpMemListHead ∨ entry = newEntry p len node.memIndex := by
  simp [inserted]

/-- An entry under an index that is not on the list. -/
theorem Listed.inserted (listed : Listed node) (p : Nat × Nat) (len : Nat)
    (hnew : ∀ entry ∈ node.xpMemListHead, entry.offset ≠ node.memIndex) :
    Listed (inserted p len node) where
  offsets := by
    have hmap : (Pci.inserted p len node).xpMemListHead.map XpMemList.offset =
        node.xpMemListHead.map XpMemList.offset ++ [node.memIndex] := by
      simp [Pci.inserted, newEntry]
    rw [hmap]
    refine List.nodup_append.mpr ⟨listed.offsets, List.nodup_singleton _, ?_⟩
    intro a ha b hb heq
    obtain ⟨entry, hmem, rfl⟩ := List.mem_map.mp ha
    exact hnew entry hmem (heq.trans (List.mem_singleton.mp hb))
  offset_le := by
    intro entry hmem
    rcases mem_inserted.mp hmem with hold | rfl
    · exact listed.offset_le entry hold
    · exact le_refl _
  index_le := listed.index_le
  live := by
    intro entry hmem
    have hcalls : liveBlocks (Pci.inserted p len node).dmaCalls =
        ⟨p.1, p.2, dmaArea len⟩ :: liveBlocks node.dmaCalls := liveBlocks_alloc _ _
    rw [hcalls]
    rcases mem_inserted.mp hmem with hold | rfl
    · obtain ⟨b, hb, haddr⟩ := listed.live entry hold
      exact ⟨b, List.mem_cons_of_mem _ hb, haddr⟩
    · exact ⟨_, List.mem_cons_self, rfl, rfl⟩
  told := by
    intro userMem htold
    obtain ⟨entry, hmem, hrest⟩ := listed.told userMem htold
    exact ⟨entry, mem_inserted.mpr (.inl hmem), hrest⟩

/-- Below 2^20 the index and the offset told to the user do not wrap. -/
theorem Listed.granted (listed : Listed node) (p : Nat × Nat) (len : Nat)
    (hnew : ∀ entry ∈ node.xpMemListHead, entry.offset ≠ node.memIndex)
    (hindex : node.memIndex < 2 ^ 20) : Listed (granted p len node) := by
  have hinserted := listed.inserted p len hnew
  have hnext : (Pci.granted p len node).memIndex = node.memIndex + 1 :=
    Nat.mod_eq_of_lt (by omega)
  have hoffset : u32Mul node.memIndex pageSize = node.memIndex * pageSize :=
    Nat.mod_eq_of_lt (by unfold pageSize; omega)
  refine ⟨hinserted.offsets, ?_, ?_, hinserted.live, ?_⟩
  · intro entry hmem
    rw [hnext]
    exact (hinserted.offset_le entry hmem).trans (Nat.le_succ _)
  · rw [hnext]
    exact hindex
  · intro userMem htold
    rw [hnext]
    rcases List.mem_append.mp htold with hold | hself
    · obtain ⟨entry, hmem, hlt, heq⟩ := listed.told userMem hold
      exact ⟨entry, mem_inserted.mpr (.inl hmem), Nat.lt_succ_of_lt hlt, heq⟩
    · rw [List.mem_singleton.mp hself]
      refine ⟨newEntry p len node.memIndex, mem_inserted.mpr (.inr rfl), Nat.lt_succ_self _, ?_⟩
      rw [newUserMem, hoffset]
      rfl

theorem Listed.free (listed : Listed node) (kernel : DmaKernel) (paddr : Nat) :
    Listed (xpDmaMemFree kernel paddr node).2 := by
  unfold xpDmaMemFree
  split
  · exact listed
  split
  · exact listed
  refine ⟨?_, ?_, listed.index_le, ?_, ?_⟩
  · exact listed.offsets.sublist (List.filter_sublist.map _)
  · exact fun entry hmem => listed.offset_le entry (List.mem_of_mem_filter hmem)
  · intro entry hmem
    obtain ⟨hin, hne⟩ := List.mem_filter.mp hmem
    obtain ⟨b, hb, haddr, hpaddr⟩ := listed.live entry hin
    have hother : b.paddr ≠ paddr := by simpa [hpaddr] using hne
    exact ⟨b, liveBlocks_frees hb hother _, haddr, hpaddr⟩
  · intro userMem htold
    obtain ⟨hin, hne⟩ := List.mem_filter.mp htold
    obtain ⟨entry, hmem, hlt, rfl⟩ := listed.told userMem hin
    exact ⟨entry, List.mem_filter.mpr ⟨hmem, hne⟩, hlt, rfl⟩

theorem Listed.cleanup (_listed : Listed node) : Listed (xpDmaMemCleanup node).2 where
  offsets := List.nodup_nil
  offset_le := by simp [xpDmaMemCleanup]
  index_le := Nat.zero_le _
  live := by simp [xpDmaMemCleanup]
  told := by simp [xpDmaMemCleanup]

/-- A request that keeps the offsets apart keeps the invariant. -/
theorem Listed.request (listed : Listed node) {req : DmaRequest} (keeps : KeepsOffsets node req) :
    Listed (xpDmaIoctl node req).2 := by
  cases req with
  | phyMemAlloc kernel len =>
      change Listed (xpDmaMemAccess kernel len node).2
      rcases xpDmaMemAccess_cases kernel len node with ⟨-, lost, heq⟩ | ⟨hins, p, -, heq⟩
      · rw [heq]
        exact listed.lost lost
      · obtain ⟨hnew, hindex⟩ := keeps hins
        rw [heq]
        split
        · rename_i hto
          exact listed.granted p len hnew (hindex hto)
        · exact listed.inserted p len hnew
  | phyMemFree kernel paddr => exact listed.free kernel paddr
  | dmaCleanUp => exact listed.cleanup

/-- A second entry under one index, in either outcome of the copy to the user. -/
theorem not_nodup_inserted {p : Nat × Nat} {entry : XpMemList} (hmem : entry ∈ node.xpMemListHead)
    (heq : entry.offset = node.memIndex) :
    ¬ ((inserted p len node).xpMemListHead.map XpMemList.offset).Nodup := by
  intro hnodup
  simp only [inserted, List.map_append, List.map_singleton] at hnodup
  exact (List.nodup_append.mp hnodup).2.2 _ (List.mem_map_of_mem hmem) _
    (List.mem_singleton_self _) heq

/-- At an index of 2^20 the offset told to the user is another entry's or none's. -/
theorem not_selects_granted (listed : Listed node) {p : Nat × Nat}
    (hfresh : ∀ b ∈ liveBlocks node.dmaCalls, b.addr ≠ p.1 ∧ b.paddr ≠ p.2)
    (hindex : ¬ node.memIndex < 2 ^ 20) : ¬ Coherent (granted p len node) := by
  intro coherent
  have hat : node.memIndex = 2 ^ 20 := Nat.le_antisymm listed.index_le (Nat.not_lt.mp hindex)
  have htold : newUserMem p len node.memIndex ∈ (granted p len node).told := by
    simp [granted]
  obtain ⟨entry, hfound, haddr, -, -⟩ := coherent.selects _ htold
  have hzero : (newUserMem p len node.memIndex).offset / pageSize = 0 := by
    rw [newUserMem, hat]
    change u32Mul (2 ^ 20) pageSize / pageSize = 0
    decide
  rw [hzero] at hfound
  unfold mmapEntry at hfound
  split at hfound
  · cases hfound
  · have hoffset : entry.offset = 0 := by simpa using List.find?_some hfound
    rcases mem_inserted.mp (List.mem_of_find?_eq_some hfound) with hold | rfl
    · obtain ⟨b, hb, hbaddr, -⟩ := listed.live entry hold
      exact (hfresh b hb).1 (hbaddr.trans haddr)
    · have hself : node.memIndex = 0 := hoffset
      rw [hat] at hself
      exact absurd hself (by decide)

/-- A request that does not keep the offsets apart breaks coherence. -/
theorem Listed.broken (listed : Listed node) {req : DmaRequest} (bad : ¬ KeepsOffsets node req) :
    ¬ Coherent (xpDmaIoctl node req).2 := by
  cases req with
  | phyMemAlloc kernel len =>
      change ¬ Coherent (xpDmaMemAccess kernel len node).2
      rcases xpDmaMemAccess_cases kernel len node with ⟨hins, -⟩ | ⟨hins, p, hfresh, heq⟩
      · exact absurd (fun h => absurd h hins) bad
      · rw [heq]
        by_cases hnew : ∀ entry ∈ node.xpMemListHead, entry.offset ≠ node.memIndex
        · have hlate : ¬ (kernel.toUser = 0 → node.memIndex < 2 ^ 20) := fun hindex =>
            bad fun _ => ⟨hnew, hindex⟩
          obtain ⟨hto, hindex⟩ := Classical.not_imp.mp hlate
          rw [if_pos hto]
          exact not_selects_granted listed hfresh hindex
        · push Not at hnew
          obtain ⟨entry, hmem, hsame⟩ := hnew
          intro coherent
          split at coherent
          · exact not_nodup_inserted hmem hsame coherent.offsets
          · exact not_nodup_inserted hmem hsame coherent.offsets
  | phyMemFree kernel paddr => exact absurd trivial bad
  | dmaCleanUp => exact absurd trivial bad

end Requests

/-- **Offsets of the DMA blocks.** In every history of requests, with any of their
user copies and allocations failing: every node on the way is coherent exactly
when every request keeps the offsets apart. -/
theorem dma_offsets_iff (reqs : List DmaRequest) :
    (∀ done, done <+: reqs → Coherent (dmaHistory emptyNode done)) ↔
      ∀ done req, done ++ [req] <+: reqs → KeepsOffsets (dmaHistory emptyNode done) req :=
  history_iff listed_emptyNode (fun _ listed => listed.coherent)
    (fun _ _ listed keeps => listed.request keeps) (fun _ _ listed bad => listed.broken bad) reqs

/-- A kernel that grants a block away from all the others, and copies to the user
all but `toUser` bytes. -/
def dmaKernel (toUser : Nat) : DmaKernel where
  kmallocUser := true
  fromUser := 0
  dmaAlloc live _ := some ⟨(pageSize * (live.map DmaBlock.addr).sum + pageSize,
    pageSize * (live.map DmaBlock.paddr).sum + pageSize), by
      have hsum (f : DmaBlock → Nat) (b : DmaBlock) (hb : b ∈ live) :
          f b ≠ pageSize * (live.map f).sum + pageSize := by
        have hle : f b ≤ (live.map f).sum :=
          List.single_le_sum (fun _ _ => Nat.zero_le _) _ (List.mem_map_of_mem hb)
        unfold pageSize
        omega
      exact fun b hb => ⟨hsum DmaBlock.addr b hb, hsum DmaBlock.paddr b hb⟩⟩
  kmallocEntry := true
  toUser := toUser

/-- An allocation that cannot tell the user, and one that can: both entries have
offset zero, and the second block is not the one that `mmap` finds. -/
theorem dma_offsets_twice :
    ¬ Coherent (dmaHistory emptyNode
      [.phyMemAlloc (dmaKernel 24) 4096, .phyMemAlloc (dmaKernel 0) 4096]) := by
  intro coherent
  exact absurd coherent.offsets (by decide +kernel)

end XpNet.Pci

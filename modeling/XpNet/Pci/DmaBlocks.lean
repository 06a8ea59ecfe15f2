/-
The blocks of the DMA node, from `dma_alloc_coherent` to `dma_free_coherent`.

A block is accounted for while it is on the list once, or has been freed once, and as
long as it was allocated. In every history that holds at the end of each request, and a
request that fails leaves the blocks and the index, exactly as long as no allocation
fails after it has obtained its block and no block is freed whose length does not fit
the `u32` of its entry (`dma_conserved_iff`).

Whatever fails, an entry on the list has its block; so `mmap` gives out pages of a block
that is allocated, and none beyond its end (`xpDmaMmap_within`).
-/

import XpNet.Holding
import XpNet.Pci.DmaMem

namespace XpNet.Pci

/-! ### What is promised -/

/-- A call to the allocator obtains a block, or gives one back. -/
def DmaCall.use : DmaCall → Use DmaBlock
  | .alloc block => .obtain block
  | .free len addr paddr => .release ⟨addr, paddr, len⟩

/-- The blocks that are allocated, when every call has freed a block that was, as long
as it was. -/
def allocated (node : DmaNode) : Option (List DmaBlock) :=
  useAll [] (node.dmaCalls.map DmaCall.use)

/-- The addresses of an entry and of a block. -/
def XpMemList.place (entry : XpMemList) : Nat × Nat := (entry.addr, entry.paddr)
def DmaBlock.place (block : DmaBlock) : Nat × Nat := (block.addr, block.paddr)

/-- Every block obtained is on the list once, or has been freed once. -/
def Conserved (node : DmaNode) : Prop :=
  ∃ live, allocated node = some live ∧
    (node.xpMemListHead.map XpMemList.place).Perm (live.map DmaBlock.place)

/-- What a request is to keep: the blocks are conserved, and when it fails neither they
nor the index have changed. -/
def KeepsBlocks (node : DmaNode) (req : DmaRequest) : Prop :=
  Conserved (xpDmaIoctl node req).2 ∧
    ((xpDmaIoctl node req).1 ≠ 0 →
      allocated (xpDmaIoctl node req).2 = allocated node ∧
        (xpDmaIoctl node req).2.memIndex = node.memIndex)

/-- An allocation that obtains its block. -/
def Obtains (kernel : DmaKernel) (len : Nat) (node : DmaNode) : Prop :=
  kernel.kmallocUser = true ∧ kernel.fromUser = 0 ∧
    (kernel.dmaAlloc (liveBlocks node.dmaCalls) (dmaArea len)).isSome

/-- An allocation that obtains its block gets the memory for the entry and tells the
user; and no block of 2^32 bytes or more is freed. -/
def Completes (node : DmaNode) : DmaRequest → Prop
  | .phyMemAlloc kernel len => Obtains kernel len node →
      kernel.kmallocEntry = true ∧ kernel.toUser = 0
  | .phyMemFree kernel paddr => kernel.kmallocUser = true → kernel.fromUser = 0 →
      ∀ b ∈ liveBlocks node.dmaCalls, b.paddr = paddr → b.len < 2 ^ 32
  | .dmaCleanUp => ∀ b ∈ liveBlocks node.dmaCalls, b.len < 2 ^ 32

/-! ### The invariant -/

/-- The call that frees the block of an entry. -/
def XpMemList.freeCall (entry : XpMemList) : DmaCall :=
  .free entry.len entry.addr entry.paddr

/-- An entry, and a block as the entry keeps it. -/
def XpMemList.kept (entry : XpMemList) : Nat × Nat × Nat := (entry.addr, entry.paddr, entry.len)
def DmaBlock.kept (block : DmaBlock) : Nat × Nat × Nat :=
  (block.addr, block.paddr, block.len % 2 ^ 32)

/-- The blocks `live` are those the calls leave allocated, no two of them at one address,
and the entries are theirs. -/
structure Accounts (calls : List DmaCall) (entries : List XpMemList) (live : List DmaBlock) :
    Prop where
  uses : useAll [] (calls.map DmaCall.use) = some live
  liveBlocks_eq : liveBlocks calls = live
  paddrs : (live.map DmaBlock.paddr).Nodup
  listed : (entries.map XpMemList.kept).Perm (live.map DmaBlock.kept)

/-- What holds of the node between requests that complete. -/
def Accounted (node : DmaNode) : Prop :=
  ∃ live, Accounts node.dmaCalls node.xpMemListHead live

section Accounts

variable {calls : List DmaCall} {entries : List XpMemList} {live : List DmaBlock}

theorem Accounts.places (accounts : Accounts calls entries live) :
    (entries.map XpMemList.place).Perm (live.map DmaBlock.place) := by
  have hperm := accounts.listed.map fun kept : Nat × Nat × Nat => (kept.1, kept.2.1)
  rw [List.map_map, List.map_map] at hperm
  exact hperm

/-- An entry has its block. -/
theorem Accounts.block_of_entry (accounts : Accounts calls entries live) {entry : XpMemList}
    (hmem : entry ∈ entries) : ∃ b ∈ live, b.addr = entry.addr ∧ b.paddr = entry.paddr ∧
      entry.len = b.len % 2 ^ 32 := by
  have hkept := accounts.listed.subset (List.mem_map_of_mem hmem)
  obtain ⟨b, hb, heq⟩ := List.mem_map.mp hkept
  simp only [XpMemList.kept, DmaBlock.kept, Prod.mk.injEq] at heq
  exact ⟨b, hb, heq.1, heq.2.1, heq.2.2.symm⟩

/-- A block has its entry. -/
theorem Accounts.entry_of_block (accounts : Accounts calls entries live) {b : DmaBlock}
    (hb : b ∈ live) : ∃ entry ∈ entries, entry.paddr = b.paddr := by
  have hkept := accounts.listed.symm.subset (List.mem_map_of_mem hb)
  obtain ⟨entry, hmem, heq⟩ := List.mem_map.mp hkept
  simp only [XpMemList.kept, DmaBlock.kept, Prod.mk.injEq] at heq
  exact ⟨entry, hmem, heq.2.1⟩

theorem Accounts.block_unique (accounts : Accounts calls entries live) {b c : DmaBlock}
    (hb : b ∈ live) (hc : c ∈ live) (heq : b.paddr = c.paddr) : b = c :=
  List.inj_on_of_nodup_map accounts.paddrs hb hc heq

theorem accounts_nil : Accounts [] [] [] := ⟨rfl, rfl, List.nodup_nil, List.Perm.nil⟩

/-- The order of the entries does not matter. -/
theorem Accounts.perm (accounts : Accounts calls entries live) {entries' : List XpMemList}
    (hperm : entries'.Perm entries) : Accounts calls entries' live :=
  ⟨accounts.uses, accounts.liveBlocks_eq, accounts.paddrs,
    (hperm.map XpMemList.kept).trans accounts.listed⟩

/-- A block at new addresses, and its entry. -/
theorem Accounts.alloc (accounts : Accounts calls entries live) {p : Nat × Nat}
    (hfresh : ∀ b ∈ liveBlocks calls, b.addr ≠ p.1 ∧ b.paddr ≠ p.2) (len offset : Nat) :
    Accounts (calls ++ [.alloc ⟨p.1, p.2, dmaArea len⟩]) (entries ++ [newEntry p len offset])
      (⟨p.1, p.2, dmaArea len⟩ :: live) where
  uses := by
    rw [List.map_append, useAll_append_of accounts.uses]
    rfl
  liveBlocks_eq := by rw [liveBlocks_alloc, accounts.liveBlocks_eq]
  paddrs := by
    refine List.nodup_cons.mpr ⟨fun hmem => ?_, accounts.paddrs⟩
    obtain ⟨b, hb, heq⟩ := List.mem_map.mp hmem
    rw [accounts.liveBlocks_eq] at hfresh
    exact (hfresh b hb).2 heq
  listed := by
    rw [List.map_append, List.map_cons]
    exact (List.perm_append_singleton _ _).trans (accounts.listed.cons _)

/-- Freeing the first of the entries, for a block that the entry has the length of. -/
theorem Accounts.free {entry : XpMemList} (accounts : Accounts calls (entry :: entries) live)
    (hwhole : ∀ b ∈ live, b.paddr = entry.paddr → b.len < 2 ^ 32) :
    ∃ live', (live' ⊆ live ∧ ∀ b ∈ live, b.paddr ≠ entry.paddr → b ∈ live') ∧
      Accounts (calls ++ [entry.freeCall]) entries live' := by
  obtain ⟨b, hb, haddr, hpaddr, hlen⟩ := accounts.block_of_entry List.mem_cons_self
  rw [Nat.mod_eq_of_lt (hwhole b hb hpaddr)] at hlen
  have hblock : b = ⟨entry.addr, entry.paddr, entry.len⟩ := by
    rw [← haddr, ← hpaddr, hlen]
  have hnodup : live.Nodup := accounts.paddrs.of_map
  have hsplit : live.Perm (b :: live.erase b) := List.perm_cons_erase hb
  refine ⟨live.erase b, ⟨List.erase_subset, ?_⟩, ?_, ?_, ?_, ?_⟩
  · intro c hc hne
    exact (List.mem_erase_of_ne fun heq => hne (by rw [heq]; exact hpaddr)).mpr hc
  · have hmem : ⟨entry.addr, entry.paddr, entry.len⟩ ∈ live := hblock ▸ hb
    rw [List.map_append, useAll_append_of accounts.uses, hblock]
    exact useAll_release hmem
  · -- no other block has the two addresses
    rw [XpMemList.freeCall, liveBlocks_free, accounts.liveBlocks_eq, hnodup.erase_eq_filter]
    refine List.filter_congr fun c hc => ?_
    rw [← haddr, ← hpaddr]
    by_cases heq : c = b
    · subst heq
      simp
    · have hne : c.paddr ≠ b.paddr := fun h => heq (accounts.block_unique hc hb h)
      simp [heq, hne]
  · exact accounts.paddrs.sublist (List.erase_sublist.map _)
  · have hkept : XpMemList.kept entry = DmaBlock.kept b := by
      unfold XpMemList.kept DmaBlock.kept
      rw [Nat.mod_eq_of_lt (hwhole b hb hpaddr), haddr, hpaddr, hlen]
    have hperm := accounts.listed.trans (hsplit.map DmaBlock.kept)
    rw [List.map_cons, List.map_cons, hkept] at hperm
    exact hperm.cons_inv

/-- Freeing an entry that has the length of its block cut off frees no block. -/
theorem Accounts.free_cut {entry : XpMemList} (accounts : Accounts calls (entry :: entries) live)
    {b : DmaBlock} (hb : b ∈ live) (hpaddr : b.paddr = entry.paddr) (hlong : ¬ b.len < 2 ^ 32) :
    useAll [] ((calls ++ [entry.freeCall]).map DmaCall.use) = none := by
  rw [List.map_append, useAll_append_of accounts.uses]
  refine useAll_release_absent fun hmem => ?_
  have heq := accounts.block_unique hb hmem hpaddr
  have hfirst : entry ∈ entry :: entries := List.mem_cons_self
  obtain ⟨c, -, -, -, hlen⟩ := accounts.block_of_entry hfirst
  rw [heq] at hlong
  change ¬ entry.len < 2 ^ 32 at hlong
  exact hlong (hlen ▸ Nat.mod_lt _ (by decide))

/-- Freeing some of the entries: the others stay accounted for, as long as no length is
cut off. By induction on the entries that are freed. -/
theorem Accounts.frees {freed : List XpMemList} (accounts : Accounts calls (freed ++ entries) live)
    (hwhole : ∀ b ∈ live, (∃ entry ∈ freed, b.paddr = entry.paddr) → b.len < 2 ^ 32) :
    ∃ live', Accounts (calls ++ freed.map XpMemList.freeCall) entries live' := by
  induction freed generalizing calls live with
  | nil => exact ⟨live, by simpa using accounts⟩
  | cons entry freed ih =>
      obtain ⟨live', ⟨hsub, -⟩, hfree⟩ := Accounts.free accounts fun b hb heq =>
        hwhole b hb ⟨entry, List.mem_cons_self, heq⟩
      obtain ⟨live'', hrest⟩ := ih hfree fun b hb ⟨e, he, heq⟩ =>
        hwhole b (hsub hb) ⟨e, List.mem_cons_of_mem _ he, heq⟩
      exact ⟨live'', by simpa using hrest⟩

/-- With a length cut off among them, some block is not freed. -/
theorem Accounts.frees_cut {freed : List XpMemList}
    (accounts : Accounts calls (freed ++ entries) live)
    (hcut : ∃ b ∈ live, (∃ entry ∈ freed, b.paddr = entry.paddr) ∧ ¬ b.len < 2 ^ 32) :
    useAll [] ((calls ++ freed.map XpMemList.freeCall).map DmaCall.use) = none := by
  induction freed generalizing calls live with
  | nil =>
      obtain ⟨b, -, ⟨entry, hmem, -⟩, -⟩ := hcut
      cases hmem
  | cons entry freed ih =>
      rw [List.map_cons, ← List.singleton_append, ← List.append_assoc]
      by_cases hhere : ∃ b ∈ live, b.paddr = entry.paddr ∧ ¬ b.len < 2 ^ 32
      · obtain ⟨b, hb, heq, hlong⟩ := hhere
        rw [List.map_append, useAll_append, Accounts.free_cut accounts hb heq hlong]
        rfl
      · have hwhole : ∀ b ∈ live, b.paddr = entry.paddr → b.len < 2 ^ 32 := fun b hb heq =>
          not_not.mp fun hlong => hhere ⟨b, hb, heq, hlong⟩
        obtain ⟨live', ⟨-, hkeeps⟩, hfree⟩ := Accounts.free accounts hwhole
        obtain ⟨b, hb, ⟨e, he, heq⟩, hlong⟩ := hcut
        have hother : b.paddr ≠ entry.paddr := fun h => hlong (hwhole b hb h)
        have hlater : e ∈ freed := by
          rcases List.mem_cons.mp he with rfl | he
          · exact absurd heq hother
          · exact he
        exact ih hfree ⟨b, hkeeps b hb hother, ⟨e, hlater, heq⟩, hlong⟩

end Accounts

/-! ### The requests -/

section Requests

variable {node : DmaNode} {kernel : DmaKernel} {len paddr : Nat} {live : List DmaBlock}

theorem Accounted.conserved (accounted : Accounted node) : Conserved node := by
  obtain ⟨live, accounts⟩ := accounted
  exact ⟨live, accounts.uses, accounts.places⟩

/-- A request that does nothing. -/
theorem Accounted.unchanged (accounted : Accounted node) {req : DmaRequest}
    (h : (xpDmaIoctl node req).2 = node) : KeepsBlocks node req := by
  refine ⟨?_, fun _ => ?_⟩
  · rw [h]
    exact accounted.conserved
  · rw [h]
    exact ⟨rfl, rfl⟩

/-- An allocation that does not obtain its block changes nothing. -/
theorem xpDmaMemAccess_refused (h : ¬ Obtains kernel len node) :
    (xpDmaMemAccess kernel len node).2 = node := by
  unfold xpDmaMemAccess
  by_cases hmem : kernel.kmallocUser = true
  · by_cases hfrom : kernel.fromUser = 0
    · have hnone : kernel.dmaAlloc (liveBlocks node.dmaCalls) (dmaArea len) = none := by
        refine Option.not_isSome_iff_eq_none.mp fun hsome => h ⟨hmem, hfrom, hsome⟩
      simp [hmem, hfrom, hnone]
    · simp [hmem, hfrom, xpMemUserLen_ne_zero]
  · simp [hmem]

/-- One that does: the block is lost, or its entry is on the list and the user has been
told or not. -/
theorem xpDmaMemAccess_obtains (h : Obtains kernel len node) :
    ∃ p : Nat × Nat, (∀ b ∈ liveBlocks node.dmaCalls, b.addr ≠ p.1 ∧ b.paddr ≠ p.2) ∧
      xpDmaMemAccess kernel len node =
        if kernel.kmallocEntry = false then
          (-XpNet.Intf.enomem, { node with
            dmaCalls := node.dmaCalls ++ [.alloc ⟨p.1, p.2, dmaArea len⟩] })
        else if kernel.toUser = 0 then (0, granted p len node)
        else (min kernel.toUser xpMemUserLen, inserted p len node) := by
  obtain ⟨hmem, hfrom, hsome⟩ := h
  obtain ⟨p, halloc⟩ := Option.isSome_iff_exists.mp hsome
  refine ⟨p.1, p.2, ?_⟩
  unfold xpDmaMemAccess
  cases hentry : kernel.kmallocEntry with
  | false => simp [hmem, hfrom, halloc]
  | true =>
      by_cases hto : kernel.toUser = 0
      · simp [hmem, hfrom, halloc, hto, granted, inserted]
      · simp [hmem, hfrom, halloc, hto, inserted, xpMemUserLen_ne_zero]

/-- A free that gets the user's address. -/
theorem xpDmaMemFree_eq (paddr : Nat) (node : DmaNode) (hmem : kernel.kmallocUser = true)
    (hfrom : kernel.fromUser = 0) :
    (xpDmaMemFree kernel paddr node).1 = 0 ∧
    (xpDmaMemFree kernel paddr node).2.xpMemListHead =
      node.xpMemListHead.filter (fun entry => !decide (entry.paddr = paddr)) ∧
    (xpDmaMemFree kernel paddr node).2.dmaCalls = node.dmaCalls ++
      (node.xpMemListHead.filter fun entry => entry.paddr = paddr).map XpMemList.freeCall := by
  unfold xpDmaMemFree
  simp only [hmem, hfrom, Bool.not_true, Bool.false_eq_true, if_false, Nat.zero_min, ne_eq,
    not_true_eq_false, true_and]
  refine ⟨by simp, ?_⟩
  congr 1
  refine List.map_congr_left fun entry hentry => ?_
  have heq : entry.paddr = paddr := by simpa using (List.mem_filter.mp hentry).2
  rw [XpMemList.freeCall, heq]

/-- A node from which some entries have been freed: it conserves the blocks exactly when
no length was cut off. -/
theorem Accounts.conserved_iff (node' : DmaNode) {freed : List XpMemList}
    (accounts : Accounts node.dmaCalls (freed ++ node'.xpMemListHead) live)
    (hcalls : node'.dmaCalls = node.dmaCalls ++ freed.map XpMemList.freeCall) :
    (Conserved node' ↔
      ∀ b ∈ live, (∃ entry ∈ freed, b.paddr = entry.paddr) → b.len < 2 ^ 32) ∧
    (Conserved node' → Accounted node') := by
  have hwhole : (∀ b ∈ live, (∃ entry ∈ freed, b.paddr = entry.paddr) → b.len < 2 ^ 32) →
      Accounted node' := by
    intro hwhole
    obtain ⟨live', hrest⟩ := Accounts.frees accounts hwhole
    rw [← hcalls] at hrest
    exact ⟨live', hrest⟩
  have hcut : Conserved node' →
      ∀ b ∈ live, (∃ entry ∈ freed, b.paddr = entry.paddr) → b.len < 2 ^ 32 := by
    rintro ⟨live', halloc, -⟩ b hb hfreed
    by_contra hlong
    have hnone := Accounts.frees_cut accounts ⟨b, hb, hfreed, hlong⟩
    rw [← hcalls] at hnone
    cases halloc.symm.trans hnone
  exact ⟨⟨hcut, fun h => (hwhole h).conserved⟩, fun h => hwhole (hcut h)⟩

/-- An allocation that obtains its block and completes. -/
theorem Accounted.granted (accounted : Accounted node) (hobtains : Obtains kernel len node)
    (hentry : kernel.kmallocEntry = true) (hto : kernel.toUser = 0) :
    (xpDmaMemAccess kernel len node).1 = 0 ∧ Accounted (xpDmaMemAccess kernel len node).2 := by
  obtain ⟨live, accounts⟩ := accounted
  obtain ⟨p, hfresh, heq⟩ := xpDmaMemAccess_obtains hobtains
  rw [heq, hentry, if_neg (by simp), if_pos hto]
  exact ⟨rfl, _, accounts.alloc hfresh len node.memIndex⟩

/-- One that obtains its block and does not complete breaks its promise. -/
theorem Accounted.completes_of_keeps (accounted : Accounted node)
    (hobtains : Obtains kernel len node) (keeps : KeepsBlocks node (.phyMemAlloc kernel len)) :
    kernel.kmallocEntry = true ∧ kernel.toUser = 0 := by
  obtain ⟨live, accounts⟩ := accounted
  obtain ⟨p, hfresh, heq⟩ := xpDmaMemAccess_obtains hobtains
  have hnext := accounts.alloc hfresh len node.memIndex
  obtain ⟨⟨live', halloc, hplaces⟩, hfailed⟩ := keeps
  change allocated (xpDmaMemAccess kernel len node).2 = some live' at halloc
  change (List.map _ (xpDmaMemAccess kernel len node).2.xpMemListHead).Perm _ at hplaces
  change (xpDmaMemAccess kernel len node).1 ≠ 0 →
    allocated (xpDmaMemAccess kernel len node).2 = allocated node ∧ _ at hfailed
  rw [heq] at halloc hplaces hfailed
  cases hentry : kernel.kmallocEntry with
  | false =>
      -- the block is lost: there is one more than there are entries
      rw [hentry, if_pos rfl] at halloc hplaces
      have hmore : some live' = some (⟨p.1, p.2, dmaArea len⟩ :: live) :=
        halloc.symm.trans hnext.uses
      have hcount := hplaces.length_eq
      rw [Option.some.inj hmore, List.length_map, List.length_map, List.length_cons] at hcount
      change node.xpMemListHead.length = live.length + 1 at hcount
      have hlisted := accounts.listed.length_eq
      rw [List.length_map, List.length_map] at hlisted
      omega
  | true =>
      refine ⟨rfl, ?_⟩
      by_contra hto
      rw [hentry, if_neg (by simp), if_neg hto] at hfailed
      have hrc : (min kernel.toUser xpMemUserLen : Int) ≠ 0 := by
        have := xpMemUserLen_ne_zero
        omega
      have hsame : some (⟨p.1, p.2, dmaArea len⟩ :: live) = some live :=
        hnext.uses.symm.trans ((hfailed hrc).1.trans accounts.uses)
      exact absurd (congrArg List.length (Option.some.inj hsame)) (by simp)

/-- An allocation that obtains its block keeps its promise when it completes. -/
theorem Accounted.access (accounted : Accounted node) :
    (KeepsBlocks node (.phyMemAlloc kernel len) ↔ Completes node (.phyMemAlloc kernel len)) ∧
    (Completes node (.phyMemAlloc kernel len) → Accounted (xpDmaMemAccess kernel len node).2) := by
  by_cases hobtains : Obtains kernel len node
  · refine ⟨⟨fun keeps _ => accounted.completes_of_keeps hobtains keeps, ?_⟩, ?_⟩
    · intro completes
      obtain ⟨hentry, hto⟩ := completes hobtains
      obtain ⟨hrc, hnew⟩ := accounted.granted hobtains hentry hto
      exact ⟨hnew.conserved, fun h => absurd hrc h⟩
    · intro completes
      obtain ⟨hentry, hto⟩ := completes hobtains
      exact (accounted.granted hobtains hentry hto).2
  · have hsame : (xpDmaIoctl node (.phyMemAlloc kernel len)).2 = node :=
      xpDmaMemAccess_refused hobtains
    refine ⟨⟨fun _ h => absurd h hobtains, fun _ => accounted.unchanged hsame⟩, fun _ => ?_⟩
    rw [xpDmaMemAccess_refused hobtains]
    exact accounted

/-- A free keeps its promise when it cuts no length off. -/
theorem Accounted.free (accounted : Accounted node) :
    (KeepsBlocks node (.phyMemFree kernel paddr) ↔ Completes node (.phyMemFree kernel paddr)) ∧
    (Completes node (.phyMemFree kernel paddr) → Accounted (xpDmaMemFree kernel paddr node).2) := by
  by_cases hgets : kernel.kmallocUser = true ∧ kernel.fromUser = 0
  · obtain ⟨live, accounts⟩ := accounted
    obtain ⟨hrc, hlist, hcalls⟩ := xpDmaMemFree_eq paddr node hgets.1 hgets.2
    have hsplit := accounts.perm (List.filter_append_perm
      (fun entry : XpMemList => decide (entry.paddr = paddr)) node.xpMemListHead)
    rw [← hlist] at hsplit
    obtain ⟨hconserved, hnext⟩ := Accounts.conserved_iff _ hsplit hcalls
    have hcompletes : Completes node (.phyMemFree kernel paddr) ↔
        Conserved (xpDmaMemFree kernel paddr node).2 := by
      rw [hconserved]
      unfold Completes
      rw [accounts.liveBlocks_eq]
      constructor
      · rintro h b hb ⟨entry, hfreed, heq⟩
        have hpaddr : entry.paddr = paddr := by simpa using (List.mem_filter.mp hfreed).2
        exact h hgets.1 hgets.2 b hb (heq.trans hpaddr)
      · intro h _ _ b hb heq
        obtain ⟨entry, hmem, hpaddr⟩ := accounts.entry_of_block hb
        have hfreed : entry.paddr = paddr := hpaddr.trans heq
        exact h b hb ⟨entry, List.mem_filter.mpr ⟨hmem, by simpa using hfreed⟩, hpaddr.symm⟩
    refine ⟨?_, fun h => hnext (hcompletes.mp h)⟩
    rw [hcompletes]
    exact ⟨And.left, fun h => ⟨h, fun hfailed => absurd hrc hfailed⟩⟩
  · have hsame : (xpDmaMemFree kernel paddr node).2 = node := by
      unfold xpDmaMemFree
      by_cases hmem : kernel.kmallocUser = true
      · have hfrom : kernel.fromUser ≠ 0 := fun h => hgets ⟨hmem, h⟩
        simp [hmem, hfrom, xpMemUserLen_ne_zero]
      · simp [hmem]
    refine ⟨⟨fun _ hmem hfrom => absurd ⟨hmem, hfrom⟩ hgets, fun _ => accounted.unchanged hsame⟩,
      fun _ => ?_⟩
    rw [hsame]
    exact accounted

/-- So does a cleanup. -/
theorem Accounted.cleanup (accounted : Accounted node) :
    (KeepsBlocks node .dmaCleanUp ↔ Completes node .dmaCleanUp) ∧
    (Completes node .dmaCleanUp → Accounted (xpDmaMemCleanup node).2) := by
  obtain ⟨live, accounts⟩ := accounted
  have hall := accounts.perm (List.Perm.of_eq (List.append_nil node.xpMemListHead))
  obtain ⟨hconserved, hnext⟩ := Accounts.conserved_iff (xpDmaMemCleanup node).2 hall rfl
  have hcompletes : Completes node .dmaCleanUp ↔ Conserved (xpDmaMemCleanup node).2 := by
    rw [hconserved]
    unfold Completes
    rw [accounts.liveBlocks_eq]
    constructor
    · exact fun h b hb _ => h b hb
    · intro h b hb
      obtain ⟨entry, hmem, hpaddr⟩ := accounts.entry_of_block hb
      exact h b hb ⟨entry, hmem, hpaddr.symm⟩
  refine ⟨?_, fun h => hnext (hcompletes.mp h)⟩
  rw [hcompletes]
  exact ⟨And.left, fun h => ⟨h, fun hfailed => absurd rfl hfailed⟩⟩

/-- What one request keeps. -/
theorem Accounted.request (accounted : Accounted node) (req : DmaRequest) :
    (KeepsBlocks node req ↔ Completes node req) ∧
    (Completes node req → Accounted (xpDmaIoctl node req).2) := by
  cases req with
  | phyMemAlloc kernel len => exact accounted.access
  | phyMemFree kernel paddr => exact accounted.free
  | dmaCleanUp => exact accounted.cleanup

end Requests

theorem accounted_emptyNode : Accounted emptyNode := ⟨[], accounts_nil⟩

/-- **The blocks of the DMA node.** In every history of requests, with any of their user
copies and allocations failing: every request keeps the blocks exactly when every
request completes. -/
theorem dma_conserved_iff (reqs : List DmaRequest) :
    (∀ done req, done ++ [req] <+: reqs → KeepsBlocks (dmaHistory emptyNode done) req) ↔
      ∀ done req, done ++ [req] <+: reqs → Completes (dmaHistory emptyNode done) req :=
  history_steps_iff accounted_emptyNode
    (fun _ req accounted completes => (accounted.request req).2 completes)
    (fun _ req accounted => (accounted.request req).1) reqs

/-- An allocation that cannot tell the user fails with its block on the list. -/
theorem dma_block_untold :
    ¬ KeepsBlocks (dmaHistory emptyNode []) (.phyMemAlloc (dmaKernel 24) 4096) := by
  rintro ⟨-, hfailed⟩
  have hsame := (hfailed (by decide +kernel)).1
  exact absurd hsame (by decide +kernel)

/-! ### `mmap` -/

/-- The entries have blocks that are allocated, of whole pages. -/
def Backed (node : DmaNode) : Prop :=
  ∀ entry ∈ node.xpMemListHead, ∃ b ∈ liveBlocks node.dmaCalls,
    b.addr = entry.addr ∧ b.paddr = entry.paddr ∧ entry.len = b.len % 2 ^ 32 ∧ pageSize ∣ b.len

section Mmap

variable {node : DmaNode}

theorem Backed.request (backed : Backed node) (req : DmaRequest) :
    Backed (xpDmaIoctl node req).2 := by
  cases req with
  | phyMemAlloc kernel len =>
      change Backed (xpDmaMemAccess kernel len node).2
      rcases xpDmaMemAccess_cases kernel len node with ⟨-, lost, heq⟩ | ⟨-, p, -, heq⟩
      · rw [heq]
        intro entry hmem
        obtain ⟨b, hb, hsame⟩ := backed entry hmem
        exact ⟨b, liveBlocks_allocs hb lost, hsame⟩
      · have hnew : Backed (inserted p len node) := by
          intro entry hmem
          have hlive : liveBlocks (inserted p len node).dmaCalls =
              ⟨p.1, p.2, dmaArea len⟩ :: liveBlocks node.dmaCalls := liveBlocks_alloc _ _
          rw [hlive]
          rcases mem_inserted.mp hmem with hold | rfl
          · obtain ⟨b, hb, hsame⟩ := backed entry hold
            exact ⟨b, List.mem_cons_of_mem _ hb, hsame⟩
          · exact ⟨_, List.mem_cons_self, rfl, rfl, rfl, Nat.dvd_mul_left _ _⟩
        rw [heq]
        split
        · exact hnew
        · exact hnew
  | phyMemFree kernel paddr =>
      change Backed (xpDmaMemFree kernel paddr node).2
      unfold xpDmaMemFree
      split
      · exact backed
      split
      · exact backed
      intro entry hmem
      obtain ⟨hin, hne⟩ := List.mem_filter.mp hmem
      obtain ⟨b, hb, haddr, hpaddr, hsame⟩ := backed entry hin
      have hother : b.paddr ≠ paddr := by simpa [hpaddr] using hne
      exact ⟨b, liveBlocks_frees hb hother _, haddr, hpaddr, hsame⟩
  | dmaCleanUp =>
      intro entry hmem
      cases hmem

theorem backed_history (reqs : List DmaRequest) : Backed (dmaHistory emptyNode reqs) := by
  have hempty : Backed emptyNode := by
    intro entry hmem
    cases hmem
  exact history_invariant hempty (fun _ req backed => backed.request req) reqs

/-- What a mapping finds: an entry at the offset with room for the length, which is
below 2^31. -/
theorem xpDmaMmap_ok {vmPgoff : Nat} {length : Int} {addr : Nat} (hpos : 0 < length)
    (h : xpDmaMmap node vmPgoff length = .ok addr) :
    ∃ entry ∈ node.xpMemListHead, entry.offset = vmPgoff ∧ entry.addr = addr ∧
      length ≤ entry.len := by
  unfold xpDmaMmap at h
  split at h
  · cases h
  simp only at h
  split at h
  · cases h
  rename_i hroom
  cases hfound : mmapEntry node vmPgoff with
  | none =>
      rw [hfound] at hroom
      exact absurd hpos hroom
  | some entry =>
      rw [hfound] at hroom h
      unfold mmapEntry at hfound
      split at hfound
      · cases hfound
      refine ⟨entry, List.mem_of_find?_eq_some hfound, ?_, Except.ok.inj h, ?_⟩
      · simpa using List.find?_some hfound
      · have hle : asInt entry.len ≤ entry.len := by
          unfold asInt
          split <;> omega
        exact (Int.not_lt.mp hroom).trans hle

/-- **Mappings of DMA memory.** After every history of requests, a mapping of positive
length at any page offset is either turned down or of an entry that is on the list at
that offset, with a block that is allocated and pages enough: it is no longer than the
entry, nor the entry than its block. -/
theorem xpDmaMmap_within (reqs : List DmaRequest) (vmPgoff : Nat) (length : Int) (addr : Nat)
    (hpos : 0 < length) (h : xpDmaMmap (dmaHistory emptyNode reqs) vmPgoff length = .ok addr) :
    ∃ entry ∈ (dmaHistory emptyNode reqs).xpMemListHead,
      entry.offset = vmPgoff ∧ entry.addr = addr ∧ length ≤ entry.len ∧
      ∃ b ∈ liveBlocks (dmaHistory emptyNode reqs).dmaCalls,
        b.addr = entry.addr ∧ b.paddr = entry.paddr ∧ entry.len ≤ b.len ∧ pageSize ∣ b.len := by
  obtain ⟨entry, hmem, hoffset, haddr, hlen⟩ := xpDmaMmap_ok hpos h
  obtain ⟨b, hb, hbaddr, hbpaddr, hblen, hpages⟩ := backed_history reqs entry hmem
  exact ⟨entry, hmem, hoffset, haddr, hlen, b, hb, hbaddr, hbpaddr,
    hblen ▸ Nat.mod_le _ _, hpages⟩

/-- The first page of the first block. -/
theorem xpDmaMmap_within_first :
    ∃ entry ∈ (dmaHistory emptyNode [.phyMemAlloc (dmaKernel 0) 4096]).xpMemListHead,
      entry.offset = 0 ∧ entry.addr = 4096 ∧ (4096 : Int) ≤ entry.len ∧
      ∃ b ∈ liveBlocks (dmaHistory emptyNode [.phyMemAlloc (dmaKernel 0) 4096]).dmaCalls,
        b.addr = entry.addr ∧ b.paddr = entry.paddr ∧ entry.len ≤ b.len ∧ pageSize ∣ b.len :=
  xpDmaMmap_within [.phyMemAlloc (dmaKernel 0) 4096] 0 4096 4096 (by decide) (by decide +kernel)

end Mmap

end XpNet.Pci

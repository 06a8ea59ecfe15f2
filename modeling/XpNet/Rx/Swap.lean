/-
The byte swap of a received packet, round by round, and the polls that make it.

`swapLoop` is the loop of `__xpnet_endian_swap32` with its 16-bit counter and the
words it reverses. It ends exactly when its bound is below `0xffff`, and then it has
reversed the words from the first to the bound (`swapLoop_ends`, `swapLoop_runs`).

The bound comes from a packet's length minus one, and on A0 the length from a 16-bit
field minus 16. A field below 16 wraps to a length that the poll rejects; a field of
16 is a packet of no bytes, which the poll takes, and the swap does not end. So
polls return, and their swaps stay in the packet's words, exactly when the device
writes no such field on A0 (`polls_swap_iff`).
-/

import XpNet.Interference.Trace
import XpNet.Rx.Polls

namespace XpNet.Rx

open XpNet.Interference

/-! ### The loop -/

/-- `fuel` rounds of the loop of `__xpnet_endian_swap32` from `chr_num` on: the words
they reverse, and the buffer when the loop ends. -/
def swapLoop (bufSize : Nat) : Nat → Nat → Image → List Nat × Option Image
  | 0, _, _ => ([], none)
  | fuel + 1, chrNum, base =>
    if chrNum ≤ u32Sub bufSize 1 / 4 then
      let rest := swapLoop bufSize fuel ((chrNum + 1) % 2 ^ 16) (bswapWord base chrNum)
      (chrNum :: rest.1, rest.2)
    else ([], some base)

/-- `__xpnet_endian_swap32(base, buf_size, mode)` in `fuel` rounds. -/
def swapRounds (mode : AddressMode) (bufSize fuel : Nat) (base : Image) :
    List Nat × Option Image :=
  if mode = .a0Uncompressed then swapLoop bufSize fuel 0 base else ([], some base)

section Loop

variable {bufSize last : Nat}

/-- Below the bound `0xffff` the loop reverses the words up to it, and ends. By
induction on the rounds that are left. -/
theorem swapLoop_ends (bufSize : Nat) (hbound : u32Sub bufSize 1 / 4 = last)
    (hlast : last < 65535) (k : Nat) :
    ∀ chrNum base, chrNum + k = last + 1 →
      swapLoop bufSize (k + 1) chrNum base =
        (List.range' chrNum k, some ((List.range' chrNum k).foldl bswapWord base)) := by
  induction k with
  | zero =>
    intro chrNum base hsum
    have hdone : ¬ chrNum ≤ u32Sub bufSize 1 / 4 := by omega
    rw [swapLoop, if_neg hdone]
    rfl
  | succ k ih =>
    intro chrNum base hsum
    have hmore : chrNum ≤ u32Sub bufSize 1 / 4 := by omega
    have hnext : (chrNum + 1) % 2 ^ 16 = chrNum + 1 := Nat.mod_eq_of_lt (by omega)
    rw [swapLoop, if_pos hmore, hnext]
    dsimp only
    rw [ih (chrNum + 1) (bswapWord base chrNum) (by omega), List.range'_succ, List.foldl_cons]

/-- From the bound `0xffff` on the counter wraps before it is past it. -/
theorem swapLoop_runs (hlast : 65535 ≤ u32Sub bufSize 1 / 4) (fuel : Nat) :
    ∀ chrNum base, chrNum < 2 ^ 16 → (swapLoop bufSize fuel chrNum base).2 = none := by
  induction fuel with
  | zero => exact fun _ _ _ => rfl
  | succ fuel ih =>
    intro chrNum base hlt
    have hmore : chrNum ≤ u32Sub bufSize 1 / 4 := by omega
    rw [swapLoop, if_pos hmore]
    exact ih _ _ (Nat.mod_lt _ (by decide))

/-- More rounds change nothing when the loop has ended. -/
theorem swapLoop_fuel (fuel k : Nat) : ∀ {chrNum : Nat} {base va : Image},
    (swapLoop bufSize fuel chrNum base).2 = some va →
      swapLoop bufSize (fuel + k) chrNum base = swapLoop bufSize fuel chrNum base := by
  induction fuel with
  | zero => exact fun h => by cases h
  | succ fuel ih =>
    intro chrNum base va h
    rw [Nat.succ_add]
    unfold swapLoop at h ⊢
    split
    · rename_i hmore
      rw [if_pos hmore] at h
      dsimp only at h ⊢
      rw [ih h]
    · rfl

/-- The loop ends with what `xpnetEndianSwap32` says, or does not end. -/
theorem xpnetEndianSwap32_eq_some_iff {mode : AddressMode} {base va : Image} :
    xpnetEndianSwap32 base bufSize mode = some va ↔
      ∃ fuel, (swapRounds mode bufSize fuel base).2 = some va := by
  unfold xpnetEndianSwap32 swapRounds
  by_cases hmode : mode = .a0Uncompressed
  · simp only [if_pos hmode]
    by_cases hlast : u32Sub bufSize 1 / 4 < 65535
    · have hends := swapLoop_ends bufSize rfl hlast (u32Sub bufSize 1 / 4 + 1) 0 base
        (Nat.zero_add _)
      rw [if_pos hlast]
      constructor
      · intro h
        refine ⟨u32Sub bufSize 1 / 4 + 1 + 1, ?_⟩
        rw [hends, ← List.range_eq_range']
        exact h
      · rintro ⟨fuel, h⟩
        have hmore := swapLoop_fuel fuel (u32Sub bufSize 1 / 4 + 1 + 1) h
        have hends' := swapLoop_fuel (u32Sub bufSize 1 / 4 + 1 + 1) fuel (congrArg Prod.snd hends)
        rw [Nat.add_comm, hends', hends] at hmore
        rw [← hmore, ← List.range_eq_range'] at h
        exact h
    · rw [if_neg hlast]
      constructor
      · intro h
        cases h
      · rintro ⟨fuel, h⟩
        rw [swapLoop_runs (Nat.not_lt.mp hlast) fuel 0 base (by decide)] at h
        cases h
  · simp [if_neg hmode]

end Loop

/-! ### The device -/

/-- The device gives a descriptor that it owns any bits, any bytes and any `qword[1]`
of `writes`; and memory for socket buffers comes and goes. -/
inductive DeviceWrites (writes : Nat → Prop) : State → State → Prop where
  | desc (s : State) (i : Nat) (qword0 : BitVec 64) (va : Image) {qword1 : Nat}
      (own : s.owned i = true) (allowed : writes qword1) :
      DeviceWrites writes s (s.updDesc i (writeBack qword0 va qword1))
  | memory (s : State) (ok : Bool) : DeviceWrites writes s { s with allocOk := ok }

/-- A packet of no bytes, which the poll takes: on A0, with the 16 bytes in its length
field that the length counts too many. -/
def EmptyPacket (mode : AddressMode) (qword1 : Nat) : Prop :=
  mode = .a0Uncompressed ∧ qword1 / 2 ^ 16 % 2 ^ 16 = 16

theorem pktSize_eq_zero_iff {qword1 : Nat} :
    pktSize .a0Uncompressed qword1 = 0 ↔ EmptyPacket .a0Uncompressed qword1 := by
  have hfield : qword1 / 2 ^ 16 % 2 ^ 16 < 2 ^ 16 := Nat.mod_lt _ (by decide)
  unfold EmptyPacket pktSize
  rw [if_pos rfl]
  generalize qword1 / 2 ^ 16 % 2 ^ 16 = field at hfield
  constructor
  · intro hzero
    exact ⟨rfl, by omega⟩
  · rintro ⟨-, rfl⟩
    rfl

/-- The action that stores the swapped bytes does what the loop does: the words that it
reverses are those the packet lies in, in the 16384 bytes of the descriptor's buffer,
and nothing else is changed. -/
def SwapsPacket (lab : Ev) (s s' : State) : Prop :=
  ∀ i, lab = .storeBuf i →
    let size := pktSize s.mode (s.desc i).qword1
    ∃ fuel va, swapRounds s.mode size fuel (s.desc i).bufSta.va =
        (List.range (swappedWords size s.mode), some va) ∧
      s' = s.updDesc i (setVa va) ∧
      ∀ w ∈ List.range (swappedWords size s.mode),
        w < (size + 3) / 4 ∧ 4 * w + 4 ≤ xpnetMaxPacketSize

/-- The rounds of a swap that ends. -/
theorem swapRounds_eq {mode : AddressMode} {size : Nat} (base : Image)
    (hsize : size ≤ xpnetMaxPacketSize) (hpos : mode = .a0Uncompressed → 0 < size) :
    ∃ fuel, swapRounds mode size fuel base =
      (List.range (swappedWords size mode), some (swapWords base (swappedWords size mode))) := by
  have hle : size ≤ 16384 := hsize
  unfold swapRounds swappedWords
  by_cases hmode : mode = .a0Uncompressed
  · have hsub : u32Sub size 1 = size - 1 := by
      have := hpos hmode
      unfold u32Sub
      omega
    have hwords : (size - 1) / 4 + 1 = (size + 3) / 4 := by
      have := hpos hmode
      omega
    have hends := swapLoop_ends size rfl (by rw [hsub]; omega)
      ((size - 1) / 4 + 1) 0 base (by rw [hsub]; omega)
    refine ⟨(size - 1) / 4 + 1 + 1, ?_⟩
    rw [if_pos hmode, if_pos hmode, hends, hwords, ← List.range_eq_range']
    rfl
  · refine ⟨0, ?_⟩
    rw [if_neg hmode, if_neg hmode]
    rfl

/-! ### What the host and the device keep -/

/-- Every descriptor of the host has a `qword[1]` that is no empty packet, and every
buffer its full length. -/
structure NoneEmpty (mode : AddressMode) (s : State) : Prop where
  mode_eq : s.mode = mode
  lens : ∀ i, (s.desc i).bufSta.len = xpnetMaxPacketSize
  host : ∀ i, s.owned i = false → ¬ EmptyPacket mode (s.desc i).qword1

section Keeps

variable {mode : AddressMode} {s s' : State} {writes : Nat → Prop} {i n : Nat} {d : Desc}

theorem not_emptyPacket_armed : ¬ EmptyPacket mode xpnetMaxPacketSize := by
  rintro ⟨-, h⟩
  exact absurd h (by decide)

/-- A descriptor that is changed is given to the device, or has a `qword[1]` that is no
empty packet. -/
theorem NoneEmpty.upd (inv : NoneEmpty mode s) {f : Desc → Desc}
    (hlen : (f (s.desc i)).bufSta.len = (s.desc i).bufSta.len)
    (hhost : ownership (f (s.desc i)).qword0 = false →
      ¬ EmptyPacket mode (f (s.desc i)).qword1) : NoneEmpty mode (s.updDesc i f) := by
  constructor
  · exact inv.mode_eq
  · intro j
    by_cases hj : j = i
    · subst hj
      rw [updDesc_self, hlen]
      exact inv.lens j
    · rw [updDesc_of_ne s f hj]
      exact inv.lens j
  · intro j hown
    by_cases hj : j = i
    · subst hj
      rw [State.owned, updDesc_self] at hown
      rw [updDesc_self]
      exact hhost hown
    · rw [State.owned, updDesc_of_ne s f hj] at hown
      rw [updDesc_of_ne s f hj]
      exact inv.host j hown

theorem stable_noneEmpty (hwrites : ∀ qword1, writes qword1 → ¬ EmptyPacket mode qword1) :
    Stable (DeviceWrites writes) (NoneEmpty mode) := by
  rintro s s' step inv
  cases step with
  | desc i qword0 va own allowed => exact inv.upd rfl fun _ => hwrites _ allowed
  | memory ok => exact ⟨inv.mode_eq, inv.lens, inv.host⟩

/-- A descriptor of the host stays as it is. -/
theorem stable_hostDesc (hown : ownership d.qword0 = false) :
    Stable (DeviceWrites writes) fun s => s.desc i = d := by
  rintro s s' step hd
  cases step with
  | desc j qword0 va own allowed =>
    have hij : i ≠ j := by
      rintro rfl
      rw [State.owned, hd, hown] at own
      cases own
    exact (updDesc_of_ne s _ hij).trans hd
  | memory ok => exact hd

/-- An action that keeps the invariant and does not swap. -/
def Plain (mode : AddressMode) (lab : Ev) (u : State → State) : Prop :=
  (∀ i, lab ≠ .storeBuf i) ∧ ∀ s, NoneEmpty mode s → NoneEmpty mode (u s)

theorem plain_id {lab : Ev} (hlab : ∀ i, lab ≠ .storeBuf i) : Plain mode lab id :=
  ⟨hlab, fun _ inv => inv⟩

/-- A store to a descriptor that gives it to the device, or keeps its bits. -/
theorem plain_store {k : Fin 4} {f : Desc → Desc} (hlen : ∀ d, (f d).bufSta.len = d.bufSta.len)
    (hhost : ∀ d, d.bufSta.len = xpnetMaxPacketSize → ownership (f d).qword0 = false →
      ownership d.qword0 = false ∧ (f d).qword1 = d.qword1 ∨ (f d).qword1 = xpnetMaxPacketSize) :
    Plain mode (.storeQword i k) fun s => s.updDesc i f := by
  refine ⟨fun _ => by simp, ?_⟩
  intro s inv
  apply inv.upd (hlen _)
  intro hown
  rcases hhost _ (inv.lens i) hown with ⟨hbefore, hsame⟩ | harmed
  · rw [hsame]
    exact inv.host i hbefore
  · rw [harmed]
    exact not_emptyPacket_armed

end Keeps

/-! ### What is plain -/

section PlainPrograms

variable {mode : AddressMode} {i n : Nat}

theorem plain_giveBack (k : Fin 4) (bits : BitVec 64 → BitVec 64)
    (hbits : ∀ q, ownership (bits q) = true) :
    Plain mode (.storeQword i k) fun s => s.updDesc i fun d => setQword0 (bits d.qword0) d :=
  plain_store (fun _ => rfl) fun d _ hown => by
    rw [setQword0, hbits] at hown
    cases hown

theorem always_rejectDesc (count : Stats → Stats) :
    Always (Plain mode) (rejectDesc n i count) := by
  have hlook : ∀ j (k : Fin 4), Plain mode (.load j k) id :=
    fun _ _ => plain_id fun _ => by simp
  have hpriv : Plain mode .priv id := plain_id fun _ => by simp
  refine Always.bind ?reset fun _ => Always.bind ?enable fun _ => ?count
  case reset =>
    refine Always.look hpriv fun next => ⟨?q3, fun _ => ⟨?q2, fun _ => ⟨?q1, fun _ => ⟨?q0, ?_⟩⟩⟩⟩
    case q3 => exact plain_store (fun _ => rfl) fun _ _ hown => .inl ⟨hown, rfl⟩
    case q2 => exact plain_store (fun _ => rfl) fun _ _ hown => .inl ⟨hown, rfl⟩
    case q1 => exact plain_store (fun _ => rfl) fun _ _ _ => .inr rfl
    case q0 => exact plain_giveBack 0 (fun _ => ownBit) fun _ => ownership_ownBit
    exact fun _ => trivial
  case enable =>
    refine Always.look (hlook i 0) fun qword0 => ⟨?_, fun _ => trivial⟩
    exact plain_giveBack 0 (fun _ => enabledBits qword0) fun _ => by
      rw [enabledBits, ownership_or, ownership_ownBit, Bool.or_true]
  case count =>
    exact ⟨⟨fun _ => by simp, fun s inv => ⟨inv.mode_eq, inv.lens, inv.host⟩⟩, fun _ => trivial⟩

/-- What follows the swap of a packet. -/
def handOver (n i size : Nat) : RxProg Unit := do
  let frame ← Prog.look (.loadBuf i) fun s => readBytes (s.desc i).bufSta.va size
  storeDesc (.storeQword i 1) i fun d => { d with qword1 := d.bufSta.len }
  storeDesc (.storeQword i 0) i (setQword0 ownBit)
  let tail := xpnetAddAndWrap i 1 n
  Prog.write (.moveTail tail) fun s => { s with queue := { s.queue with tail := tail } }
  restartAtZero tail
  Prog.write (.deliver frame) fun s => { s with delivered := s.delivered ++ [frame] }

theorem takePacket_eq (size : Nat) :
    takePacket mode n i size = swapBuffer mode i size >>= fun _ => handOver n i size := rfl

theorem always_handOver (size : Nat) : Always (Plain mode) (handOver n i size) := by
  have hstate : ∀ {lab : Ev} {u : State → State}, (∀ j, lab ≠ .storeBuf j) →
      (∀ s, (u s).mode = s.mode ∧ (u s).desc = s.desc) → Plain mode lab u := by
    intro lab u hlab hkeeps
    refine ⟨hlab, fun s inv => ⟨(hkeeps s).1.trans inv.mode_eq, ?_, ?_⟩⟩
    · intro j
      rw [(hkeeps s).2]
      exact inv.lens j
    · intro j hown
      rw [State.owned, (hkeeps s).2] at hown
      rw [(hkeeps s).2]
      exact inv.host j hown
  refine Always.look (plain_id fun _ => by simp) fun frame =>
    ⟨?q1, fun _ => ⟨?q0, fun _ => ⟨?tail,
      fun _ => Always.bind (p := restartAtZero _) ?restart fun _ => ?deliver⟩⟩⟩
  case q1 => exact plain_store (fun _ => rfl) fun _ hlen _ => .inr hlen
  case q0 => exact plain_giveBack 0 (fun _ => ownBit) fun _ => ownership_ownBit
  case tail => exact hstate (fun _ => by simp) fun _ => ⟨rfl, rfl⟩
  case restart =>
    unfold restartAtZero
    split
    · exact ⟨hstate (fun _ => by simp) fun _ => ⟨rfl, rfl⟩, fun _ =>
        ⟨hstate (fun _ => by simp) fun _ => ⟨rfl, rfl⟩, fun _ => trivial⟩⟩
    · trivial
  case deliver => exact ⟨hstate (fun _ => by simp) fun _ => ⟨rfl, rfl⟩, fun _ => trivial⟩

end PlainPrograms

/-! ### The polls -/

/-- The weakest precondition with such a device, every swap staying in its packet. -/
abbrev SwapWp (writes : Nat → Prop) {α : Type} (p : RxProg α) (Q : α → State → Prop) (s : State) :
    Prop :=
  wp (DeviceWrites writes) (fun _ _ => True) (fun s lab s' => SwapsPacket lab s s') p Q s

section Polls

variable {writes : Nat → Prop} {mode : AddressMode} {s : State} {i n : Nat} {d : Desc}

theorem swapsPacket_of_ne {lab : Ev} {s s' : State} (h : ∀ i, lab ≠ .storeBuf i) :
    SwapsPacket lab s s' := fun i hi => absurd hi (h i)

section Rounds

variable (hwrites : ∀ qword1, writes qword1 → ¬ EmptyPacket mode qword1)

include hwrites

theorem wp_plain {α : Type} {p : RxProg α} (always : Always (Plain mode) p)
    (inv : NoneEmpty mode s) : SwapWp writes p (fun _ t => NoneEmpty mode t) s :=
  wp_frame (stable_noneEmpty hwrites) inv
    (always.mono fun _ _ plain t ht _ => ⟨swapsPacket_of_ne plain.1, plain.2 t ht⟩)

/-- The swap of a packet in a descriptor of the host. -/
theorem wp_swapBuffer_host (hown : ownership d.qword0 = false)
    (hsize : pktSize mode d.qword1 ≤ xpnetMaxPacketSize) (inv : NoneEmpty mode s)
    (hd : s.desc i = d) :
    SwapWp writes (swapBuffer mode i (pktSize mode d.qword1)) (fun _ t => NoneEmpty mode t) s := by
  have stays : Stable (DeviceWrites writes) fun s => s.desc i = d := stable_hostDesc hown
  have stable := (stable_noneEmpty hwrites).and stays
  have hpos : mode = .a0Uncompressed → 0 < pktSize mode d.qword1 := by
    rintro rfl
    have hhost := inv.host i (by rw [State.owned, hd, hown])
    rw [hd, ← pktSize_eq_zero_iff] at hhost
    exact Nat.pos_of_ne_zero hhost
  have hswap : ∀ base, xpnetEndianSwap32 base (pktSize mode d.qword1) mode =
      some (swapWords base (swappedWords (pktSize mode d.qword1) mode)) :=
    fun base => xpnetEndianSwap32_of_frameOk ⟨hsize, hpos⟩ base
  refine wp_look stable ⟨inv, hd⟩ fun t ht _ => ⟨swapsPacket_of_ne fun _ => by simp, ?_⟩
  have htd := ht.2
  rw [htd, hswap]
  refine wp_act stable ht fun u hu _ => ⟨?_, wp_ret (stable_noneEmpty hwrites) ?_ fun _ h => h⟩
  · obtain ⟨invu, hud⟩ := hu
    intro j hj
    cases hj
    rw [invu.mode_eq, hud]
    obtain ⟨fuel, hrounds⟩ := swapRounds_eq d.bufSta.va hsize hpos
    refine ⟨fuel, _, hrounds, rfl, ?_⟩
    intro w hw
    have hle : pktSize mode d.qword1 ≤ 16384 := hsize
    have hlt := List.mem_range.mp hw
    unfold swappedWords at hlt
    change w < _ ∧ 4 * w + 4 ≤ 16384
    split at hlt
    · omega
    · omega
  · exact hu.1.upd rfl fun hhost => hu.1.host i hhost

theorem wp_takePacket_host (hown : ownership d.qword0 = false)
    (hsize : pktSize mode d.qword1 ≤ xpnetMaxPacketSize) (inv : NoneEmpty mode s)
    (hd : s.desc i = d) :
    SwapWp writes (takePacket mode n i (pktSize mode d.qword1)) (fun _ t => NoneEmpty mode t)
      s := by
  rw [takePacket_eq]
  exact wp_seq (wp_swapBuffer_host hwrites hown hsize inv hd) fun _ _ ht =>
    wp_plain hwrites (always_handOver _) ht

theorem wp_pollOwned_host (hown : ownership d.qword0 = false) (inv : NoneEmpty mode s)
    (hd : s.desc i = d) :
    SwapWp writes (pollOwned mode n i) (fun _ t => NoneEmpty mode t) s := by
  have stays : Stable (DeviceWrites writes) fun s => s.desc i = d := stable_hostDesc hown
  have stable := (stable_noneEmpty hwrites).and stays
  have stableInv := stable_noneEmpty hwrites
  refine wp_write stable ⟨inv, hd⟩ fun t ht _ => ⟨swapsPacket_of_ne fun _ => by simp, ?_⟩
  have ht' : NoneEmpty mode { t with jiffiesDefer := 0 } ∧
      ({ t with jiffiesDefer := 0 } : State).desc i = d :=
    ⟨⟨ht.1.mode_eq, ht.1.lens, ht.1.host⟩, ht.2⟩
  refine wp_look stable ht' fun u hu _ => ⟨swapsPacket_of_ne fun _ => by simp, ?_⟩
  rw [hu.2]
  by_cases hlong : pktSize mode d.qword1 > xpnetMaxPacketSize
  · dsimp only
    rw [if_pos hlong]
    exact wp_seq (wp_plain hwrites (always_rejectDesc _) hu.1) fun _ _ hv =>
      wp_ret stableInv hv fun _ h => h
  · dsimp only
    rw [if_neg hlong]
    refine wp_look stable hu fun v hv _ => ⟨swapsPacket_of_ne fun _ => by simp, ?_⟩
    by_cases hmem : v.allocOk = true
    · rw [if_pos hmem]
      exact wp_seq (wp_takePacket_host hwrites hown (Nat.not_lt.mp hlong) hv.1 hv.2)
        fun _ _ hw => wp_ret stableInv hw fun _ h => h
    · rw [if_neg hmem]
      exact wp_ret stableInv hv.1 fun _ h => h

theorem wp_pollRound_host (inv : NoneEmpty mode s) :
    SwapWp writes pollRound (fun _ t => NoneEmpty mode t) s := by
  have stable := stable_noneEmpty hwrites
  refine wp_look stable inv fun t ht _ => ⟨swapsPacket_of_ne fun _ => by simp, ?_⟩
  simp only [id, ht.mode_eq]
  refine wp_look stable ht fun u hu _ => ⟨swapsPacket_of_ne fun _ => by simp, ?_⟩
  split
  · exact wp_seq (wp_plain hwrites (always_rejectDesc _) hu) fun _ _ hv =>
      wp_ret stable hv fun _ h => h
  · refine wp_look stable hu fun v hv _ => ⟨swapsPacket_of_ne fun _ => by simp, ?_⟩
    split
    · exact wp_ret stable hv fun _ h => h
    · rename_i hown
      exact wp_pollOwned_host hwrites (by simpa using hown) hv rfl

theorem wp_pollLoop_host (fuel count : Nat) (inv : NoneEmpty mode s) :
    SwapWp writes (pollLoop fuel count) (fun _ t => NoneEmpty mode t) s := by
  induction fuel generalizing count s with
  | zero => exact wp_ret (stable_noneEmpty hwrites) inv fun _ h => h
  | succ fuel ih =>
    apply wp_seq (wp_pollRound_host hwrites inv)
    intro exit t ht
    cases exit with
    | none => exact ih _ ht
    | some exit => exact wp_ret (stable_noneEmpty hwrites) ht fun _ h => h

theorem wp_runPolls_host (polls : List Nat) (inv : NoneEmpty mode s) :
    SwapWp writes (runPolls polls) (fun _ t => NoneEmpty mode t) s := by
  refine wp_forM (stable_noneEmpty hwrites) (fun maxiter s inv => ?_) polls inv
  exact wp_seq (wp_pollLoop_host hwrites maxiter 0 inv) fun _ _ ht =>
    wp_ret (stable_noneEmpty hwrites) ht fun _ h => h

end Rounds

end Polls

/-! ### The actions of a poll -/

section Actions

variable {mode : AddressMode} {i n size : Nat}

theorem within_rejectDesc (count : Stats → Stats) : Within 8 (rejectDesc n i count) :=
  fun _ _ _ _ _ _ _ _ => trivial

theorem within_swapBuffer : Within 2 (swapBuffer mode i size) := by
  intro s
  simp only [Prog.bind]
  split
  · exact fun _ => trivial
  · trivial

theorem within_restartAtZero (tail : Nat) : Within 2 (restartAtZero tail) := by
  unfold restartAtZero
  split
  · exact fun _ _ => trivial
  · trivial

theorem within_handOver : Within 7 (handOver n i size) :=
  fun _ _ _ _ => Within.bind (m := 2) (n := 1) (p := restartAtZero _) (within_restartAtZero _)
    fun _ _ => trivial

theorem within_takePacket : Within 9 (takePacket mode n i size) := by
  rw [takePacket_eq]
  exact Within.bind (m := 2) within_swapBuffer fun _ => within_handOver

theorem within_pollOwned : Within 12 (pollOwned mode n i) := by
  intro s t
  change Within 10 (if pktSize mode (t.desc i).qword1 > xpnetMaxPacketSize then _ else _)
  split
  · exact Within.bind (m := 8) (n := 2) (within_rejectDesc _) fun _ => trivial
  · intro u
    change Within 9 (if u.allocOk = true then _ else _)
    split
    · exact Within.bind (m := 9) (n := 0) within_takePacket fun _ => trivial
    · trivial

theorem within_pollRound : Within 15 pollRound := by
  intro s t
  change Within 13 (if (t.desc s.queue.tail).qword0 >>> 0 = 1 then _ else _)
  split
  · exact Within.bind (m := 8) (n := 5) (within_rejectDesc _) fun _ => trivial
  · intro u
    change Within 12 (if ownership (u.desc s.queue.tail).qword0 = true then _ else _)
    split
    · trivial
    · exact within_pollOwned

theorem within_pollLoop (fuel count : Nat) : Within (15 * fuel) (pollLoop fuel count) := by
  induction fuel generalizing count with
  | zero => trivial
  | succ fuel ih =>
    rw [Nat.mul_succ, Nat.add_comm]
    apply Within.bind within_pollRound
    intro exit
    cases exit with
    | none => exact ih _
    | some exit => cases 15 * fuel <;> trivial

theorem within_runPolls (polls : List Nat) : Within (15 * polls.sum) (runPolls polls) := by
  induction polls with
  | nil => trivial
  | cons maxiter polls ih =>
    rw [List.sum_cons, Nat.mul_add]
    refine Within.bind (p := do
      let _ ← xpnetRxQueueProcess maxiter
      pure ()) ?_ fun _ => ih
    exact Within.bind (m := 15 * maxiter) (n := 0) (within_pollLoop maxiter 0) fun _ => trivial

end Actions

/-! ### Every poll -/

/-- Linking and enabling leave the buffers, `qword[1]` and `qword[2]` alone. -/
theorem linkAndEnable_keeps (q : Queue) (i : Nat) :
    ((xpnetRxQueueLinkAndEnable q).descMeta i).bufSta = (q.descMeta i).bufSta ∧
      ((xpnetRxQueueLinkAndEnable q).descMeta i).qword1 = (q.descMeta i).qword1 ∧
      ((xpnetRxQueueLinkAndEnable q).descMeta i).qword2 = (q.descMeta i).qword2 := by
  have hlink : ((xpnetQueueDescLink q false).descMeta i).bufSta = (q.descMeta i).bufSta ∧
      ((xpnetQueueDescLink q false).descMeta i).qword1 = (q.descMeta i).qword1 ∧
      ((xpnetQueueDescLink q false).descMeta i).qword2 = (q.descMeta i).qword2 := by
    simp only [xpnetQueueDescLink, Bool.false_eq_true, if_false]
    by_cases hlast : i = q.xpqNumDesc - 1
    · subst hlast
      rw [Function.update_self]
      split <;> exact ⟨rfl, rfl, rfl⟩
    · rw [Function.update_of_ne hlast]
      split <;> exact ⟨rfl, rfl, rfl⟩
  unfold xpnetRxQueueLinkAndEnable
  dsimp only
  split
  · exact hlink
  · exact hlink

section Ends

variable {n : Nat} {s₀ : State}

theorem Initial.noneEmpty (init : Initial n s₀) : NoneEmpty s₀.mode s₀ := by
  obtain ⟨⟨dma, bufs, hqueue, -⟩, -⟩ := init
  have hkeeps (i : Nat) := linkAndEnable_keeps
    { xpqNumDesc := n, status := .stopped, tail := 0, head := 0, dma := dma
      descMeta := fun i => xpnetRxDescInit dma i
        { va := (bufs i).1, dma := (bufs i).2, len := xpnetMaxPacketSize } } i
  have hdesc : ∀ i, (s₀.desc i).bufSta.len = xpnetMaxPacketSize ∧
      (s₀.desc i).qword1 = xpnetMaxPacketSize := by
    intro i
    rw [State.desc, hqueue]
    exact ⟨congrArg Shard.len (hkeeps i).1, (hkeeps i).2.1⟩
  refine ⟨rfl, fun i => (hdesc i).1, fun i _ => ?_⟩
  rw [(hdesc i).2]
  exact not_emptyPacket_armed

theorem Initial.owned_zero (pos : 0 < n) (init : Initial n s₀) :
    s₀.owned 0 = true ∧ s₀.queue.tail = 0 := by
  obtain ⟨⟨dma, bufs, hqueue, -⟩, -⟩ := init
  have harmed := (linkAndEnable_spec (q := {
    xpqNumDesc := n, status := .stopped, tail := 0, head := 0, dma := dma
    descMeta := fun i => xpnetRxDescInit dma i
      { va := (bufs i).1, dma := (bufs i).2, len := xpnetMaxPacketSize } }) pos
    fun _ _ => ⟨rfl, rfl⟩).2 0 pos
  rw [State.owned, State.desc, hqueue]
  refine ⟨?_, rfl⟩
  change ownership ((xpnetRxQueueLinkAndEnable _).descMeta 0).qword0 = true
  rw [harmed]
  exact ownership_ownBit

/-- A poll that finds an empty packet does not return. -/
theorem crashes_emptyPacket {writes : Nat → Prop} {s : State}
    (hbits : (s.desc s.queue.tail).qword0 = 0)
    (hempty : EmptyPacket s.mode (s.desc s.queue.tail).qword1) (hmem : s.allocOk = true) :
    Crashes (DeviceWrites writes) (runPolls [1]) s := by
  obtain ⟨hmode, hfield⟩ := hempty
  have hzero : pktSize s.mode (s.desc s.queue.tail).qword1 = 0 := by
    rw [hmode, pktSize_eq_zero_iff]
    exact ⟨rfl, hfield⟩
  have hswap : Crashes (DeviceWrites writes) (swapBuffer s.mode s.queue.tail 0)
      { s with jiffiesDefer := 0 } := by
    apply Crashes.look
    rw [hmode]
    exact .here
  have howned : Crashes (DeviceWrites writes)
      (pollOwned s.mode s.queue.xpqNumDesc s.queue.tail) s := by
    refine .act .refl (Crashes.look ?_)
    change Crashes _ (if pktSize s.mode (s.desc s.queue.tail).qword1 > _ then _ else _) _
    rw [hzero, if_neg (by decide)]
    apply Crashes.look
    change Crashes _ (if s.allocOk = true then _ else _) _
    rw [if_pos hmem]
    change Crashes _ (takePacket s.mode s.queue.xpqNumDesc s.queue.tail
      (pktSize s.mode (s.desc s.queue.tail).qword1) >>= fun _ => pure none) _
    rw [hzero, takePacket_eq]
    exact Crashes.seq (Crashes.seq hswap)
  have hround : Crashes (DeviceWrites writes) pollRound s := by
    refine Crashes.look (Crashes.look ?_)
    change Crashes _ (if (s.desc s.queue.tail).qword0 >>> 0 = 1 then _ else _) _
    rw [hbits, if_neg (by decide)]
    apply Crashes.look
    change Crashes _ (if ownership (s.desc s.queue.tail).qword0 = true then _ else _) _
    rw [hbits, if_neg (by decide)]
    exact howned
  exact Crashes.seq (Crashes.seq (Crashes.seq hround))

/-- **The byte swap of every poll.** Where the device writes `qword[1]`s of `writes`,
every poll returns after a bounded number of actions, and every swap reverses the words
its packet lies in and stays in the buffer, exactly when none of them is an empty
packet. -/
theorem polls_swap_iff (writes : Nat → Prop) (pos : 0 < n) (init : Initial n s₀) :
    (∀ polls p s tr, Reach (DeviceWrites writes) (fun _ _ => True) (runPolls polls) s₀ p s tr →
      p ≠ .diverge ∧ tr.length ≤ 15 * polls.sum ∧
        ∀ lab, p.label? = some lab → SwapsPacket lab s (p.after s)) ↔
      ∀ qword1, writes qword1 → ¬ EmptyPacket s₀.mode qword1 := by
  constructor
  · intro hall qword1 hwrites hempty
    obtain ⟨howned, htail⟩ := init.owned_zero pos
    let s₁ : State := { s₀ with allocOk := true }
    let s₂ := s₁.updDesc 0 (writeBack 0 (fun _ => 0) qword1)
    have hdesc : s₂.desc s₂.queue.tail = writeBack 0 (fun _ => 0) qword1 (s₁.desc 0) := by
      change s₂.desc s₀.queue.tail = _
      rw [htail]
      exact updDesc_self s₁ 0 _
    have crash : Crashes (DeviceWrites writes) (runPolls [1]) s₂ := by
      apply crashes_emptyPacket
      · rw [hdesc]
        rfl
      · rw [hdesc]
        exact hempty
      · rfl
    have before : Reach (DeviceWrites writes) (fun _ _ => True) (runPolls [1]) s₀
        (runPolls [1]) s₂ [] :=
      .env (.env .start (.memory s₀ true)) (.desc s₁ 0 0 (fun _ => 0) howned hwrites)
    obtain ⟨_, _, run⟩ := crash.reach before
    exact (hall [1] _ _ _ run).1 rfl
  · intro hwrites polls p s tr run
    have verified := wp_runPolls_host hwrites polls init.noneEmpty
    obtain ⟨m, -, hlen⟩ := run.length_le (within_runPolls polls)
    refine ⟨?_, by omega, fun lab label => run.next verified label trivial⟩
    rintro rfl
    exact run.wp verified

end Ends

/-- The driver's queue on A0, with a device that writes packets of one byte. -/
theorem polls_swap_iff_one_byte :
    ¬ EmptyPacket .a0Uncompressed (17 * 2 ^ 16) ∧
    ∀ polls p s tr, Reach (DeviceWrites fun qword1 => qword1 = 17 * 2 ^ 16) (fun _ _ => True)
      (runPolls polls) (freshState .a0Uncompressed xpnetRxNumDescs) p s tr →
      p ≠ .diverge ∧ tr.length ≤ 15 * polls.sum ∧
        ∀ lab, p.label? = some lab → SwapsPacket lab s (p.after s) := by
  have oneByte : ¬ EmptyPacket .a0Uncompressed (17 * 2 ^ 16) := fun empty => by
    exact absurd empty.2 (by decide)
  refine ⟨oneByte, (polls_swap_iff _ (by decide)
    (initial_freshState .a0Uncompressed xpnetRxNumDescs)).mpr ?_⟩
  rintro _ rfl
  exact oneByte

/-- A length field of 16 on A0: the swap of its packet does not end. -/
theorem polls_swap_empty :
    ¬ ∀ polls p s tr, Reach (DeviceWrites fun _ => True) (fun _ _ => True) (runPolls polls)
      (freshState .a0Uncompressed xpnetRxNumDescs) p s tr →
      p ≠ .diverge ∧ ∀ lab, p.label? = some lab → SwapsPacket lab s (p.after s) := by
  intro always
  let s₀ := freshState .a0Uncompressed xpnetRxNumDescs
  let s₁ := s₀.updDesc 0 (writeBack 0 (fun _ => 0) (16 * 2 ^ 16))
  have before : Reach (DeviceWrites fun _ => True) (fun _ _ => True) (runPolls [1]) s₀
      (runPolls [1]) s₁ [] := .env .start (.desc s₀ 0 0 (fun _ => 0) (by decide +kernel) trivial)
  have hdesc : s₁.desc s₁.queue.tail = writeBack 0 (fun _ => 0) (16 * 2 ^ 16) (s₀.desc 0) :=
    updDesc_self s₀ 0 _
  have crash : Crashes (DeviceWrites fun _ => True) (runPolls [1]) s₁ := by
    apply crashes_emptyPacket
    · rw [hdesc]
      rfl
    · rw [hdesc]
      exact ⟨rfl, by decide⟩
    · rfl
  obtain ⟨_, _, run⟩ := crash.reach before
  exact (always [1] _ _ _ run).1 rfl

end XpNet.Rx

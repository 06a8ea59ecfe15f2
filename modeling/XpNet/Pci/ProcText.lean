/-
The text of `/proc/xpregaccess`.

A user writes a command and reads the answer: `w 0x8 0x12` stores a register, `r 0x8`
loads one, `help` asks for the usage. The driver finds out which with `sscanf`, one format
after the other, and prints the answer with `snprintf`.

* `proc_write_serves`: the texts that touch a register are exactly those its formats accept;
  each touches one register, once, and the answer names it.
* `proc_value_comes_back`: on registers that behave like memory, the value that one text
  stores is what the file shows after a text that loads it, whatever texts for other
  registers are written in between.
-/

import XpNet.Pci.RegMemory
import XpNet.Scan

namespace XpNet.Pci

open XpNet.Intf (einval)
open XpNet.Scan

variable {δ : Type}

/-! ### Commands -/

/-- The formats of the two commands. -/
def writeFormat : List Piece := pieces "w 0x%x 0x%x".toList
def readFormat : List Piece := pieces "r 0x%x".toList

/-- `NAME_STR_HELP`. -/
def nameStrHelp : List Char := "help".toList

/-- `!strnicmp(s, NAME_STR_HELP, sizeof(NAME_STR_HELP) - 1)`. -/
def IsHelp (s : List Char) : Prop := (s.take nameStrHelp.length).map Char.toLower = nameStrHelp

instance instDecidableIsHelp (s : List Char) : Decidable (IsHelp s) :=
  inferInstanceAs (Decidable (_ = _))

/-- What `xpreg_proc_write` makes of the text at `buf`, up to its first zero byte. -/
def procText (buf : List Char) : ProcText :=
  match scan writeFormat buf with
  | [regIndex, regValue] => .w regIndex regValue
  | _ =>
    match scan readFormat buf with
    | [regIndex] => .r regIndex
    | _ => if IsHelp buf then .help else .other

/-! ### Answers -/

/-- The formats of the two answers. -/
def wroteFormat : List Piece := pieces "Write register = 0x%x value = 0x%x\n".toList
def hasReadFormat : List Piece := pieces "Read register = 0x%x value = 0x%x\n".toList

/-- `REG_RW_STATUS_SIZE`. -/
def regRwStatusSize : Nat := 200

/-- `snprintf(buf, size, ..)` of this text. -/
def snprintf (size : Nat) (text : List Char) : List Char := text.take (size - 1)

/-- What is printed into `reg_rw_status`. -/
def RegRwStatus.printed : RegRwStatus → List Char
  | .empty => []
  | .writeFailed => "Register write failed\n".toList
  | .wrote regIndex regValue => print wroteFormat [regIndex, regValue]
  | .readFailed => "Register read failed\n".toList
  | .hasRead regIndex regValue => print hasReadFormat [regIndex, regValue]
  | .help => nameStrHelp

/-- `reg_rw_status`, up to its first zero byte. -/
def RegRwStatus.text (status : RegRwStatus) : List Char :=
  snprintf (regRwStatusSize - 1) status.printed

/-- `XPREG_PROC_FILE_PATH` and the minor. -/
def xpregProcFile (minor : Nat) : String := "/proc/xpregaccess" ++ toString minor

/-- `reg_procfs_help(sf, minor)`. -/
def regProcfsHelp (minor : Nat) : List Char :=
  let file := xpregProcFile minor
  ("\nUsage: echo [OPTIONS] >" ++ file ++ "; cat " ++ file ++ "\n\n" ++
    "1) To read register value.\n" ++
    "\techo r <regoffset> >" ++ file ++ "; cat " ++ file ++
    "\n\tex1: echo r 0x25e82f4 >" ++ file ++ "; cat " ++ file ++
    "\n\n2) To write register value.\n" ++
    "\techo w <regoffset> <value> >" ++ file ++ "; cat " ++ file ++
    "\n\tex1: echo w 0x25e82f4 0x12 >" ++ file ++ "; cat " ++ file ++
    "\n\n3) To print help.\n" ++
    "\techo help >" ++ file ++ "; cat " ++ file ++ "\n").toList

/-- `xpreg_seq_show(sf, v)`: what a read of the file shows. -/
def xpregSeqShow (minor : Nat) (regRwStatus : List Char) : List Char :=
  if IsHelp regRwStatus then regProcfsHelp minor
  else if regRwStatus.length < 1 then
    "Invalid input. Please find help as below..".toList ++ regProcfsHelp minor
  else regRwStatus ++ ['\n']

/-! ### The file -/

/-- The file of a device. -/
structure ProcFile (δ : Type) where
  regRwStatus : RegRwStatus
  device : δ

/-- A `write` of the file: the text at `buf`, and `bufsize`. -/
structure ProcWrite where
  buf : List Char
  bufsize : Nat

/-- The file after a `write`. -/
def ProcFile.write (regs : Registers δ) (file : ProcFile δ) (call : ProcWrite) : ProcFile δ :=
  let r := xpregProcWrite regs (procText call.buf) call.bufsize file.regRwStatus file.device
  { regRwStatus := r.2.1, device := r.2.2 }

/-- What a read of the file shows. -/
def ProcFile.shown (file : ProcFile δ) (minor : Nat) : List Char :=
  xpregSeqShow minor file.regRwStatus.text

/-! ### What a text asks for -/

section Texts

variable {buf : List Char} {regIndex regValue : BitVec 32} {vs : List (BitVec 32)}

theorem scan_writeFormat :
    scan writeFormat buf = [regIndex, regValue] ↔ Reads writeFormat buf [regIndex, regValue] :=
  (and_iff_left rfl).symm.trans (scan_eq_iff (by simp [writeFormat, pieces, EndsInHex]))

theorem scan_readFormat : scan readFormat buf = [regIndex] ↔ Reads readFormat buf [regIndex] :=
  (and_iff_left rfl).symm.trans (scan_eq_iff (by simp [readFormat, pieces, EndsInHex]))

theorem reads_writeFormat_head (reads : Reads writeFormat buf vs) : buf.head? = some 'w' := by
  cases reads with
  | space space _ _ => cases space
  | char _ _ => rfl

theorem reads_readFormat_head (reads : Reads readFormat buf vs) : buf.head? = some 'r' := by
  cases reads with
  | space space _ _ => cases space
  | char _ _ => rfl

theorem reads_writeFormat_values (reads : Reads writeFormat buf vs) :
    ∃ regIndex regValue, vs = [regIndex, regValue] := by
  have length := (reads.scan (by simp [writeFormat, pieces, EndsInHex])).2
  exact List.length_eq_two.mp length

theorem reads_readFormat_values (reads : Reads readFormat buf vs) : ∃ regIndex, vs = [regIndex] := by
  have length := (reads.scan (by simp [readFormat, pieces, EndsInHex])).2
  exact List.length_eq_one_iff.mp length

/-- A text is a write exactly if the first format accepts it. -/
theorem procText_eq_w_iff :
    procText buf = .w regIndex regValue ↔ Reads writeFormat buf [regIndex, regValue] := by
  rw [← scan_writeFormat]
  constructor
  · intro text
    unfold procText at text
    split at text
    case h_1 i v scanned =>
      obtain ⟨rfl, rfl⟩ := ProcText.w.inj text
      exact scanned
    case h_2 =>
      split at text
      · cases text
      · split at text
        · cases text
        · cases text
  · intro scanned
    rw [procText, scanned]

/-- A text is a read exactly if the second format accepts it; the first does not then. -/
theorem procText_eq_r_iff : procText buf = .r regIndex ↔ Reads readFormat buf [regIndex] := by
  constructor
  · intro text
    rw [← scan_readFormat]
    unfold procText at text
    split at text
    case h_1 => cases text
    case h_2 =>
      split at text
      case h_1 i scanned =>
        obtain rfl := ProcText.r.inj text
        exact scanned
      case h_2 =>
        split at text
        · cases text
        · cases text
  · intro reads
    unfold procText
    split
    case h_1 i v scanned =>
      have first := reads_writeFormat_head (scan_writeFormat.mp scanned)
      rw [reads_readFormat_head reads] at first
      cases first
    case h_2 => rw [scan_readFormat.mpr reads]

/-- Any other text is `help` or nothing. -/
theorem procText_nothing (noWrite : ∀ vs, ¬ Reads writeFormat buf vs)
    (noRead : ∀ vs, ¬ Reads readFormat buf vs) :
    procText buf = if IsHelp buf then .help else .other := by
  unfold procText
  split
  case h_1 i v scanned => exact absurd (scan_writeFormat.mp scanned) (noWrite _)
  case h_2 =>
    split
    case h_1 i scanned => exact absurd (scan_readFormat.mp scanned) (noRead _)
    case h_2 => rfl

end Texts

/-! ### What a text does -/

/-- What a `write` of `buf` does to a device in `s`: the accesses to it, what is then in
`reg_rw_status`, and the device after it. -/
inductive Serves (regs : Registers δ) (buf : List Char) (s : δ) :
    List RegAccess → RegRwStatus → δ → Prop where
  | store {regIndex regValue : BitVec 32} : Reads writeFormat buf [regIndex, regValue] →
      Serves regs buf s [.store regIndex.toNat regValue] (.wrote regIndex regValue)
        (regs.store regIndex.toNat regValue s)
  | load {regIndex : BitVec 32} : Reads readFormat buf [regIndex] →
      Serves regs buf s [.load .dword regIndex.toNat]
        (.hasRead regIndex (regs.loadU32 .dword regIndex.toNat s).1)
        (regs.loadU32 .dword regIndex.toNat s).2
  | nothing : (∀ vs, ¬ Reads writeFormat buf vs) → (∀ vs, ¬ Reads readFormat buf vs) →
      Serves regs buf s [] (if IsHelp buf then .help else .empty) s

section Writes

variable {regs : Registers δ} {bufsize : Nat} {status : RegRwStatus} {s : δ}

theorem xpregProcWrite_w (sized : bufsize ≠ 0) (regIndex regValue : BitVec 32) :
    xpregProcWrite regs (.w regIndex regValue) bufsize status s =
      (bufsize, .wrote regIndex regValue, regs.store regIndex.toNat regValue s) := by
  rw [xpregProcWrite, if_neg sized]
  rfl

theorem xpregProcWrite_r (sized : bufsize ≠ 0) (regIndex : BitVec 32) :
    xpregProcWrite regs (.r regIndex) bufsize status s =
      (bufsize, .hasRead regIndex (regs.loadU32 .dword regIndex.toNat s).1,
        (regs.loadU32 .dword regIndex.toNat s).2) := by
  rw [xpregProcWrite, if_neg sized]
  rfl

/-- A text that neither format accepts touches nothing. -/
theorem xpregProcWrite_nothing (sized : bufsize ≠ 0) {buf : List Char}
    (noWrite : ∀ vs, ¬ Reads writeFormat buf vs) (noRead : ∀ vs, ¬ Reads readFormat buf vs) :
    xpregProcWrite regs (procText buf) bufsize status s =
      (bufsize, if IsHelp buf then .help else .empty, s) := by
  rw [procText_nothing noWrite noRead]
  by_cases help : IsHelp buf
  · rw [if_pos help, if_pos help, xpregProcWrite, if_neg sized]
  · rw [if_neg help, if_neg help, xpregProcWrite, if_neg sized]

/-- **What the file does with a text.** A `write` touches the device as its text asks, and
touches it no further: one register, named by the text and by the answer, or none. -/
theorem proc_write_serves (regs : Registers δ) (file : ProcFile δ) (call : ProcWrite)
    (sized : call.bufsize ≠ 0) (accesses : List RegAccess) (status : RegRwStatus) (after : δ) :
    Serves regs call.buf file.device accesses status after ↔
      ProcFile.write regs.traced { file with device := (file.device, []) } call =
        { regRwStatus := status, device := (after, accesses) } := by
  constructor
  · intro serves
    cases serves with
    | store reads =>
        rw [ProcFile.write, procText_eq_w_iff.mpr reads, xpregProcWrite_w sized]
        rfl
    | load reads =>
        rw [ProcFile.write, procText_eq_r_iff.mpr reads, xpregProcWrite_r sized]
        rfl
    | nothing noWrite noRead =>
        rw [ProcFile.write, xpregProcWrite_nothing sized noWrite noRead]
  · intro written
    by_cases store : ∃ vs, Reads writeFormat call.buf vs
    · obtain ⟨vs, reads⟩ := store
      obtain ⟨regIndex, regValue, rfl⟩ := reads_writeFormat_values reads
      rw [ProcFile.write, procText_eq_w_iff.mpr reads, xpregProcWrite_w sized] at written
      cases written
      exact .store reads
    · by_cases load : ∃ vs, Reads readFormat call.buf vs
      · obtain ⟨vs, reads⟩ := load
        obtain ⟨regIndex, rfl⟩ := reads_readFormat_values reads
        rw [ProcFile.write, procText_eq_r_iff.mpr reads, xpregProcWrite_r sized] at written
        cases written
        exact .load reads
      · have noWrite := not_exists.mp store
        have noRead := not_exists.mp load
        rw [ProcFile.write, xpregProcWrite_nothing sized noWrite noRead] at written
        cases written
        exact .nothing noWrite noRead

/-- A register is written. -/
theorem proc_write_serves_store :
    Serves recorder "w 0x8 0x12\n".toList [] [.store 8 0x12] (.wrote 8 0x12) [(8, 0x12)] :=
  (proc_write_serves recorder { regRwStatus := .empty, device := [] }
    { buf := "w 0x8 0x12\n".toList, bufsize := 11 } (by decide) _ _ _).mpr rfl

end Writes

/-! ### What the file shows -/

/-- No answer is cut off. -/
theorem RegRwStatus.text_eq (status : RegRwStatus) : status.text = status.printed := by
  have short : status.printed.length ≤ regRwStatusSize - 1 - 1 := by
    cases status with
    | wrote regIndex regValue => exact (print_length wroteFormat _).trans (by decide)
    | hasRead regIndex regValue => exact (print_length hasReadFormat _).trans (by decide)
    | empty => decide
    | writeFailed => decide
    | readFailed => decide
    | help => decide
  exact List.take_of_length_le short

/-- The value that has been read is shown, and can be read off. -/
theorem reads_shown (regIndex regValue : BitVec 32) (minor : Nat) :
    Reads hasReadFormat (xpregSeqShow minor (RegRwStatus.hasRead regIndex regValue).text)
      [regIndex, regValue] := by
  have status : (RegRwStatus.hasRead regIndex regValue).text =
      print hasReadFormat [regIndex, regValue] := RegRwStatus.text_eq _
  have shown : xpregSeqShow minor (print hasReadFormat [regIndex, regValue]) =
      print hasReadFormat [regIndex, regValue] ++ ['\n'] := rfl
  rw [status, shown]
  exact reads_print (by simp [hasReadFormat, pieces, Spaced, isSpace]) rfl (by simp [isSpace])

/-! ### The registers as memory -/

/-- The file after these writes. -/
def ProcFile.session (regs : Registers δ) (file : ProcFile δ) (calls : List ProcWrite) :
    ProcFile δ :=
  calls.foldl (ProcFile.write regs) file

/-- The dword at `regIndex` is `regValue`. -/
def Holds (regIndex regValue : BitVec 32) (m : Image) : Prop := wordFrom m regIndex.toNat = regValue

/-- A write, if the text is one, is to four other bytes. -/
def Elsewhere (regIndex : BitVec 32) (buf : List Char) : Prop :=
  ∀ other value, Reads writeFormat buf [other, value] →
    other.toNat + 4 ≤ regIndex.toNat ∨ regIndex.toNat + 4 ≤ other.toNat

section Session

variable {regIndex regValue : BitVec 32} {m : Image} {file : ProcFile Image} {call : ProcWrite}

theorem holds_store (regIndex regValue : BitVec 32) (m : Image) :
    Holds regIndex regValue (memory.store regIndex.toNat regValue m) := by
  apply wordFrom_eq
  intro j hj
  have byte := storeOne_memory .dword regIndex.toNat regValue m (regIndex.toNat + j)
  rw [if_pos ⟨Nat.le_add_right _ _, Nat.add_lt_add_left hj _⟩, Nat.add_sub_cancel_left] at byte
  exact byte

theorem Holds.store (holds : Holds regIndex regValue m) {other : BitVec 32} (value : BitVec 32)
    (apart : other.toNat + 4 ≤ regIndex.toNat ∨ regIndex.toNat + 4 ≤ other.toNat) :
    Holds regIndex regValue (memory.store other.toNat value m) := by
  have same : wordFrom (memory.store other.toNat value m) regIndex.toNat =
      wordFrom m regIndex.toNat := by
    apply wordFrom_congr
    intro j hj
    have byte := storeOne_memory .dword other.toNat value m (regIndex.toNat + j)
    rw [if_neg (by simp only [RegSize.bytes]; omega)] at byte
    exact byte
  exact same.trans holds

theorem Holds.loaded (holds : Holds regIndex regValue m) :
    memory.loadU32 .dword regIndex.toNat m = (regValue, m) := by
  rw [memory_loadU32_dword, holds]

/-- One text elsewhere leaves the dword. -/
theorem Holds.write (holds : Holds regIndex regValue file.device)
    (elsewhere : Elsewhere regIndex call.buf) :
    Holds regIndex regValue (file.write memory call).device := by
  by_cases sized : call.bufsize = 0
  · rw [ProcFile.write, sized]
    exact holds
  · cases text : procText call.buf with
    | w other value =>
        rw [ProcFile.write, text, xpregProcWrite_w sized]
        exact holds.store value (elsewhere other value (procText_eq_w_iff.mp text))
    | r other =>
        rw [ProcFile.write, text, xpregProcWrite_r sized]
        exact holds
    | help =>
        rw [ProcFile.write, text, xpregProcWrite, if_neg sized]
        exact holds
    | other =>
        rw [ProcFile.write, text, xpregProcWrite, if_neg sized]
        exact holds

/-- Any texts elsewhere leave the dword. By induction on the texts. -/
theorem Holds.session {calls : List ProcWrite} (holds : Holds regIndex regValue file.device)
    (elsewhere : ∀ call ∈ calls, Elsewhere regIndex call.buf) :
    Holds regIndex regValue (file.session memory calls).device := by
  induction calls generalizing file with
  | nil => exact holds
  | cons call calls ih =>
      obtain ⟨first, rest⟩ := List.forall_mem_cons.mp elsewhere
      exact ih (holds.write first) rest

/-- A text that loads the dword shows it. -/
theorem Holds.fetch (holds : Holds regIndex regValue file.device)
    (fetches : Reads readFormat call.buf [regIndex]) (sized : call.bufsize ≠ 0) :
    (file.write memory call).regRwStatus = .hasRead regIndex regValue := by
  rw [ProcFile.write, procText_eq_r_iff.mpr fetches, xpregProcWrite_r sized, holds.loaded]

/-- **A value that is stored comes back.** -/
theorem proc_value_comes_back {store fetch : ProcWrite} {between : List ProcWrite} (minor : Nat)
    (stores : Reads writeFormat store.buf [regIndex, regValue])
    (fetches : Reads readFormat fetch.buf [regIndex])
    (sized : store.bufsize ≠ 0 ∧ fetch.bufsize ≠ 0)
    (elsewhere : ∀ call ∈ between, Elsewhere regIndex call.buf) :
    Reads hasReadFormat ((file.session memory (store :: between ++ [fetch])).shown minor)
      [regIndex, regValue] := by
  have stored : Holds regIndex regValue (file.write memory store).device := by
    rw [ProcFile.write, procText_eq_w_iff.mpr stores, xpregProcWrite_w sized.1]
    exact holds_store regIndex regValue file.device
  have shown := (stored.session elsewhere).fetch fetches sized.2
  have last : file.session memory (store :: between ++ [fetch]) =
      (((file.write memory store).session memory between).write memory fetch) := by
    rw [ProcFile.session, List.foldl_append]
    rfl
  rw [last, ProcFile.shown, shown]
  exact reads_shown regIndex regValue minor

/-- A register is stored, another one is stored and loaded, and the first one is loaded. -/
theorem proc_value_comes_back_two_registers :
    Reads hasReadFormat
      ((ProcFile.session memory { regRwStatus := .empty, device := fun _ => 0 }
        [⟨"w 0x8 0x12\n".toList, 11⟩, ⟨"w 0xc 0xff\n".toList, 11⟩, ⟨"r 0xC\n".toList, 6⟩,
          ⟨"r 0x8\n".toList, 6⟩]).shown 0)
      [0x8, 0x12] := by
  have elsewhere : ∀ call ∈ ([⟨"w 0xc 0xff\n".toList, 11⟩, ⟨"r 0xC\n".toList, 6⟩] :
      List ProcWrite), Elsewhere 0x8 call.buf := by
    intro call mem other value reads
    have scanned := scan_writeFormat.mpr reads
    rcases List.mem_pair.mp mem with rfl | rfl
    · cases scanned
      decide
    · cases scanned
  exact proc_value_comes_back 0 (scan_writeFormat.mp rfl) (scan_readFormat.mp rfl)
    ⟨by decide, by decide⟩ elsewhere

end Session

end XpNet.Pci

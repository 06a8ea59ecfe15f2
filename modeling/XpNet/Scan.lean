/-
The kernel's `sscanf` and `sprintf` for formats of plain text and `%x`, with `u32` values.

White space in a format matches any amount of white space, none included; any other
character matches itself; `%x` skips white space and takes an optional `0x` and hex digits.
The scan ends at the first thing that does not match, with the values it has.

`Reads fmt s vs` is what such a format accepts, without a scanner.

* `scan_eq_iff`: a scan of a format that ends in `%x` gets all its values exactly from the
  texts that the format accepts.
* `reads_print`: what a format prints, it scans, if white space or the end follows each `%x`.
-/

import Mathlib.Data.BitVec
import Mathlib.Data.List.TakeWhile

namespace XpNet.Scan

/-! ### Characters and numbers -/

/-- `isspace`, of Latin-1. -/
def isSpace (c : Char) : Bool :=
  decide (c.toNat = 32 ∨ (9 ≤ c.toNat ∧ c.toNat ≤ 13) ∨ c.toNat = 160)

def hexValue? (c : Char) : Option Nat :=
  if 48 ≤ c.toNat ∧ c.toNat ≤ 57 then some (c.toNat - 48)
  else if 97 ≤ c.toNat ∧ c.toNat ≤ 102 then some (c.toNat - 87)
  else if 65 ≤ c.toNat ∧ c.toNat ≤ 70 then some (c.toNat - 55)
  else none

/-- `isxdigit`. -/
def isHex (c : Char) : Bool := (hexValue? c).isSome

/-- The number of these hex digits. -/
def hexNumber (ds : List Char) : Nat := ds.foldl (fun n c => 16 * n + (hexValue? c).getD 0) 0

/-- `skip_spaces`. -/
def skipSpaces (s : List Char) : List Char := s.dropWhile isSpace

/-- `0x` or `0X` in front of a number. -/
def dropRadix : List Char → List Char
  | '0' :: 'x' :: s => s
  | '0' :: 'X' :: s => s
  | s => s

/-- `simple_strtoul(cp, endp, 16)`: the number and what `*endp` points to. What it loses of a
number above `unsigned long`, a `u32` does not have. -/
def simpleStrtoul (cp : List Char) : Nat × List Char :=
  (hexNumber ((dropRadix cp).takeWhile isHex), (dropRadix cp).dropWhile isHex)

/-- `%x` of a `u32`. -/
def hexText (v : BitVec 32) : List Char := Nat.toDigits 16 v.toNat

theorem hexValue_digitChar {n : Nat} (hn : n < 16) : hexValue? n.digitChar = some n := by
  decide +revert

theorem isHex_digitChar {n : Nat} (hn : n < 16) : isHex n.digitChar := by
  rw [isHex, hexValue_digitChar hn]
  rfl

theorem isHex_iff {c : Char} : isHex c ↔ (48 ≤ c.toNat ∧ c.toNat ≤ 57) ∨
    (97 ≤ c.toNat ∧ c.toNat ≤ 102) ∨ (65 ≤ c.toNat ∧ c.toNat ≤ 70) := by
  unfold isHex hexValue?
  split
  · simp [*]
  · split
    · simp [*]
    · split
      · simp [*]
      · simp [*]

theorem isSpace_of_isHex {c : Char} (hex : isHex c) : isSpace c = false := by
  have range := isHex_iff.mp hex
  exact decide_eq_false (by omega)

theorem hexNumber_snoc (ds : List Char) (c : Char) :
    hexNumber (ds ++ [c]) = 16 * hexNumber ds + (hexValue? c).getD 0 := by
  rw [hexNumber, List.foldl_append]
  rfl

theorem toDigits_hex (n : Nat) : ∀ c ∈ Nat.toDigits 16 n, isHex c := by
  induction n using Nat.strong_induction_on with
  | _ n ih =>
      intro c mem
      rcases Nat.lt_or_ge n 16 with small | large
      · rw [Nat.toDigits_of_lt_base small] at mem
        rw [List.mem_singleton.mp mem]
        exact isHex_digitChar small
      · rw [Nat.toDigits_of_base_le (by decide) large] at mem
        rcases List.mem_append.mp mem with before | last
        · exact ih (n / 16) (by omega) c before
        · rw [List.mem_singleton.mp last]
          exact isHex_digitChar (Nat.mod_lt n (by decide))

theorem hexNumber_toDigits (n : Nat) : hexNumber (Nat.toDigits 16 n) = n := by
  induction n using Nat.strong_induction_on with
  | _ n ih =>
      rcases Nat.lt_or_ge n 16 with small | large
      · rw [Nat.toDigits_of_lt_base small]
        simp [hexNumber, hexValue_digitChar small]
      · rw [Nat.toDigits_of_base_le (by decide) large, hexNumber_snoc, ih (n / 16) (by omega),
          hexValue_digitChar (Nat.mod_lt n (by decide))]
        exact Nat.div_add_mod n 16

/-! ### The scanner -/

/-- An element of a format. -/
inductive Piece where
  | char (c : Char)
  | hex
  deriving DecidableEq, Repr

/-- The elements of the text of a format. -/
def pieces : List Char → List Piece
  | '%' :: 'x' :: fmt => .hex :: pieces fmt
  | c :: fmt => .char c :: pieces fmt
  | [] => []

/-- `sscanf(str, fmt, ..)`: the values it converts. -/
def scan : List Piece → List Char → List (BitVec 32)
  | [], _ => []
  | .char c :: fmt, str =>
    if isSpace c then scan fmt (skipSpaces str)
    else if str.head? = some c then scan fmt str.tail
    else []
  | .hex :: fmt, str =>
    let str := skipSpaces str
    if str.head?.any isHex then
      BitVec.ofNat 32 (simpleStrtoul str).1 :: scan fmt (simpleStrtoul str).2
    else []

/-- `sprintf(buf, fmt, ..)`, with a value for each `%x`. -/
def print : List Piece → List (BitVec 32) → List Char
  | [], _ => []
  | .char c :: fmt, vs => c :: print fmt vs
  | .hex :: fmt, v :: vs => hexText v ++ print fmt vs
  | .hex :: fmt, [] => print fmt []

/-- The number of values a format takes. -/
def conversions (fmt : List Piece) : Nat := fmt.count .hex

/-! ### What a format accepts -/

/-- `ds` is digits, and what comes after it is not. -/
def Digits (ds rest : List Char) : Prop := (∀ c ∈ ds, isHex c) ∧ ∀ c ∈ rest.head?, isHex c = false

/-- `t` is a number in front of `rest`: digits, behind `0x` or `0X` or not. A single `0` in
front of an `x` is not a number of its own. -/
inductive Numeral : List Char → Nat → List Char → Prop where
  | plain {ds rest : List Char} : Digits ds rest → ds ≠ [] →
      (ds = ['0'] → ∀ c ∈ rest.head?, c ≠ 'x' ∧ c ≠ 'X') → Numeral ds (hexNumber ds) rest
  | marked {x : Char} {ds rest : List Char} : x = 'x' ∨ x = 'X' → Digits ds rest →
      Numeral ('0' :: x :: ds) (hexNumber ds) rest

/-- The text starts with what the format accepts, with these values. -/
inductive Reads : List Piece → List Char → List (BitVec 32) → Prop where
  | done {str : List Char} : Reads [] str []
  | space {c : Char} {fmt : List Piece} {blanks str : List Char} {vs : List (BitVec 32)} :
      isSpace c → (∀ b ∈ blanks, isSpace b) → Reads fmt str vs →
      Reads (.char c :: fmt) (blanks ++ str) vs
  | char {c : Char} {fmt : List Piece} {str : List Char} {vs : List (BitVec 32)} :
      isSpace c = false → Reads fmt str vs → Reads (.char c :: fmt) (c :: str) vs
  | hex {fmt : List Piece} {blanks t str : List Char} {n : Nat} {vs : List (BitVec 32)} :
      (∀ b ∈ blanks, isSpace b) → Numeral t n str → Reads fmt str vs →
      Reads (.hex :: fmt) (blanks ++ (t ++ str)) (BitVec.ofNat 32 n :: vs)

/-! ### Numbers -/

section Numbers

variable {ds rest str t : List Char} {n : Nat}

theorem Digits.takeWhile (digits : Digits ds rest) : (ds ++ rest).takeWhile isHex = ds := by
  rw [List.takeWhile_append_of_pos digits.1]
  cases rest with
  | nil => rw [List.takeWhile_nil, List.append_nil]
  | cons c rest =>
      have stop := digits.2 c rfl
      rw [List.takeWhile_cons_of_neg (by simp [stop]), List.append_nil]

theorem Digits.dropWhile (digits : Digits ds rest) : (ds ++ rest).dropWhile isHex = rest := by
  rw [List.dropWhile_append_of_pos digits.1]
  cases rest with
  | nil => rfl
  | cons c rest =>
      have stop := digits.2 c rfl
      rw [List.dropWhile_cons_of_neg (by simp [stop])]

/-- Digits, and what is left after them. -/
theorem digits_split (str : List Char) :
    Digits (str.takeWhile isHex) (str.dropWhile isHex) := by
  refine ⟨fun c mem => List.mem_takeWhile_imp mem, fun c head => ?_⟩
  have stops := List.head?_dropWhile_not isHex str
  rw [Option.mem_def] at head
  rw [head] at stops
  simpa using stops

/-- The text starts with `0x` or `0X`. -/
def Marked (str : List Char) : Prop := ∃ x s, (x = 'x' ∨ x = 'X') ∧ str = '0' :: x :: s

theorem dropRadix_marked {x : Char} (mark : x = 'x' ∨ x = 'X') (s : List Char) :
    dropRadix ('0' :: x :: s) = s := by
  rcases mark with rfl | rfl
  · rfl
  · rfl

theorem dropRadix_plain (plain : ¬ Marked str) : dropRadix str = str := by
  unfold dropRadix
  split
  · exact absurd ⟨_, _, .inl rfl, rfl⟩ plain
  · exact absurd ⟨_, _, .inr rfl, rfl⟩ plain
  · rfl

/-- Digits are not marked, unless they are a single `0` in front of an `x`. -/
theorem Digits.not_marked (digits : Digits ds rest) (some_ : ds ≠ [])
    (lone : ds = ['0'] → ∀ c ∈ rest.head?, c ≠ 'x' ∧ c ≠ 'X') : ¬ Marked (ds ++ rest) := by
  rintro ⟨x, s, mark, same⟩
  obtain ⟨d, ds, rfl⟩ := List.exists_cons_of_ne_nil some_
  obtain ⟨rfl, left⟩ := List.cons.inj same
  cases ds with
  | nil =>
      have after : rest = x :: s := left
      have head : x ∈ rest.head? := by
        rw [after]
        rfl
      obtain ⟨notLower, notUpper⟩ := lone rfl x head
      exact mark.elim notLower notUpper
  | cons d ds =>
      obtain ⟨rfl, -⟩ := List.cons.inj left
      have hex : isHex d := digits.1 d (by simp)
      rcases mark with rfl | rfl
      · cases hex
      · cases hex

/-- A number is converted. -/
theorem Numeral.strtoul (numeral : Numeral t n rest) : simpleStrtoul (t ++ rest) = (n, rest) := by
  unfold simpleStrtoul
  cases numeral with
  | plain digits some_ lone =>
      rw [dropRadix_plain (digits.not_marked some_ lone), digits.takeWhile, digits.dropWhile]
  | @marked x ds _ mark digits =>
      have drop : dropRadix ('0' :: x :: ds ++ rest) = ds ++ rest := dropRadix_marked mark _
      rw [drop, digits.takeWhile, digits.dropWhile]

theorem Numeral.head (numeral : Numeral t n rest) : (t ++ rest).head?.any isHex := by
  cases numeral with
  | plain digits some_ lone =>
      obtain ⟨d, ds, rfl⟩ := List.exists_cons_of_ne_nil some_
      exact digits.1 d List.mem_cons_self
  | marked mark digits => rfl

/-- What is converted is a number. -/
theorem numeral_of_head (head : str.head?.any isHex) :
    ∃ t, str = t ++ (simpleStrtoul str).2 ∧
      Numeral t (simpleStrtoul str).1 (simpleStrtoul str).2 := by
  unfold simpleStrtoul
  by_cases marked : Marked str
  · obtain ⟨x, s, mark, rfl⟩ := marked
    rw [dropRadix_marked mark]
    refine ⟨'0' :: x :: s.takeWhile isHex, ?_, .marked mark (digits_split s)⟩
    rw [List.cons_append, List.cons_append, List.takeWhile_append_dropWhile]
  · rw [dropRadix_plain marked]
    refine ⟨str.takeWhile isHex, List.takeWhile_append_dropWhile.symm,
      .plain (digits_split str) ?_ ?_⟩
    · cases str with
      | nil => cases head
      | cons c s =>
          have hex : isHex c := head
          rw [List.takeWhile_cons_of_pos hex]
          exact List.cons_ne_nil _ _
    · intro lone c next
      have parts : str = '0' :: str.dropWhile isHex := by
        conv_lhs => rw [← List.takeWhile_append_dropWhile (p := isHex) (l := str), lone]
        rfl
      obtain ⟨s, rest⟩ : ∃ s, str.dropWhile isHex = c :: s := List.head?_eq_some_iff.mp next
      rw [rest] at parts
      constructor
      · rintro rfl
        exact marked ⟨_, _, .inl rfl, parts⟩
      · rintro rfl
        exact marked ⟨_, _, .inr rfl, parts⟩

end Numbers

/-! ### The scanner accepts what the format accepts -/

/-- Each text of the format ends with a `%x`. -/
def EndsInHex : List Piece → Prop
  | [] => True
  | .char _ :: fmt => fmt ≠ [] ∧ EndsInHex fmt
  | .hex :: fmt => EndsInHex fmt

section Formats

variable {fmt : List Piece} {str blanks : List Char} {vs : List (BitVec 32)}

theorem conversions_pos (ends : EndsInHex fmt) (some_ : fmt ≠ []) : 0 < conversions fmt := by
  induction fmt with
  | nil => exact absurd rfl some_
  | cons piece fmt ih =>
      cases piece with
      | char c =>
          rw [conversions, List.count_cons_of_ne (by simp)]
          exact ih ends.2 ends.1
      | hex =>
          rw [conversions, List.count_cons_self]
          exact Nat.succ_pos _

theorem skipSpaces_append (spaces : ∀ b ∈ blanks, isSpace b) (str : List Char) :
    skipSpaces (blanks ++ str) = skipSpaces str := List.dropWhile_append_of_pos spaces

theorem skipSpaces_of_head {c : Char} (head : str.head? = some c) (ink : isSpace c = false) :
    skipSpaces str = str := by
  obtain ⟨s, rfl⟩ := List.head?_eq_some_iff.mp head
  exact List.dropWhile_cons_of_neg (by simp [ink])

theorem skipSpaces_of_hex (head : str.head?.any isHex) : skipSpaces str = str := by
  cases str with
  | nil => rfl
  | cons c s => exact skipSpaces_of_head rfl (isSpace_of_isHex head)

theorem skipSpaces_skipSpaces (str : List Char) : skipSpaces (skipSpaces str) = skipSpaces str := by
  cases left : (skipSpaces str).head? with
  | none => rw [List.head?_eq_none_iff.mp left]; rfl
  | some c =>
      have stops := List.head?_dropWhile_not isSpace str
      rw [show str.dropWhile isSpace = skipSpaces str from rfl, left] at stops
      exact skipSpaces_of_head left (by simpa using stops)

/-- Blanks that a format has skipped do not matter to a scan that finds something. -/
theorem scan_skipSpaces (found : scan fmt str ≠ []) : scan fmt (skipSpaces str) = scan fmt str := by
  cases fmt with
  | nil => rfl
  | cons piece fmt =>
      cases piece with
      | char c =>
          rw [scan] at found
          split at found
          case isTrue space =>
            rw [scan, scan, if_pos space, if_pos space, skipSpaces_skipSpaces]
          case isFalse ink =>
            split at found
            case isTrue head => rw [skipSpaces_of_head head (by simpa using ink)]
            case isFalse _ => exact absurd rfl found
      | hex => rw [scan, scan, skipSpaces_skipSpaces]

/-- What the format accepts is converted. -/
theorem Reads.scan (reads : Reads fmt str vs) (ends : EndsInHex fmt) :
    Scan.scan fmt str = vs ∧ vs.length = conversions fmt := by
  induction reads with
  | done => exact ⟨rfl, rfl⟩
  | @space c fmt blanks str vs space spaces _ ih =>
      obtain ⟨scanned, length⟩ := ih ends.2
      have some_ : Scan.scan fmt str ≠ [] := by
        intro none
        rw [← scanned, none] at length
        exact absurd length (conversions_pos ends.2 ends.1).ne
      constructor
      · rw [Scan.scan, if_pos space, skipSpaces_append spaces, scan_skipSpaces some_, scanned]
      · rw [length, conversions, conversions, List.count_cons_of_ne (by simp)]
  | @char c fmt str vs ink _ ih =>
      obtain ⟨scanned, length⟩ := ih ends.2
      constructor
      · rw [Scan.scan, if_neg (by simp [ink]), if_pos List.head?_cons, List.tail_cons, scanned]
      · rw [length, conversions, conversions, List.count_cons_of_ne (by simp)]
  | hex spaces numeral _ ih =>
      obtain ⟨scanned, length⟩ := ih ends
      constructor
      · rw [Scan.scan, skipSpaces_append spaces, skipSpaces_of_hex numeral.head,
          if_pos numeral.head, numeral.strtoul, scanned]
      · rw [List.length_cons, length, conversions, conversions, List.count_cons_self]

/-- What is converted is what the format accepts. -/
theorem reads_of_scan (scanned : scan fmt str = vs) (length : vs.length = conversions fmt)
    (ends : EndsInHex fmt) : Reads fmt str vs := by
  induction fmt generalizing str vs with
  | nil =>
      subst scanned
      exact .done
  | cons piece fmt ih =>
      have blanks : str = str.takeWhile isSpace ++ skipSpaces str :=
        List.takeWhile_append_dropWhile.symm
      have spaces : ∀ b ∈ str.takeWhile isSpace, isSpace b := fun b => List.mem_takeWhile_imp
      cases piece with
      | char c =>
          have some_ : vs ≠ [] := by
            rintro rfl
            exact absurd length (conversions_pos ends (List.cons_ne_nil _ _)).ne
          rw [conversions, List.count_cons_of_ne (by simp)] at length
          unfold scan at scanned
          split at scanned
          case isTrue space =>
            rw [blanks]
            exact .space space spaces (ih scanned length ends.2)
          case isFalse ink =>
            split at scanned
            case isTrue head =>
              obtain ⟨s, rfl⟩ := List.head?_eq_some_iff.mp head
              exact .char (by simpa using ink) (ih scanned length ends.2)
            case isFalse _ => exact absurd scanned.symm some_
      | hex =>
          rw [scan] at scanned
          split at scanned
          case isTrue head =>
            obtain ⟨t, parts, numeral⟩ := numeral_of_head head
            subst scanned
            rw [conversions, List.count_cons_self, List.length_cons] at length
            have reads := Reads.hex spaces numeral (ih rfl (Nat.succ.inj length) ends)
            rwa [← parts, ← blanks] at reads
          case isFalse _ =>
            subst scanned
            rw [conversions, List.count_cons_self] at length
            cases length

/-- **What a scan accepts.** -/
theorem scan_eq_iff (ends : EndsInHex fmt) :
    scan fmt str = vs ∧ vs.length = conversions fmt ↔ Reads fmt str vs :=
  ⟨fun scanned => reads_of_scan scanned.1 scanned.2 ends, fun reads => reads.scan ends⟩

/-! ### What is printed can be scanned -/

theorem hexText_length (v : BitVec 32) : (hexText v).length ≤ 8 :=
  (Nat.length_toDigits_le_iff (by decide) (by decide)).mpr v.isLt

/-- A text has a character for each of its format, or up to eight for a value. -/
theorem print_length (fmt : List Piece) (vs : List (BitVec 32)) :
    (print fmt vs).length ≤ fmt.length + 8 * conversions fmt := by
  induction fmt generalizing vs with
  | nil => exact Nat.zero_le _
  | cons piece fmt ih =>
      cases piece with
      | char c =>
          have rest := ih vs
          rw [conversions, List.count_cons_of_ne (by simp), ← conversions, print, List.length_cons,
            List.length_cons]
          omega
      | hex =>
          rw [conversions, List.count_cons_self, ← conversions, List.length_cons]
          cases vs with
          | nil =>
              have rest := ih []
              rw [print]
              omega
          | cons v vs =>
              have rest := ih vs
              have value := hexText_length v
              rw [print, List.length_append]
              omega

/-- White space or the end follows each `%x`. -/
def Spaced : List Piece → Prop
  | [] => True
  | .char _ :: fmt => Spaced fmt
  | .hex :: fmt => (∀ piece ∈ fmt.head?, ∃ c, piece = .char c ∧ isSpace c) ∧ Spaced fmt

theorem numeral_hexText (v : BitVec 32) {rest : List Char}
    (after : ∀ c ∈ rest.head?, isSpace c) : Numeral (hexText v) v.toNat rest := by
  have stops : ∀ c ∈ rest.head?, isHex c = false ∧ c ≠ 'x' ∧ c ≠ 'X' := by
    intro c head
    have space := after c head
    refine ⟨?_, ?_, ?_⟩
    · by_contra hex
      rw [isSpace_of_isHex (by simpa using hex)] at space
      cases space
    · rintro rfl
      cases space
    · rintro rfl
      cases space
  have number : hexNumber (hexText v) = v.toNat := hexNumber_toDigits _
  have digits : Digits (hexText v) rest :=
    ⟨toDigits_hex _, fun c head => (stops c head).1⟩
  exact number ▸ .plain digits Nat.toDigits_ne_nil fun _ c head => (stops c head).2

/-- **What a format prints, it scans.** -/
theorem reads_print (spaced : Spaced fmt) (length : vs.length = conversions fmt)
    {rest : List Char} (after : ∀ c ∈ rest.head?, isSpace c) :
    Reads fmt (print fmt vs ++ rest) vs := by
  induction fmt generalizing vs with
  | nil =>
      cases List.length_eq_zero_iff.mp length
      exact .done
  | cons piece fmt ih =>
      cases piece with
      | char c =>
          rw [conversions, List.count_cons_of_ne (by simp)] at length
          have reads := ih spaced length
          cases space : isSpace c with
          | true =>
              have blank : ∀ b ∈ [c], isSpace b := by simp [space]
              have text := Reads.space space blank reads
              exact text
          | false => exact .char space reads
      | hex =>
          rw [conversions, List.count_cons_self] at length
          obtain ⟨v, vs, rfl⟩ := List.exists_cons_of_length_eq_add_one length
          have reads := ih spaced.2 (Nat.succ.inj length)
          have follows : ∀ c ∈ (print fmt vs ++ rest).head?, isSpace c := by
            cases fmt with
            | nil => exact after
            | cons piece fmt =>
                obtain ⟨c, rfl, space⟩ := spaced.1 piece rfl
                rintro _ ⟨⟩
                exact space
          have text := Reads.hex (List.forall_mem_nil _) (numeral_hexText v follows) reads
          rw [List.nil_append, BitVec.ofNat_toNat, BitVec.setWidth_eq] at text
          rw [print, List.append_assoc]
          exact text

end Formats

end XpNet.Scan

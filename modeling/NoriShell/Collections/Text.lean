import Mathlib

/-! Characters and texts as the standard library of Rust classifies and splits them. -/

namespace NoriShell.Collections

namespace Text

def isControl (c : Char) : Bool :=
  c.toNat < 0x20 || (0x7f ≤ c.toNat && c.toNat ≤ 0x9f)

def isWhitespace (c : Char) : Bool :=
  (0x09 ≤ c.toNat && c.toNat ≤ 0x0d) || c.toNat == 0x20 || c.toNat == 0x85 || c.toNat == 0xa0 ||
    c.toNat == 0x1680 || (0x2000 ≤ c.toNat && c.toNat ≤ 0x200a) || c.toNat == 0x2028 ||
    c.toNat == 0x2029 || c.toNat == 0x202f || c.toNat == 0x205f || c.toNat == 0x3000

def trim (cs : List Char) : List Char :=
  ((cs.dropWhile isWhitespace).reverse.dropWhile isWhitespace).reverse

def isAscii (c : Char) : Bool :=
  c.toNat < 0x80

def isAsciiDigit (c : Char) : Bool :=
  '0' ≤ c && c ≤ '9'

def isAsciiAlphanumeric (c : Char) : Bool :=
  isAsciiDigit c || ('a' ≤ c && c ≤ 'z') || ('A' ≤ c && c ≤ 'Z')

def stripPrefix (c : Char) : List Char → Option (List Char)
  | [] => none
  | first :: rest => if first = c then some rest else none

def stripSuffix (c : Char) (cs : List Char) : Option (List Char) :=
  if cs.getLast? = some c then some cs.dropLast else none

def splitOnce (separator : Char) : List Char → Option (List Char × List Char)
  | [] => none
  | c :: cs =>
    if c = separator then some ([], cs)
    else (splitOnce separator cs).map fun (before, after) => (c :: before, after)

def rsplitOnce (separator : Char) (cs : List Char) : Option (List Char × List Char) :=
  (splitOnce separator cs.reverse).map fun (after, before) => (before.reverse, after.reverse)

/-- The lines, without their ends.  A carriage return belongs to the end of its line only before
a line feed. -/
def lines (cs : List Char) : List (List Char) :=
  let parts := cs.splitOn '\n'
  let last := parts.getLastD []
  parts.dropLast.map (fun line => (stripSuffix '\r' line).getD line) ++
    if last = [] then [] else [last]

def eqIgnoreAsciiCase (a b : List Char) : Bool := a.map Char.toLower = b.map Char.toLower

def pairs (cs : List Char) : List (Char × Char) := cs.zip cs.tail

/-- A plus sign may precede the digits. -/
def parseU16 (cs : List Char) : Option UInt16 :=
  let digits := (stripPrefix '+' cs).getD cs
  let value := Nat.ofDigitChars 10 digits 0
  if digits ≠ [] ∧ digits.all isAsciiDigit ∧ value < 65536 then some (.ofNat value) else none

section

variable {c : Char} {cs : List Char}

theorem trim_eq_self (h : ∀ c ∈ cs, isWhitespace c = false) : trim cs = cs := by
  have none {cs : List Char} (h : ∀ c ∈ cs, isWhitespace c = false) :
      cs.dropWhile isWhitespace = cs := by
    rw [List.dropWhile_eq_self_iff]
    intro nonempty
    simpa using h _ (List.getElem_mem nonempty)
  rw [trim, none h, none fun c mem => h c (List.mem_reverse.mp mem), List.reverse_reverse]

theorem isAsciiDigit_iff : isAsciiDigit c = true ↔ 48 ≤ c.toNat ∧ c.toNat ≤ 57 := by
  simp only [isAsciiDigit, Bool.and_eq_true, decide_eq_true_eq]
  rfl

theorem isAsciiAlphanumeric_iff : isAsciiAlphanumeric c = true ↔
      (48 ≤ c.toNat ∧ c.toNat ≤ 57) ∨ (97 ≤ c.toNat ∧ c.toNat ≤ 122) ∨
        (65 ≤ c.toNat ∧ c.toNat ≤ 90) := by
  simp only [isAsciiAlphanumeric, Bool.or_eq_true, isAsciiDigit_iff, Bool.and_eq_true,
    decide_eq_true_eq, or_assoc]
  rfl

theorem stripPrefix_eq_none (free : c ∉ cs) : stripPrefix c cs = none := by
  cases cs with
  | nil => rfl
  | cons first rest =>
    refine if_neg ?_
    rintro rfl
    exact free List.mem_cons_self

theorem mem_splitOn (separator : Char) (mem : c ∈ cs) :
    c = separator ∨ ∃ part ∈ cs.splitOn separator, c ∈ part := by
  have parts (parts : List (List Char)) (mem : c ∈ [separator].intercalate parts) :
      c = separator ∨ ∃ part ∈ parts, c ∈ part := by
    induction parts with
    | nil => simp at mem
    | cons part parts ih =>
      cases parts with
      | nil => exact .inr ⟨part, List.mem_cons_self, by simpa using mem⟩
      | cons next parts =>
        rw [List.intercalate_cons_cons, List.mem_append, List.mem_append] at mem
        rcases mem with (mem | mem) | mem
        · exact .inr ⟨part, List.mem_cons_self, mem⟩
        · exact .inl (List.mem_singleton.mp mem)
        · exact (ih mem).imp_right fun ⟨part, here, mem⟩ =>
            ⟨part, List.mem_cons_of_mem _ here, mem⟩
  exact parts _ (by rwa [List.intercalate_splitOn])

theorem nil_mem_splitOn (last : cs.getLast? = some c) : [] ∈ cs.splitOn c := by
  obtain ⟨front, rfl⟩ := List.getLast?_eq_some_iff.mp last
  rw [List.splitOn_append_cons_self]
  simp

end

theorem val_toLower (c : Char) : c.toLower.val.toNat =
    if 65 ≤ c.val.toNat ∧ c.val.toNat ≤ 90 then c.val.toNat + 32 else c.val.toNat := by
  have range : (c.val ≥ 'A'.val ∧ c.val ≤ 'Z'.val) ↔ 65 ≤ c.val.toNat ∧ c.val.toNat ≤ 90 := by
    rw [ge_iff_le, UInt32.le_iff_toNat_le, UInt32.le_iff_toNat_le]
    rfl
  rw [Char.toLower]
  simp only [range]
  split
  · have distance : ('a'.val - 'A'.val).toNat = 32 := rfl
    rw [UInt32.toNat_add, distance]
    omega
  · rfl

theorem utf8Size_toLower (c : Char) : c.toLower.utf8Size = c.utf8Size := by
  simp only [Char.utf8Size, UInt32.le_iff_toNat_le, val_toLower]
  have one : (127 : UInt32).toNat = 127 := rfl
  have two : (2047 : UInt32).toNat = 2047 := rfl
  have three : (65535 : UInt32).toNat = 65535 := rfl
  grind

end Text

end NoriShell.Collections

import NoriShell.Terminal.InputCoalescer

/-! The word that a long press selects in a line of cells (`touch-selection`). -/

namespace NoriShell.Terminal

structure Cell where
  chars : Text
  width : Nat

structure SelectionCellLine where
  length : Nat
  getCell : Nat → Option Cell

/-- Both ends are inclusive. -/
structure CellRange where
  start : Nat
  last : Nat
  deriving DecidableEq

/-- What `\s` matches. -/
def isWhitespace (unit : UInt16) : Bool :=
  (9 ≤ unit && unit ≤ 13) || (0x2000 ≤ unit && unit ≤ 0x200a) ||
    [32, 0xa0, 0x1680, 0x2028, 0x2029, 0x202f, 0x205f, 0x3000, 0xfeff].contains unit

def includes (text part : Text) : Bool := decide (part <:+: text)

/-- `while (n > 0 && holds(n - 1)) n -= 1`. -/
def retreat (holds : Nat → Bool) : Nat → Nat
  | 0 => 0
  | n + 1 => if holds n then retreat holds n else n + 1

/-- `while (holds(n + 1)) n += 1`. -/
def advance (holds : Nat → Bool) : Nat → Nat → Nat
  | 0, n => n
  | fuel + 1, n => if holds (n + 1) then advance holds fuel (n + 1) else n

theorem retreat_eq_iff {holds : Nat → Bool} {n start : Nat} : retreat holds n = start ↔
    start ≤ n ∧ (∀ m, start ≤ m → m < n → holds m = true) ∧
      (0 < start → holds (start - 1) = false) := by
  induction n with
  | zero => simp only [retreat]; grind
  | succ n ih => simp only [retreat]; grind

theorem advance_eq_iff {holds : Nat → Bool} {bound last : Nat}
    (bounded : ∀ m, bound ≤ m → holds m = false) {fuel n : Nat} (enough : bound ≤ n + fuel + 1) :
    advance holds fuel n = last ↔
      n ≤ last ∧ (∀ m, n < m → m ≤ last → holds m = true) ∧ holds (last + 1) = false := by
  induction fuel generalizing n with
  | zero => simp only [advance]; grind
  | succ fuel ih => simp only [advance]; grind

namespace SelectionCellLine

variable (line : SelectionCellLine) (separators : Text)

def isWordCell (column : Nat) : Bool :=
  match line.getCell column with
  | none => false
  | some cell => cell.width == 0 ||
      (!cell.chars.isEmpty && !cell.chars.all isWhitespace && !includes separators cell.chars)

def hasWidth (width column : Nat) : Bool := (line.getCell column).any (·.width == width)

/-- The last loop stops at the end of the line, so that its length is fuel enough. -/
def wordColumnsAt (column : Int) : Option CellRange :=
  if column < 0 ∨ (line.length : Int) ≤ column then none
  else
    let anchor := retreat (fun n => line.hasWidth 0 (n + 1)) column.toNat
    if line.isWordCell separators anchor then
      some ⟨retreat (line.isWordCell separators) anchor,
        advance (fun n => n < line.length && line.isWordCell separators n) line.length anchor⟩
    else none

/-- Every cell of width 0 is the second of a wide character. -/
def WellFormed : Prop :=
  ∀ column < line.length, line.hasWidth 0 column = true →
    0 < column ∧ line.hasWidth 2 (column - 1) = true

instance : Decidable line.WellFormed := inferInstanceAs (Decidable (∀ column < _, _))

/-- Where the character that covers a column starts. -/
def covering (column : Nat) : Nat := if line.hasWidth 0 column then column - 1 else column

/-- The character that covers the column is neither blank nor a separator. -/
def inWord (column : Nat) : Bool :=
  column < line.length && (line.getCell (line.covering column)).any fun cell =>
    !cell.chars.all isWhitespace && !includes separators cell.chars

/-- The maximal run of whole characters around a column that are neither blank nor separators. -/
structure IsWord (column : Int) (range : CellRange) : Prop where
  around : range.start ≤ column ∧ column ≤ range.last
  whole : ∀ second < line.length, line.hasWidth 0 second = true →
    second ≠ range.start ∧ second ≠ range.last + 1
  inside : ∀ n, range.start ≤ n → n ≤ range.last → line.inWord separators n = true
  left : 0 < range.start → line.inWord separators (range.start - 1) = false
  right : line.inWord separators (range.last + 1) = false

variable {line separators} {n : Nat}

theorem isWordCell_eq (lt : n < line.length) :
    line.isWordCell separators n = (line.hasWidth 0 n || line.inWord separators n) := by
  cases cell : line.getCell n with
  | none => simp [isWordCell, hasWidth, inWord, covering, cell]
  | some found =>
    by_cases second : found.width = 0
    · simp [isWordCell, hasWidth, cell, second]
    · cases chars : found.chars <;>
        simp [isWordCell, hasWidth, inWord, covering, cell, second, lt, chars]

namespace WellFormed

variable (formed : line.WellFormed)
include formed

theorem second {n : Nat} (lt : n < line.length) (second : line.hasWidth 0 n = true) :
    ∃ first, n = first + 1 ∧ line.hasWidth 0 first = false ∧ line.covering n = first := by
  obtain ⟨pos, wide⟩ := formed n lt second
  obtain ⟨first, rfl⟩ := Nat.exists_eq_add_one.2 pos
  rw [Nat.add_sub_cancel] at wide
  refine ⟨first, rfl, ?_, by simp [covering, second]⟩
  cases cell : line.getCell first with
  | none => simp [hasWidth, cell]
  | some found => simp_all [hasWidth]

theorem anchor (lt : n < line.length) :
    retreat (fun n => line.hasWidth 0 (n + 1)) n = line.covering n := by
  cases second : line.hasWidth 0 n with
  | false =>
    have at_n : line.covering n = n := by simp [covering, second]
    exact retreat_eq_iff.2 ⟨by omega, fun m _ _ => by omega, fun pos => by
      rw [Nat.sub_add_cancel pos, at_n, second]⟩
  | true =>
    obtain ⟨first, rfl, narrow, eq⟩ := formed.second lt second
    rw [eq]
    refine retreat_eq_iff.2 ⟨by omega, fun m low high => ?_, fun pos => by
      rw [Nat.sub_add_cancel pos, narrow]⟩
    obtain rfl : m = first := by omega
    exact second

theorem inWord_covering (lt : n < line.length) (separators : Text) : line.covering n ≤ n ∧
    line.hasWidth 0 (line.covering n) = false ∧
    line.inWord separators (line.covering n) = line.inWord separators n := by
  cases second : line.hasWidth 0 n with
  | false => simp [covering, second]
  | true =>
    obtain ⟨first, rfl, narrow, eq⟩ := formed.second lt second
    have at_first : line.covering first = first := by simp [covering, narrow]
    have lt_first : first < line.length := by omega
    simp [inWord, eq, at_first, narrow, lt, lt_first]

end WellFormed

theorem WellFormed.wordColumnsAt_eq (formed : line.WellFormed) (lt : n < line.length) :
    line.wordColumnsAt separators n =
      if line.inWord separators n then
        some ⟨retreat (line.isWordCell separators) (line.covering n),
          advance (fun m => m < line.length && line.isWordCell separators m) line.length
            (line.covering n)⟩
      else none := by
  obtain ⟨le, first, same⟩ := formed.inWord_covering lt separators
  rw [wordColumnsAt, if_neg (by omega), Int.toNat_natCast, formed.anchor lt]
  simp only [isWordCell_eq (Nat.lt_of_le_of_lt le lt), first, same, Bool.false_or]

theorem lt_of_inWord (word : line.inWord separators n = true) : n < line.length :=
  of_decide_eq_true (Bool.and_eq_true_iff.1 word).1

namespace IsWord

variable {range : CellRange} (word : line.IsWord separators n range)
include word

theorem low : range.start ≤ n := Int.ofNat_le.1 word.around.1

theorem high : n ≤ range.last := Int.ofNat_le.1 word.around.2

section

variable {m : Nat} (low : range.start ≤ m) (high : m ≤ range.last)
include low high

theorem isWordCell : line.isWordCell separators m = true := by
  have inside := word.inside m low high
  rw [isWordCell_eq (lt_of_inWord inside), inside, Bool.or_true]

theorem start_eq_iff : retreat (line.isWordCell separators) m = range.start ↔
    (0 < range.start → line.hasWidth 0 (range.start - 1) = false) := by
  have lt := lt_of_inWord (word.inside m low high)
  rw [retreat_eq_iff]
  constructor
  · rintro ⟨-, -, stops⟩ pos
    have := stops pos
    rw [isWordCell_eq (by omega)] at this
    exact (Bool.or_eq_false_iff.1 this).1
  · intro narrow
    refine ⟨low, fun k above below => word.isWordCell above (by omega), fun pos => ?_⟩
    rw [isWordCell_eq (by omega), narrow pos, word.left pos, Bool.or_false]

theorem last_eq : advance (fun k => k < line.length && line.isWordCell separators k) line.length m =
    range.last := by
  have lt := lt_of_inWord (word.inside range.last (low.trans high) le_rfl)
  refine (advance_eq_iff (fun k (out : line.length ≤ k) => by simp [Nat.not_lt.2 out])
    (by omega)).2 ⟨high, fun k above below => ?_, ?_⟩
  · rw [word.isWordCell (by omega) below, Bool.and_true, decide_eq_true_eq]
    omega
  · rw [Bool.and_eq_false_imp, decide_eq_true_eq]
    intro inside
    rw [isWordCell_eq inside, word.right, Bool.or_false]
    exact Bool.eq_false_iff.2 fun second => (word.whole _ inside second).2 rfl

end

theorem wordColumnsAt_iff (formed : line.WellFormed) :
    line.wordColumnsAt separators n = some range ↔
      (0 < range.start → line.hasWidth 0 (range.start - 1) = false) := by
  have here := word.inside n word.low word.high
  have low := word.low
  have ge : range.start ≤ line.covering n := by
    rw [covering]
    split
    case isTrue second =>
      have := (word.whole n (lt_of_inWord here) second).1
      omega
    case isFalse => exact low
  have le := (formed.inWord_covering (lt_of_inWord here) separators).1.trans word.high
  rw [formed.wordColumnsAt_eq (lt_of_inWord here), if_pos here, word.last_eq ge le,
    ← word.start_eq_iff ge le]
  cases range
  simp

end IsWord

theorem WellFormed.exists_isWord (formed : line.WellFormed)
    (word : line.inWord separators n = true) : ∃ range, line.IsWord separators n range := by
  obtain ⟨start, start_eq⟩ : ∃ start, retreat (line.inWord separators) n = start := ⟨_, rfl⟩
  obtain ⟨last, last_eq⟩ : ∃ last, advance (line.inWord separators) line.length n = last :=
    ⟨_, rfl⟩
  have bounded (m) (out : line.length ≤ m) : line.inWord separators m = false := by
    simp [inWord, Nat.not_lt.2 out]
  obtain ⟨low, inside, left⟩ := retreat_eq_iff.1 start_eq
  obtain ⟨high, beyond, right⟩ := (advance_eq_iff bounded (by omega)).1 last_eq
  have all (m) (above : start ≤ m) (below : m ≤ last) : line.inWord separators m = true := by
    rcases lt_trichotomy m n with lt | rfl | gt
    · exact inside m above lt
    · exact word
    · exact beyond m gt below
  refine ⟨⟨start, last⟩, ⟨Int.ofNat_le.2 low, Int.ofNat_le.2 high⟩, fun second lt width => ?_,
    all, left, right⟩
  obtain ⟨first, rfl, -, eq⟩ := formed.second lt width
  have same := (formed.inWord_covering lt separators).2.2
  rw [eq] at same
  constructor
  · rintro rfl
    rw [all _ le_rfl (by omega)] at same
    exact Bool.false_ne_true ((left first.succ_pos).symm.trans same)
  · intro beyond_last
    obtain rfl : first = last := Nat.succ.inj beyond_last
    rw [right, all _ (by omega) le_rfl] at same
    cases same

end SelectionCellLine

/-- Nothing is selected on a blank or a separator, and otherwise there is a word to select. Its
cells are selected unless the character before it is wide. -/
theorem wordColumnsAt_word_iff (line : SelectionCellLine) (formed : line.WellFormed)
    (column : Int) (separators : Text) :
    (line.wordColumnsAt separators column = none ↔
      ∀ n : Nat, column = n → line.inWord separators n = false) ∧
    (∀ n : Nat, column = n → line.inWord separators n = true →
      ∃ range, line.IsWord separators column range) ∧
    ∀ range, line.IsWord separators column range →
      (line.wordColumnsAt separators column = some range ↔
        (0 < range.start → line.hasWidth 0 (range.start - 1) = false)) := by
  refine ⟨?_, ?_, fun range word => ?_⟩
  · by_cases out : column < 0 ∨ (line.length : Int) ≤ column
    · rw [SelectionCellLine.wordColumnsAt, if_pos out, eq_self, true_iff]
      rintro n rfl
      simp [SelectionCellLine.inWord]
      omega
    · lift column to Nat using by omega
      rw [formed.wordColumnsAt_eq (by omega)]
      simp
  · rintro n rfl word
    exact formed.exists_isWord word
  · obtain ⟨low, -⟩ := word.around
    lift column to Nat using by omega
    exact word.wordColumnsAt_iff formed

def lineOf (cells : List Cell) : SelectionCellLine := ⟨cells.length, fun column => cells[column]?⟩

theorem wordColumnsAt_wide_word :
    (lineOf [⟨[32], 1⟩, ⟨[0x4e2d], 2⟩, ⟨[], 0⟩, ⟨[97], 1⟩]).wordColumnsAt [] 2 = some ⟨1, 3⟩ :=
  ((wordColumnsAt_word_iff _ (by decide) 2 []).2.2 ⟨1, 3⟩
    ⟨by decide, by decide, by decide, by decide, by decide⟩).2 (by decide)

/-- The selection starts inside an ideographic space. -/
theorem wordColumnsAt_after_wide_blank :
    (lineOf [⟨[0x3000], 2⟩, ⟨[], 0⟩, ⟨[97], 1⟩]).WellFormed ∧
    (lineOf [⟨[0x3000], 2⟩, ⟨[], 0⟩, ⟨[97], 1⟩]).IsWord [] 2 ⟨2, 2⟩ ∧
    (lineOf [⟨[0x3000], 2⟩, ⟨[], 0⟩, ⟨[97], 1⟩]).wordColumnsAt [] 2 = some ⟨1, 2⟩ :=
  ⟨by decide, ⟨by decide, by decide, by decide, by decide, by decide⟩, by decide⟩

end NoriShell.Terminal

import NoriShell.Collections.Firsts
import NoriShell.Ssh.OpenSshConfig

/-! What a document means: its sections, the hosts that they apply to and the aliases that they
introduce, and that the preview reads it so. -/

namespace NoriShell.Ssh.OpenSsh

open Collections

/-- The texts that one byte of a pattern stands for. -/
def Piece (byte : UInt8) (part : List UInt8) : Prop :=
  byte = 42 ∨ ∃ c, part = [c] ∧ (byte = 63 ∨ globRow.asciiLower byte = globRow.asciiLower c)

/-- A value that is made of parts that the bytes of the pattern stand for. -/
def Glob : List UInt8 → List UInt8 → Prop
  | [], value => value = []
  | byte :: pattern, value =>
    ∃ part rest, value = part ++ rest ∧ Piece byte part ∧ Glob pattern rest

section

variable {pattern value : List UInt8} {byte : UInt8}

theorem glob_concat : Glob (pattern ++ [byte]) value ↔
      ∃ before part, value = before ++ part ∧ Glob pattern before ∧ Piece byte part := by
  induction pattern generalizing value with
  | nil => simp [Glob]
  | cons first pattern ih =>
    simp only [List.cons_append, Glob, ih]
    constructor
    · rintro ⟨part, rest, rfl, piece, before, last, rfl, here, there⟩
      exact ⟨part ++ before, last, by simp, ⟨part, before, rfl, piece, here⟩, there⟩
    · rintro ⟨before, last, rfl, ⟨part, rest, rfl, piece, here⟩, there⟩
      exact ⟨part, rest ++ last, by simp, piece, rest, last, rfl, here, there⟩

def IsRow (value pattern : List UInt8) (row : List Bool) : Prop :=
  row.length = value.length + 1 ∧
    ∀ i ≤ value.length, row[i]? = some true ↔ Glob pattern (value.take i)

theorem isRow_nil : IsRow value [] (true :: List.replicate value.length false) := by
  refine ⟨by simp, fun i le => ?_⟩
  cases i with
  | zero => simp [Glob]
  | succ i =>
    rw [List.getElem?_cons_succ, List.getElem?_replicate_of_lt (by omega)]
    cases value with
    | nil => exact absurd le (by simp)
    | cons c value => simp [Glob]

theorem length_globStar (before : Bool) (row : List Bool) :
    (globStar before row).length = row.length := by
  induction row generalizing before with
  | nil => rfl
  | cons here row ih => rw [globStar, List.length_cons, List.length_cons, ih]

variable {row : List Bool}

theorem getElem?_globStar {before : Bool} {i : Nat} (less : i < row.length) :
    (globStar before row)[i]? = some true ↔ before = true ∨ ∃ j ≤ i, row[j]? = some true := by
  induction row generalizing before i with
  | nil => exact absurd less (by simp)
  | cons here row ih =>
    cases i with
    | zero =>
      have zero : (∃ j ≤ 0, (here :: row)[j]? = some true) ↔ here = true := by
        simp
      rw [zero, globStar, List.getElem?_cons_zero, Option.some_inj, Bool.or_eq_true, or_comm]
    | succ i =>
      rw [globStar, List.getElem?_cons_succ, ih (by simpa using less), Bool.or_eq_true]
      constructor
      · rintro ((first | before) | ⟨j, le, found⟩)
        · exact .inr ⟨0, by omega, by simp [first]⟩
        · exact .inl before
        · exact .inr ⟨j + 1, by omega, by simpa using found⟩
      · rintro (before | ⟨j, le, found⟩)
        · exact .inl (.inr before)
        · cases j with
          | zero => exact .inl (.inl (by simpa using found))
          | succ j => exact .inr ⟨j, by omega, by simpa using found⟩

theorem IsRow.star (h : IsRow value pattern row) :
    IsRow value (pattern ++ [42]) (globStar false row) := by
  refine ⟨by rw [length_globStar, h.1], fun i le => ?_⟩
  rw [getElem?_globStar (by have := h.1; omega), glob_concat]
  constructor
  · rintro (impossible | ⟨j, less, found⟩)
    · cases impossible
    · refine ⟨value.take j, (value.take i).drop j, ?_, (h.2 j (by omega)).1 found, .inl rfl⟩
      have shorter : value.take j = (value.take i).take j := by
        rw [List.take_take, Nat.min_eq_left less]
      rw [shorter, List.take_append_drop]
  · rintro ⟨before, part, split, here, -⟩
    have short : before.length ≤ i := by
      have := congrArg List.length split
      rw [List.length_take, List.length_append] at this
      omega
    refine .inr ⟨before.length, short, (h.2 _ (by omega)).2 ?_⟩
    have shorter : value.take before.length = (value.take i).take before.length := by
      rw [List.take_take, Nat.min_eq_left short]
    rwa [shorter, split, List.take_left]

theorem IsRow.single (h : IsRow value pattern row) (other : byte ≠ 42) :
    IsRow value (pattern ++ [byte]) (false :: List.zipWith (fun before v =>
      before && (byte = 63 || globRow.asciiLower byte = globRow.asciiLower v)) row value) := by
  refine ⟨by simp [h.1], fun i le => ?_⟩
  rw [glob_concat]
  cases i with
  | zero => simp [Piece, other]
  | succ i =>
    have less : i < value.length := by omega
    have before := h.2 i (by omega)
    have inRow : i < row.length := by have := h.1; omega
    rw [List.getElem?_cons_succ, List.getElem?_zipWith, List.getElem?_eq_getElem less,
      List.getElem?_eq_getElem inRow, List.take_succ_eq_append_getElem less]
    rw [List.getElem?_eq_getElem inRow, Option.some_inj] at before
    simp only [Option.some_inj, Bool.and_eq_true, before, Bool.or_eq_true, decide_eq_true_eq]
    constructor
    · rintro ⟨here, same⟩
      exact ⟨_, _, rfl, here, .inr ⟨_, rfl, same⟩⟩
    · rintro ⟨start, part, split, here, star | ⟨c, rfl, same⟩⟩
      · exact absurd star other
      · obtain ⟨rfl, last⟩ := List.append_inj' split rfl
        cases last
        exact ⟨here, same⟩

theorem IsRow.step {row : List Bool} (h : IsRow value pattern row) :
    IsRow value (pattern ++ [byte]) (globRow value row byte) := by
  rw [globRow]
  split
  next star => exact star ▸ h.star
  next other => exact h.single other

theorem IsRow.foldl (h : IsRow value pattern row) (more : List UInt8) :
    IsRow value (pattern ++ more) (more.foldl (globRow value) row) := by
  induction more generalizing pattern row with
  | nil => rwa [List.append_nil]
  | cons byte more ih => simpa using ih h.step

theorem globMatches_iff : globMatches pattern value = true ↔ Glob pattern value := by
  have row : IsRow value ([] ++ pattern) _ := isRow_nil.foldl pattern
  have last := row.2 value.length le_rfl
  rw [List.nil_append, List.take_length] at last
  rw [← last, globMatches, List.getLastD_eq_getLast?, List.getLast?_eq_getElem?, row.1]
  rw [Nat.add_sub_cancel]
  generalize (List.foldl (globRow value) _ pattern)[value.length]? = cell
  cases cell <;> simp

instance : Decidable (Glob pattern value) := decidable_of_iff _ globMatches_iff

theorem asciiLower_ofNat {n : Nat} (small : n < 256) :
    globRow.asciiLower (UInt8.ofNat n) = UInt8.ofNat (if 65 ≤ n ∧ n ≤ 90 then n + 32 else n) := by
  have value : (UInt8.ofNat n).toNat = n := by
    rw [UInt8.toNat_ofNat']
    omega
  have range : (65 ≤ UInt8.ofNat n ∧ UInt8.ofNat n ≤ 90) ↔ 65 ≤ n ∧ n ≤ 90 := by
    rw [UInt8.le_iff_toNat_le, UInt8.le_iff_toNat_le, value]
    rfl
  rw [globRow.asciiLower]
  simp only [range]
  split
  · rw [UInt8.ofNat_add]
    rfl
  · rfl

theorem utf8EncodeChar_toLower (c : Char) :
    String.utf8EncodeChar c.toLower = (String.utf8EncodeChar c).map globRow.asciiLower := by
  have high (n : Nat) (low : 128 ≤ n) (small : n < 256) :
      globRow.asciiLower (UInt8.ofNat n) = UInt8.ofNat n := by
    rw [asciiLower_ofNat small, if_neg (by omega)]
  rw [String.utf8EncodeChar, String.utf8EncodeChar]
  simp only [Text.val_toLower]
  generalize c.val.toNat = v
  by_cases ascii : v ≤ 127
  · have lower : (if 65 ≤ v ∧ v ≤ 90 then v + 32 else v) ≤ 127 := by split <;> omega
    rw [if_pos lower, if_pos ascii, List.map_cons, List.map_nil, asciiLower_ofNat (by omega)]
  · rw [if_neg (show ¬(65 ≤ v ∧ v ≤ 90) by omega), if_neg ascii]
    split
    · simp only [List.map_cons, List.map_nil]
      rw [high _ (by omega) (by omega), high _ (by omega) (by omega)]
    · split
      · simp only [List.map_cons, List.map_nil]
        rw [high _ (by omega) (by omega), high _ (by omega) (by omega),
          high _ (by omega) (by omega)]
      · simp only [List.map_cons, List.map_nil]
        rw [high _ (by omega) (by omega), high _ (by omega) (by omega),
          high _ (by omega) (by omega), high _ (by omega) (by omega)]

theorem bytes_toLower (cs : List Char) :
    bytes (cs.map Char.toLower) = (bytes cs).map globRow.asciiLower := by
  rw [bytes, bytes, List.flatMap_map, List.map_flatMap]
  exact congrArg (List.flatMap · cs) (funext utf8EncodeChar_toLower)

theorem piece_asciiLower {part : List UInt8} :
    Piece (globRow.asciiLower byte) part ↔ Piece byte part := by
  have same : ∀ byte : UInt8, (globRow.asciiLower byte = 42 ↔ byte = 42) ∧
      (globRow.asciiLower byte = 63 ↔ byte = 63) ∧
      globRow.asciiLower (globRow.asciiLower byte) = globRow.asciiLower byte := by
    decide +kernel
  obtain ⟨star, question, twice⟩ := same byte
  rw [Piece, Piece, star, question, twice]

theorem glob_asciiLower : Glob (pattern.map globRow.asciiLower) value ↔ Glob pattern value := by
  induction pattern generalizing value with
  | nil => rfl
  | cons byte pattern ih => simp only [List.map_cons, Glob, ih, piece_asciiLower]

end

structure Entry where
  line : Nat
  parsed : ParsedLine
  deriving DecidableEq

def entries : Nat → List (List Char) → List Entry
  | _, [] => []
  | index, rawLine :: rest =>
    match parseLine rawLine with
    | .ok (some parsed) => ⟨index + 1, parsed⟩ :: entries (index + 1) rest
    | _ => entries (index + 1) rest

def patternOf (value : List Char) : List Char := (Text.stripPrefix '!' value).getD value

def Negated (value : List Char) : Prop := value.head? = some '!'

def Unevaluable (value : List Char) : Prop :=
  patternOf value = [] ∨ containsDangerousExpansion (patternOf value) = true ∨
    '[' ∈ patternOf value ∨ ']' ∈ patternOf value

def Matched (hostAlias value : List Char) : Prop := Glob (bytes (patternOf value)) (bytes hostAlias)

def Literal (value : List Char) : Prop :=
  ¬Negated value ∧ '*' ∉ value ∧ '?' ∉ value ∧ isValidAlias value = true

instance (value : List Char) : Decidable (Negated value) := inferInstanceAs (Decidable (_ = _))
instance (value : List Char) : Decidable (Unevaluable value) :=
  inferInstanceAs (Decidable (_ ∨ _ ∨ _ ∨ _))
instance (hostAlias value : List Char) : Decidable (Matched hostAlias value) :=
  inferInstanceAs (Decidable (Glob _ _))
instance (value : List Char) : Decidable (Literal value) :=
  inferInstanceAs (Decidable (_ ∧ _ ∧ _ ∧ _))

namespace Entry

def IsHost (entry : Entry) : Prop := keywordIs entry.parsed.keyword "host" = true

def IsMatch (entry : Entry) : Prop := keywordIs entry.parsed.keyword "match" = true

instance (entry : Entry) : Decidable entry.IsHost := inferInstanceAs (Decidable (_ = _))
instance (entry : Entry) : Decidable entry.IsMatch := inferInstanceAs (Decidable (_ = _))

def aliases (entry : Entry) : List (List Char) :=
  if entry.IsHost then entry.parsed.values.filter (Literal ·) else []

def AppliesTo (hostAlias : List Char) (entry : Entry) : Prop :=
  entry.IsHost → entry.parsed.values = [] ∨ (∃ value ∈ entry.parsed.values, Unevaluable value) ∨
      (∃ value ∈ entry.parsed.values, ¬Negated value ∧ Matched hostAlias value) ∧
        ¬∃ value ∈ entry.parsed.values, Negated value ∧ Matched hostAlias value

instance (hostAlias : List Char) (entry : Entry) : Decidable (entry.AppliesTo hostAlias) :=
  inferInstanceAs (Decidable (_ → _ ∨ _ ∨ _ ∧ _))

def slot (entry : Entry) : DirectiveSlot :=
  slotForKeyword (entry.parsed.keyword.map Char.toLower)

def directive (entry : Entry) : ParsedDirective := parseDirective entry.parsed entry.line

end Entry

def applying (hostAlias : List Char) : Bool → List Entry → List Entry
  | _, [] => []
  | applies, entry :: rest =>
    if entry.IsHost ∨ entry.IsMatch then applying hostAlias (entry.AppliesTo hostAlias) rest
    else if applies then entry :: applying hostAlias applies rest
    else applying hostAlias applies rest

section

variable {values : List (List Char)} {value hostAlias : List Char} {line : Nat}

theorem splitNegation_eq : splitNegation value = (decide (Negated value), patternOf value) := by
  cases value with
  | nil => rfl
  | cons c rest =>
    by_cases same : c = '!' <;> simp [splitNegation, patternOf, Text.stripPrefix, Negated, same]

def hostDiagnostic (line : Nat) (value : List Char) : Option Diagnostic :=
  if patternOf value = [] ∨ containsDangerousExpansion (patternOf value) then
    some (diagnostic .invalidHostAlias (some line) (some "Host".toList)
      "Host pattern is empty or contains unsafe expansion syntax" true)
  else if '[' ∈ patternOf value ∨ ']' ∈ patternOf value then
    some (diagnostic .unsupportedHostPattern (some line) (some "Host".toList)
      "Bracket Host patterns are not evaluated by the safe import preview" true)
  else if ¬Negated value ∧ '*' ∉ value ∧ '?' ∉ value ∧ ¬isValidAlias value then
    some (diagnostic .invalidHostAlias (some line) (some "Host".toList)
      "Literal Host alias is not a safe ASCII alias" true)
  else none

def hostPattern (value : List Char) : HostPattern where
  pattern := (patternOf value).map Char.toLower
  negated := Negated value

theorem patternOf_of_positive (positive : ¬Negated value) : patternOf value = value := by
  cases value with
  | nil => rfl
  | cons c rest =>
    have other : c ≠ '!' := by simpa [Negated] using positive
    simp [patternOf, Text.stripPrefix, other]

theorem containsDangerousExpansion_mem (h : containsDangerousExpansion value = true) :
    '`' ∈ value ∨ '$' ∈ value := by
  simp only [containsDangerousExpansion, Bool.or_eq_true, decide_eq_true_eq, List.any_eq_true] at h
  rcases h with ((quote | paren) | brace) | ⟨pair, mem, expansion⟩
  · exact .inl quote
  · exact .inr (List.of_mem_zip paren).1
  · exact .inr (List.of_mem_zip brace).1
  · have dollar : pair.1 = '$' := by simp_all [isExpansion]
    exact .inr (dollar ▸ (List.of_mem_zip (a := pair.1) (b := pair.2) mem).1)

theorem isValidAlias_chars {c : Char} (valid : isValidAlias value = true) (mem : c ∈ value) :
    Text.isAsciiAlphanumeric c = true ∨ c = '.' ∨ c = '_' ∨ c = '-' := by
  simp only [isValidAlias, Bool.and_eq_true, List.all_eq_true] at valid
  simpa using valid.2 c mem

theorem isValidAlias_nonempty (valid : isValidAlias value = true) : value ≠ [] := by
  rintro rfl
  cases valid

theorem isValidAlias_evaluable (valid : isValidAlias value = true) (positive : ¬Negated value) :
    ¬Unevaluable value := by
  have free (c : Char)
      (other : ¬(Text.isAsciiAlphanumeric c = true ∨ c = '.' ∨ c = '_' ∨ c = '-')) :
      c ∉ value := fun mem => other (isValidAlias_chars valid mem)
  rw [Unevaluable, patternOf_of_positive positive]
  rintro (empty | expansion | opening | closing)
  · exact isValidAlias_nonempty valid empty
  · rcases containsDangerousExpansion_mem expansion with mem | mem
    · exact free _ (by decide) mem
    · exact free _ (by decide) mem
  · exact free _ (by decide) opening
  · exact free _ (by decide) closing

theorem readHostPattern_eq (selector : HostSelector) : readHostPattern line selector value = {
      patterns := selector.patterns ++ if Unevaluable value then [] else [hostPattern value]
      ambiguous := selector.ambiguous || Unevaluable value
      discovered := selector.discovered ++ if Literal value then [value] else []
      diagnostics := selector.diagnostics ++ (hostDiagnostic line value).toList } := by
  have literal (h : Unevaluable value) : ¬Literal value := fun literal =>
    isValidAlias_evaluable literal.2.2.2 literal.1 h
  rw [readHostPattern, splitNegation_eq]
  simp only [hostDiagnostic]
  by_cases unsafe_ : patternOf value = [] ∨ containsDangerousExpansion (patternOf value) = true
  · have unevaluable : Unevaluable value := unsafe_.imp_right .inl
    simp [if_pos unsafe_, unevaluable, literal unevaluable]
  · rw [if_neg unsafe_, if_neg unsafe_]
    by_cases bracket : '[' ∈ patternOf value ∨ ']' ∈ patternOf value
    · have unevaluable : Unevaluable value := .inr (.inr bracket)
      simp [if_pos bracket, unevaluable, literal unevaluable]
    · have evaluable : ¬Unevaluable value := by
        rw [Unevaluable, ← or_assoc]
        exact not_or.mpr ⟨unsafe_, bracket⟩
      rw [if_neg bracket, if_neg bracket]
      by_cases negated : Negated value
      · simp [negated, evaluable, Literal, hostPattern]
      · rw [patternOf_of_positive negated]
        by_cases wild : '*' ∉ value ∧ '?' ∉ value
        · by_cases valid : isValidAlias value = true
          · simp [negated, wild, valid, evaluable, Literal, hostPattern,
              patternOf_of_positive negated]
          · simp [negated, wild, valid, evaluable, Literal, hostPattern,
              patternOf_of_positive negated]
        · have notLiteral : ¬Literal value := fun h => wild ⟨h.2.1, h.2.2.1⟩
          have noReport : ¬(¬Negated value ∧ '*' ∉ value ∧ '?' ∉ value ∧ ¬isValidAlias value) :=
            fun h => wild ⟨h.2.1, h.2.2.1⟩
          have noLiteral : ¬((!decide (Negated value)) = true ∧ '*' ∉ value ∧ '?' ∉ value) :=
            fun h => wild h.2
          rw [if_neg noReport, if_neg noLiteral, if_neg notLiteral]
          simp [evaluable, hostPattern, patternOf_of_positive negated]

theorem foldl_readHostPattern (selector : HostSelector) :
    values.foldl (readHostPattern line) selector = {
      patterns := selector.patterns ++ (values.filter (¬Unevaluable ·)).map hostPattern
      ambiguous := selector.ambiguous || values.any (Unevaluable ·)
      discovered := selector.discovered ++ values.filter (Literal ·)
      diagnostics := selector.diagnostics ++ values.filterMap (hostDiagnostic line) } := by
  induction values generalizing selector with
  | nil => simp
  | cons value values ih =>
    rw [List.foldl_cons, ih, readHostPattern_eq]
    by_cases unevaluable : Unevaluable value <;> by_cases literal : Literal value <;>
      cases report : hostDiagnostic line value <;> simp [unevaluable, literal, report]

theorem parseHostSelector_eq (nonempty : values ≠ []) : parseHostSelector values line = {
      patterns := (values.filter (¬Unevaluable ·)).map hostPattern
      ambiguous := values.any (Unevaluable ·)
      discovered := values.filter (Literal ·)
      diagnostics := values.filterMap (hostDiagnostic line) } := by
  rw [parseHostSelector, if_neg nonempty, foldl_readHostPattern]
  simp

theorem parseHostSelector_discovered :
    (parseHostSelector values line).discovered = values.filter (Literal ·) := by
  by_cases empty : values = []
  · rw [empty]
    rfl
  · rw [parseHostSelector_eq empty]

theorem patternsMatch_eq (positive : Bool) (patterns : List HostPattern) :
    patternsMatch hostAlias positive patterns = true ↔ (positive = true ∨ ∃ pattern ∈ patterns,
        pattern.negated = false ∧ Glob (bytes pattern.pattern) (bytes hostAlias)) ∧
      ¬∃ pattern ∈ patterns,
        pattern.negated = true ∧ Glob (bytes pattern.pattern) (bytes hostAlias) := by
  induction patterns generalizing positive with
  | nil => simp [patternsMatch]
  | cons pattern patterns ih =>
    rw [patternsMatch]
    simp only [globMatches_iff, List.exists_mem_cons_iff]
    by_cases found : Glob (bytes pattern.pattern) (bytes hostAlias)
    · rw [if_pos found]
      cases negated : pattern.negated with
      | true => simp [found]
      | false => simp [found, ih]
    · simp [found, ih]

theorem glob_hostPattern :
    Glob (bytes (hostPattern value).pattern) (bytes hostAlias) ↔ Matched hostAlias value := by
  rw [hostPattern, bytes_toLower, glob_asciiLower, Matched]

theorem parseHostSelector_matches : (BlockSelector.host (parseHostSelector values line).patterns
      (parseHostSelector values line).ambiguous).matches hostAlias = true ↔
      values = [] ∨ (∃ value ∈ values, Unevaluable value) ∨
        (∃ value ∈ values, ¬Negated value ∧ Matched hostAlias value) ∧
          ¬∃ value ∈ values, Negated value ∧ Matched hostAlias value := by
  by_cases empty : values = []
  · simp [parseHostSelector, empty, BlockSelector.matches]
  rw [parseHostSelector_eq empty, BlockSelector.matches]
  simp only [empty, false_or, Bool.or_eq_true, List.any_eq_true, decide_eq_true_eq]
  by_cases unevaluable : ∃ value ∈ values, Unevaluable value
  · simp [unevaluable]
  have all : values.filter (¬Unevaluable ·) = values :=
    List.filter_eq_self.mpr fun value mem => decide_eq_true fun h => unevaluable ⟨value, mem, h⟩
  have negated (value : List Char) : (hostPattern value).negated = decide (Negated value) := rfl
  rw [patternsMatch_eq, all]
  simp [unevaluable, glob_hostPattern, negated]

/-- Nothing is reported only of a line whose patterns are there, can be evaluated, and are valid
aliases when they are literal. -/
theorem parseHostSelector_diagnostics (h : (parseHostSelector values line).diagnostics = []) :
    values ≠ [] ∧ ∀ value ∈ values, ¬Unevaluable value ∧
      (¬Negated value → '*' ∉ value → '?' ∉ value → isValidAlias value = true) := by
  by_cases empty : values = []
  · simp [parseHostSelector, empty] at h
  rw [parseHostSelector_eq empty, List.filterMap_eq_nil_iff] at h
  refine ⟨empty, fun value mem => ?_⟩
  have quiet := h value mem
  rw [hostDiagnostic] at quiet
  split at quiet
  next => cases quiet
  next safe =>
    split at quiet
    next => cases quiet
    next plain =>
      split at quiet
      next => cases quiet
      next valid =>
        refine ⟨?_, fun positive star question => ?_⟩
        · rw [Unevaluable, ← or_assoc]
          exact not_or.mpr ⟨safe, plain⟩
        · by_contra invalid
          exact valid ⟨positive, star, question, invalid⟩

theorem parseHostSelector_blocking {item : Diagnostic}
    (mem : item ∈ (parseHostSelector values line).diagnostics) : item.blocking = true := by
  by_cases empty : values = []
  · rw [parseHostSelector, if_pos empty, List.mem_singleton] at mem
    rw [mem]
    rfl
  · rw [parseHostSelector_eq empty, List.mem_filterMap] at mem
    obtain ⟨value, -, report⟩ := mem
    rw [hostDiagnostic] at report
    split at report
    · cases report
      rfl
    · split at report
      · cases report
        rfl
      · split at report
        · cases report
          rfl
        · cases report

end

def Entry.block (entry : Entry) : ConfigBlock :=
  if entry.IsHost then
    let selector := parseHostSelector entry.parsed.values entry.line
    { selector := .host selector.patterns selector.ambiguous, diagnostics := selector.diagnostics }
  else
    let code :=
      if entry.parsed.values.any (keywordIs · "exec") then .dangerousToken else .matchUnsupported
    { selector := .matchBlock
      diagnostics := [diagnostic code (some entry.line) (some "Match".toList)
        "Match blocks are not evaluated by the safe import preview" true] }

theorem Entry.block_directives (entry : Entry) : entry.block.directives = [] := by
  rw [block]
  split <;> rfl

theorem Entry.block_matches (entry : Entry) (hostAlias : List Char) :
    entry.block.selector.matches hostAlias = decide (entry.AppliesTo hostAlias) := by
  rw [Bool.eq_iff_iff, decide_eq_true_eq, block, AppliesTo]
  split
  next host => simp only [host, true_imp_iff, parseHostSelector_matches]
  next other => simp [other, BlockSelector.matches]

def effective (hostAlias : List Char) (blocks : List ConfigBlock) : List ParsedDirective :=
  blocks.flatMap fun block => if block.selector.matches hostAlias then block.directives else []

namespace Document

variable {document : Document} {hostAlias : List Char} {lines : List (List Char)}
  {rawLine : List Char} {parsed : ParsedLine} {line index : Nat}

def allBlocks (document : Document) : List ConfigBlock := document.blocks ++ [document.current]

theorem addAlias_blocks : (document.addAlias line hostAlias).blocks = document.blocks ∧
    (document.addAlias line hostAlias).current = document.current := by
  simp only [addAlias]
  split
  · exact ⟨rfl, rfl⟩
  · split
    · split <;> exact ⟨rfl, rfl⟩
    · exact ⟨rfl, rfl⟩

theorem foldl_addAlias_blocks (aliases : List (List Char)) :
    (aliases.foldl (addAlias line) document).blocks = document.blocks ∧
      (aliases.foldl (addAlias line) document).current = document.current := by
  induction aliases generalizing document with
  | nil => exact ⟨rfl, rfl⟩
  | cons hostAlias aliases ih =>
    exact ⟨ih.1.trans addAlias_blocks.1, ih.2.trans addAlias_blocks.2⟩

section

variable (document) {entry : Entry}

theorem addParsed_host (host : entry.IsHost) : document.addParsed entry.parsed entry.line =
      entry.aliases.foldl (addAlias entry.line) (document.startBlock entry.block) := by
  rw [Entry.aliases, if_pos host, Entry.block, if_pos host]
  rw [Entry.IsHost] at host
  rw [addParsed, if_pos host, addHost, parseHostSelector_discovered]

theorem addParsed_match (other : ¬entry.IsHost) (isMatch : entry.IsMatch) :
    document.addParsed entry.parsed entry.line = document.startBlock entry.block := by
  rw [Entry.block, if_neg other]
  rw [Entry.IsHost] at other
  rw [Entry.IsMatch] at isMatch
  rw [addParsed, if_neg other, if_pos isMatch, addMatch]

theorem addParsed_directive (other : ¬(entry.IsHost ∨ entry.IsMatch)) :
    document.addParsed entry.parsed entry.line = { document with
      current := { document.current with
        directives := document.current.directives ++ [entry.directive] } } := by
  obtain ⟨notHost, notMatch⟩ := not_or.mp other
  rw [Entry.IsHost] at notHost
  rw [Entry.IsMatch] at notMatch
  rw [addParsed, if_neg notHost, if_neg notMatch, Entry.directive]

theorem addParsed_header (header : entry.IsHost ∨ entry.IsMatch) :
    (document.addParsed entry.parsed entry.line).blocks = document.allBlocks ∧
      (document.addParsed entry.parsed entry.line).current = entry.block := by
  by_cases host : entry.IsHost
  · rw [document.addParsed_host host]
    exact foldl_addAlias_blocks _
  · rw [document.addParsed_match host (header.resolve_left host)]
    exact ⟨rfl, rfl⟩

end

section

variable (document) (line) (short : String.utf8Len rawLine ≤ maxLineBytes)

include short

theorem addLine_error {message : String} (read : parseLine rawLine = .error message) :
    document.addLine line rawLine = { document with
      current := { document.current with
        diagnostics := document.current.diagnostics ++
          [diagnostic .invalidSyntax (some line) none message true] } } := by
  simp only [addLine, if_neg (Nat.not_lt.mpr short), read]

theorem addLine_none (read : parseLine rawLine = .ok none) :
    document.addLine line rawLine = document := by
  simp only [addLine, if_neg (Nat.not_lt.mpr short), read]

theorem addLine_parsed (read : parseLine rawLine = .ok (some parsed)) :
    document.addLine line rawLine = document.addParsed parsed line := by
  simp only [addLine, if_neg (Nat.not_lt.mpr short), read]

end

theorem addLines_cons (few : index + (rawLine :: lines).length ≤ maxConfigLines) :
    document.addLines index (rawLine :: lines) =
      (document.addLine (index + 1) rawLine).addLines (index + 1) lines := by
  rw [List.length_cons] at few
  rw [addLines, if_neg (by omega)]

theorem few_tail (few : index + (rawLine :: lines).length ≤ maxConfigLines) :
    index + 1 + lines.length ≤ maxConfigLines :=
  (Nat.add_right_comm index 1 _).trans_le few

theorem addLines_append {more : List (List Char)} (few : index + lines.length ≤ maxConfigLines) :
    document.addLines index (lines ++ more) =
      (document.addLines index lines).addLines (index + lines.length) more := by
  induction lines generalizing document index with
  | nil => rfl
  | cons rawLine lines ih =>
    rw [List.length_cons] at few
    rw [List.cons_append, addLines, if_neg (by omega), ih (by omega), addLines, if_neg (by omega),
      List.length_cons]
    congr 1
    omega

theorem effective_addLines (short : ∀ rawLine ∈ lines, String.utf8Len rawLine ≤ maxLineBytes)
    (few : index + lines.length ≤ maxConfigLines) :
    effective hostAlias (document.addLines index lines).allBlocks =
      effective hostAlias document.allBlocks ++
        (applying hostAlias (document.current.selector.matches hostAlias)
          (entries index lines)).map Entry.directive := by
  induction lines generalizing document index with
  | nil => simp [addLines, entries, applying]
  | cons rawLine lines ih =>
    obtain ⟨here, short⟩ := List.forall_mem_cons.mp short
    rw [addLines_cons few, ih short (few_tail few), entries]
    cases read : parseLine rawLine with
    | error message =>
      rw [addLine_error document _ here read]
      simp [allBlocks, effective]
    | ok said =>
      cases said with
      | none => rw [addLine_none document _ here read]
      | some parsed =>
        let entry : Entry := ⟨index + 1, parsed⟩
        simp only [addLine_parsed document _ here read, applying]
        by_cases header : entry.IsHost ∨ entry.IsMatch
        · obtain ⟨blocks, current⟩ := document.addParsed_header header
          rw [if_pos header, allBlocks, blocks, current, entry.block_matches]
          simp [effective, entry.block_directives, entry]
        · rw [if_neg header, document.addParsed_directive header]
          cases applies : document.current.selector.matches hostAlias with
          | true => simp [allBlocks, effective, applies, entry]
          | false => simp [allBlocks, effective, applies]

/-- Which aliases a document has collected from those that its lines introduce. -/
structure Collected (document : Document) (introduced : List (List Char)) : Prop where
  aliases : document.aliases = (firsts (List.map Char.toLower) introduced).take maxCandidates
  seen : document.seenAliases = (document.aliases.map (List.map Char.toLower)).toFinset
  overflow : document.candidateLimitReported = true ↔
    maxCandidates < (firsts (List.map Char.toLower) introduced).length
  reported : document.candidateLimitReported = true →
    ∃ item ∈ document.diagnostics, item.blocking = true

theorem collected_nil : Collected {} [] := by
  refine ⟨rfl, rfl, by decide, ?_⟩
  intro reported
  cases reported

variable {introduced : List (List Char)}

theorem Collected.addAlias (h : document.Collected introduced) :
    (document.addAlias line hostAlias).Collected (introduced ++ [hostAlias]) := by
  have known : hostAlias.map Char.toLower ∈ document.seenAliases →
      hostAlias.map Char.toLower ∈ introduced.map (List.map Char.toLower) := by
    rw [h.seen, List.mem_toFinset, h.aliases]
    exact fun mem => mem_map_firsts.mp (((List.take_sublist _ _).map _).subset mem)
  have size : document.aliases.length =
      min maxCandidates (firsts (List.map Char.toLower) introduced).length := by
    rw [h.aliases, List.length_take]
  by_cases repeated : hostAlias.map Char.toLower ∈ introduced.map (List.map Char.toLower)
  · -- The alias is collected already, or lies beyond the limit.
    have same : firsts (List.map Char.toLower) (introduced ++ [hostAlias]) =
        firsts (List.map Char.toLower) introduced := by rw [firsts_concat, if_pos repeated]
    simp only [Document.addAlias]
    split
    · exact ⟨same ▸ h.aliases, h.seen, same ▸ h.overflow, h.reported⟩
    next unseen =>
      have beyond : maxCandidates < (firsts (List.map Char.toLower) introduced).length := by
        by_contra fits
        refine unseen ?_
        rw [h.seen, List.mem_toFinset, h.aliases, List.take_of_length_le (by omega), mem_map_firsts]
        exact repeated
      rw [if_pos (by omega), if_pos (h.overflow.mpr beyond)]
      exact ⟨same ▸ h.aliases, h.seen, same ▸ h.overflow, h.reported⟩
  · have more : firsts (List.map Char.toLower) (introduced ++ [hostAlias]) =
        firsts (List.map Char.toLower) introduced ++ [hostAlias] := by
      rw [firsts_concat, if_neg repeated]
    simp only [Document.addAlias]
    rw [if_neg (repeated ∘ known)]
    split
    next full =>
      have all : (firsts (List.map Char.toLower) introduced ++ [hostAlias]).take maxCandidates =
          (firsts (List.map Char.toLower) introduced).take maxCandidates :=
        List.take_append_of_le_length (by omega)
      have beyond : maxCandidates < (firsts (List.map Char.toLower) introduced ++
          [hostAlias]).length := by
        rw [List.length_append, List.length_singleton]
        omega
      split
      next reported =>
        exact ⟨by rw [more, all, h.aliases], h.seen, by simp only [more, beyond, reported],
          h.reported⟩
      next =>
        exact ⟨by rw [more, all]; exact h.aliases, h.seen,
          by simp only [more, beyond, Document.report],
          fun _ => ⟨_, List.mem_append_right _ List.mem_cons_self, rfl⟩⟩
    next room =>
      have fits : (firsts (List.map Char.toLower) introduced).length < maxCandidates := by omega
      have aliases : document.aliases ++ [hostAlias] =
          (firsts (List.map Char.toLower) introduced ++ [hostAlias]).take maxCandidates := by
        rw [h.aliases, List.take_of_length_le (by omega), List.take_of_length_le (by simp; omega)]
      refine ⟨by rw [more]; exact aliases, ?_, ?_, h.reported⟩
      · simp only [h.seen, List.map_append, List.toFinset_append]
        rw [Finset.insert_eq, Finset.union_comm]
        rfl
      · rw [more, List.length_append, List.length_singleton, h.overflow]
        constructor
        · omega
        · omega

theorem Collected.foldl_addAlias (h : document.Collected introduced) (aliases : List (List Char)) :
    (aliases.foldl (Document.addAlias line) document).Collected (introduced ++ aliases) := by
  induction aliases generalizing document introduced with
  | nil => rwa [List.append_nil]
  | cons hostAlias aliases ih => simpa using ih h.addAlias

theorem Collected.congr {other : Document} (h : document.Collected introduced)
    (aliases : other.aliases = document.aliases) (seen : other.seenAliases = document.seenAliases)
    (diagnostics : other.diagnostics = document.diagnostics)
    (limit : other.candidateLimitReported = document.candidateLimitReported) :
    other.Collected introduced :=
  ⟨aliases ▸ h.aliases, by rw [seen, aliases, h.seen], limit ▸ h.overflow,
    by rw [limit, diagnostics]; exact h.reported⟩

theorem Collected.addParsed (h : document.Collected introduced) (entry : Entry) :
    (document.addParsed entry.parsed entry.line).Collected (introduced ++ entry.aliases) := by
  by_cases host : entry.IsHost
  · rw [document.addParsed_host host]
    have opened : (document.startBlock entry.block).Collected introduced := h.congr rfl rfl rfl rfl
    exact opened.foldl_addAlias _
  · rw [Entry.aliases, if_neg host, List.append_nil]
    by_cases isMatch : entry.IsMatch
    · rw [document.addParsed_match host isMatch]
      exact h.congr rfl rfl rfl rfl
    · rw [document.addParsed_directive (not_or.mpr ⟨host, isMatch⟩)]
      exact h.congr rfl rfl rfl rfl

theorem Collected.addLines (h : document.Collected introduced)
    (short : ∀ rawLine ∈ lines, String.utf8Len rawLine ≤ maxLineBytes)
    (few : index + lines.length ≤ maxConfigLines) :
    (document.addLines index lines).Collected
      (introduced ++ (entries index lines).flatMap Entry.aliases) := by
  induction lines generalizing document introduced index with
  | nil => simpa [Document.addLines, entries] using h
  | cons rawLine lines ih =>
    obtain ⟨here, short⟩ := List.forall_mem_cons.mp short
    rw [addLines_cons few, entries]
    cases read : parseLine rawLine with
    | error message =>
      refine ih ?_ short (few_tail few)
      rw [addLine_error document _ here read]
      exact h.congr rfl rfl rfl rfl
    | ok said =>
      cases said with
      | none =>
        refine ih ?_ short (few_tail few)
        rwa [addLine_none document _ here read]
      | some parsed =>
        simp only [List.flatMap_cons, ← List.append_assoc]
        refine ih ?_ short (few_tail few)
        rw [addLine_parsed document _ here read]
        exact h.addParsed ⟨index + 1, parsed⟩

end Document

end NoriShell.Ssh.OpenSsh

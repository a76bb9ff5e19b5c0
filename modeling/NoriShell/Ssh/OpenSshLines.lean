import NoriShell.Ssh.OpenSshConfig

/-! The lines of an OpenSSH configuration: how their words are told apart, and what quotes do. -/

namespace NoriShell.Ssh.OpenSsh

open Collections

def escapeOutside (state : Tokens) : List Char → Except String (List (List Char))
  | [] => .error "Trailing escape in value"
  | escaped :: cs =>
    if isEscapable escaped then tokenizeFrom none (state.push escaped) cs
    else tokenizeFrom none ((state.push '\\').push escaped) cs

def escapeInside (quote : Char) (state : Tokens) : List Char → Except String (List (List Char))
  | [] => .error "Trailing escape in quoted value"
  | escaped :: cs => tokenizeFrom (some quote) (state.push escaped) cs

theorem tokenizeFrom_outside (state : Tokens) (c : Char) (rest : List Char) :
    tokenizeFrom none state (c :: rest) =
      if c = '\'' ∨ c = '"' then tokenizeFrom (some c) { state with started := true } rest
      else if c = '#' then .ok state.close.tokens
      else if Text.isWhitespace c then tokenizeFrom none state.close rest
      else if c = '\\' then escapeOutside state rest
      else tokenizeFrom none (state.push c) rest := by
  cases rest with
  | nil => rfl
  | cons d ds => rfl

theorem tokenizeFrom_inside (quote : Char) (state : Tokens) (c : Char) (rest : List Char) :
    tokenizeFrom (some quote) state (c :: rest) =
      if c = quote then tokenizeFrom none state rest
      else if c = '\\' then escapeInside quote state rest
      else tokenizeFrom (some quote) (state.push c) rest := by
  cases rest with
  | nil => rfl
  | cons d ds => rfl

theorem tokenizeFrom_nil (state : Tokens) : tokenizeFrom none state [] = .ok state.close.tokens :=
  rfl

section

def IsWordChar (c : Char) : Prop :=
  Text.isWhitespace c = false ∧ c ≠ '\'' ∧ c ≠ '"' ∧ c ≠ '#' ∧ c ≠ '\\'

/-- Text in which a backslash only precedes characters that it does not escape outside quotes. -/
inductive Unescaped : List Char → Prop
  | nil : Unescaped []
  | char {c : Char} {cs : List Char} (plain : IsWordChar c) (rest : Unescaped cs) : Unescaped (c :: cs)
  | backslash {c : Char} {cs : List Char} (plain : IsWordChar c) (rest : Unescaped cs) :
      Unescaped ('\\' :: c :: cs)

variable {state : Tokens} {text rest blanks : List Char} {c : Char}

theorem Unescaped.of_plain (plain : ∀ c ∈ text, IsWordChar c) : Unescaped text := by
  induction text with
  | nil => exact .nil
  | cons c cs ih =>
    rw [List.forall_mem_cons] at plain
    exact .char plain.1 (ih plain.2)

theorem IsWordChar.not_escapable (plain : IsWordChar c) : isEscapable c = false := by
  obtain ⟨blank, single, double, hash, backslash⟩ := plain
  simp [isEscapable, blank, single, double, hash, backslash]

namespace Tokens

def pushAll (state : Tokens) (text : List Char) : Tokens := text.foldl push state

theorem pushAll_of_ne_nil (nonempty : text ≠ []) (state : Tokens) :
    state.pushAll text = { state with token := state.token ++ text, started := true } := by
  induction text generalizing state with
  | nil => exact absurd rfl nonempty
  | cons c cs ih =>
    cases cs with
    | nil => rfl
    | cons d ds =>
      show (state.push c).pushAll (d :: ds) = _
      rw [ih (by simp)]
      simp [push]

@[simp] theorem close_close (state : Tokens) : state.close.close = state.close := by
  rcases state with ⟨tokens, token, _ | _⟩ <;> rfl

end Tokens

theorem tokenizeFrom_plain (plain : IsWordChar c) (state : Tokens) (rest : List Char) :
    tokenizeFrom none state (c :: rest) = tokenizeFrom none (state.push c) rest := by
  obtain ⟨blank, single, double, hash, backslash⟩ := plain
  rw [tokenizeFrom_outside, if_neg (by simp [single, double]), if_neg hash, if_neg (by simp [blank]),
    if_neg backslash]

theorem tokenizeFrom_text (unescaped : Unescaped text) (state : Tokens) (rest : List Char) :
    tokenizeFrom none state (text ++ rest) = tokenizeFrom none (state.pushAll text) rest := by
  induction unescaped generalizing state with
  | nil => rfl
  | char plain _ ih => rw [List.cons_append, tokenizeFrom_plain plain, ih]; rfl
  | @backslash c cs plain _ ih =>
    have step : tokenizeFrom none state ('\\' :: c :: (cs ++ rest)) =
        tokenizeFrom none ((state.push '\\').push c) (cs ++ rest) := by
      rw [tokenizeFrom_outside, if_neg (by decide), if_neg (by decide), if_neg (by decide),
        if_pos rfl, escapeOutside, if_neg (by simp [plain.not_escapable])]
    rw [List.cons_append, List.cons_append, step, ih]
    rfl

theorem tokenizeFrom_blanks (isBlank : ∀ c ∈ blanks, Text.isWhitespace c)
    (nonempty : blanks ≠ []) (state : Tokens) (rest : List Char) :
    tokenizeFrom none state (blanks ++ rest) = tokenizeFrom none state.close rest := by
  induction blanks generalizing state with
  | nil => exact absurd rfl nonempty
  | cons c cs ih =>
    rw [List.forall_mem_cons] at isBlank
    have plain : ¬(c = '\'' ∨ c = '"') ∧ c ≠ '#' := by
      constructor
      · rintro (rfl | rfl) <;> exact absurd isBlank.1 (by decide)
      · rintro rfl
        exact absurd isBlank.1 (by decide)
    have step : tokenizeFrom none state (c :: (cs ++ rest)) =
        tokenizeFrom none state.close (cs ++ rest) := by
      rw [tokenizeFrom_outside, if_neg plain.1, if_neg plain.2, if_pos isBlank.1]
    rw [List.cons_append, step]
    cases cs with
    | nil => rfl
    | cons d ds => rw [ih isBlank.2 (by simp), Tokens.close_close]

structure Word where
  blanks : List Char
  text : List Char
  isBlank : ∀ c ∈ blanks, Text.isWhitespace c
  plain : ∀ c ∈ text, IsWordChar c
  nonempty : text ≠ []

def Word.line (words : List Word) : List Char := words.flatMap fun word => word.blanks ++ word.text

theorem tokenizeFrom_words (words : List Word) (apart : ∀ word ∈ words, word.blanks ≠ [])
    {state : Tokens} (started : state.started = true) :
    tokenizeFrom none state (Word.line words) =
      .ok (state.tokens ++ state.token :: words.map Word.text) := by
  induction words generalizing state with
  | nil => simp [Word.line, tokenizeFrom_nil, Tokens.close, started]
  | cons word words ih =>
    rw [List.forall_mem_cons] at apart
    rw [Word.line, List.flatMap_cons, List.append_assoc, tokenizeFrom_blanks word.isBlank apart.1,
      tokenizeFrom_text (.of_plain word.plain), Tokens.pushAll_of_ne_nil word.nonempty]
    refine (ih apart.2 rfl).trans ?_
    simp [Tokens.close, started]

theorem tokenize_words (word : Word) (words : List Word) (apart : ∀ word ∈ words, word.blanks ≠ []) :
    tokenize (Word.line (word :: words)) = .ok (word.text :: words.map Word.text) := by
  have first (rest : List Char) : tokenize (word.blanks ++ (word.text ++ rest)) =
      tokenizeFrom none { token := word.text, started := true } rest := by
    have text := tokenizeFrom_text (.of_plain word.plain) {} rest
    rw [Tokens.pushAll_of_ne_nil word.nonempty] at text
    by_cases none : word.blanks = []
    · rw [none]
      exact text
    · rw [tokenize, tokenizeFrom_blanks word.isBlank none]
      exact text
  rw [Word.line, List.flatMap_cons, List.append_assoc, first]
  exact tokenizeFrom_words words apart rfl

end

section

/-- How a keyword and its value are put apart: by blanks, or by an equals sign with or without
blanks around it. -/
inductive Spelling
  | blank (gap : List Char)
  | equals
  | blankEqualsBlank (before after : List Char)
  | equalsBlank (gap : List Char)
  | blankEquals (gap : List Char)

def Spelling.gaps : Spelling → List (List Char)
  | .blank gap | .equalsBlank gap | .blankEquals gap => [gap]
  | .equals => []
  | .blankEqualsBlank before after => [before, after]

def Spelling.line (keyword value : List Char) : Spelling → List Char
  | .blank gap => keyword ++ gap ++ value
  | .equals => keyword ++ '=' :: value
  | .blankEqualsBlank before after => keyword ++ before ++ '=' :: (after ++ value)
  | .equalsBlank gap => keyword ++ '=' :: (gap ++ value)
  | .blankEquals gap => keyword ++ gap ++ '=' :: value

def IsBlankText (text : List Char) : Prop := ∀ c ∈ text, Text.isWhitespace c

/-- A keyword or a value: no blanks, quotes, comments, escapes or equals signs. -/
def IsName (text : List Char) : Prop := text ≠ [] ∧ ∀ c ∈ text, IsWordChar c ∧ c ≠ '='

variable {text : List Char}

theorem splitOnce_none (free : ∀ c ∈ text, c ≠ '=') : Text.splitOnce '=' text = none := by
  induction text with
  | nil => rfl
  | cons c cs ih =>
    rw [List.forall_mem_cons] at free
    rw [Text.splitOnce, if_neg free.1, ih free.2]
    rfl

theorem splitOnce_append (free : ∀ c ∈ text, c ≠ '=') (rest : List Char) :
    Text.splitOnce '=' (text ++ '=' :: rest) = some (text, rest) := by
  induction text with
  | nil => rfl
  | cons c cs ih =>
    rw [List.forall_mem_cons] at free
    rw [List.cons_append, Text.splitOnce, if_neg free.1, ih free.2]
    rfl

section

variable {line first keyword value : List Char} {tokens : List (List Char)}

theorem parseLine_split (read : tokenize line = .ok (first :: tokens))
    (split : Text.splitOnce '=' first = some (keyword, value)) (nonempty : keyword ≠ []) :
    parseLine line =
      .ok (some { keyword, values := if value = [] then tokens else value :: tokens }) := by
  simp only [parseLine, read, bind, Except.bind, split, reject, if_neg nonempty]
  rfl

theorem parseLine_unsplit (read : tokenize line = .ok (first :: tokens))
    (whole : Text.splitOnce '=' first = none) :
    parseLine line = .ok (some {
      keyword := first
      values := if tokens.head? = some ['='] then tokens.tail else tokens }) := by
  simp only [parseLine, read, bind, Except.bind, whole]
  rfl

end

section

theorem isWordChar_equals : IsWordChar '=' := by
  refine ⟨by decide, by decide, by decide, by decide, by decide⟩

variable {text : List Char}

theorem IsName.plain (name : IsName text) : ∀ c ∈ text, IsWordChar c :=
  fun c mem => (name.2 c mem).1

theorem IsName.free (name : IsName text) : ∀ c ∈ text, c ≠ '=' :=
  fun c mem => (name.2 c mem).2

theorem plain_cons_equals (plain : ∀ c ∈ text, IsWordChar c) : ∀ c ∈ '=' :: text, IsWordChar c :=
  List.forall_mem_cons.2 ⟨isWordChar_equals, plain⟩

theorem plain_append {rest : List Char} (plain : ∀ c ∈ text, IsWordChar c)
    (plain' : ∀ c ∈ rest, IsWordChar c) : ∀ c ∈ text ++ rest, IsWordChar c :=
  List.forall_mem_append.2 ⟨plain, plain'⟩

variable {lead a b c before after : List Char}

def IsWord (text : List Char) : Prop := text ≠ [] ∧ ∀ c ∈ text, IsWordChar c

def IsGap (text : List Char) : Prop := text ≠ [] ∧ IsBlankText text

theorem IsName.word (name : IsName text) : IsWord text := ⟨name.1, name.plain⟩

def IsWord.behind {text : List Char} (word : IsWord text) (isBlank : IsBlankText lead) : Word :=
  ⟨lead, text, isBlank, word.2, word.1⟩

theorem tokenize_one (leads : IsBlankText lead) (first : IsWord a) :
    tokenize (lead ++ a) = .ok [a] := by
  have words := tokenize_words (first.behind leads) [] (by simp)
  simpa [Word.line, IsWord.behind] using words

theorem tokenize_two (leads : IsBlankText lead) (first : IsWord a) (gap : IsGap before)
    (second : IsWord b) : tokenize (lead ++ (a ++ (before ++ b))) = .ok [a, b] := by
  have words := tokenize_words (first.behind leads) [second.behind gap.2]
    (by simpa [IsWord.behind] using gap.1)
  simpa [Word.line, IsWord.behind] using words

theorem tokenize_three (leads : IsBlankText lead) (first : IsWord a) (gap : IsGap before)
    (second : IsWord b) (gap' : IsGap after) (third : IsWord c) :
    tokenize (lead ++ (a ++ (before ++ (b ++ (after ++ c))))) = .ok [a, b, c] := by
  have words := tokenize_words (first.behind leads) [second.behind gap.2, third.behind gap'.2]
    (by simpa [IsWord.behind] using ⟨gap.1, gap'.1⟩)
  simpa [Word.line, IsWord.behind] using words

end

/-- Every spelling but one gives the keyword and the value: an equals sign that follows a blank and
touches the value becomes a part of it. -/
theorem parseLine_spelling_iff (spelling : Spelling) (lead keyword value : List Char)
    (leads : IsBlankText lead) (gaps : ∀ gap ∈ spelling.gaps, gap ≠ [] ∧ IsBlankText gap)
    (isKeyword : IsName keyword) (isValue : IsName value) :
    parseLine (lead ++ spelling.line keyword value) = .ok (some { keyword, values := [value] }) ↔
      ∀ gap, spelling ≠ .blankEquals gap := by
  have whole := splitOnce_none isKeyword.free
  have split := splitOnce_append isKeyword.free
  have sign : IsWord ['='] := ⟨by simp, plain_cons_equals (by simp)⟩
  have signed : IsWord ('=' :: value) := ⟨by simp, plain_cons_equals isValue.plain⟩
  have joined (rest : List Char) (plain : ∀ c ∈ rest, IsWordChar c) :
      IsWord (keyword ++ '=' :: rest) :=
    ⟨by simp, plain_append isKeyword.plain (plain_cons_equals plain)⟩
  cases spelling with
  | blank gap =>
    have read : tokenize (lead ++ (keyword ++ gap ++ value)) = .ok [keyword, value] := by
      rw [List.append_assoc keyword]
      exact tokenize_two leads isKeyword.word (gaps gap (by simp [Spelling.gaps])) isValue.word
    have other : value ≠ ['='] := fun same => isValue.free '=' (by simp [same]) rfl
    rw [Spelling.line, parseLine_unsplit read whole]
    simp [other]
  | equals =>
    have read := tokenize_one leads (joined value isValue.plain)
    simp [Spelling.line, parseLine_split read (split value) isKeyword.1, isValue.1]
  | blankEqualsBlank before after =>
    have read : tokenize (lead ++ (keyword ++ before ++ '=' :: (after ++ value))) =
        .ok [keyword, ['='], value] := by
      rw [List.append_assoc keyword]
      exact tokenize_three leads isKeyword.word (gaps before (by simp [Spelling.gaps])) sign
        (gaps after (by simp [Spelling.gaps])) isValue.word
    rw [Spelling.line, parseLine_unsplit read whole]
    simp
  | equalsBlank gap =>
    have read : tokenize (lead ++ (keyword ++ '=' :: (gap ++ value))) =
        .ok [keyword ++ ['='], value] := by
      have words := tokenize_two leads (joined [] (by simp)) (gaps gap (by simp [Spelling.gaps]))
        isValue.word
      simpa using words
    simp [Spelling.line, parseLine_split read (split []) isKeyword.1]
  | blankEquals gap =>
    have read : tokenize (lead ++ (keyword ++ gap ++ '=' :: value)) =
        .ok [keyword, '=' :: value] := by
      rw [List.append_assoc keyword]
      exact tokenize_two leads isKeyword.word (gaps gap (by simp [Spelling.gaps])) signed
    rw [Spelling.line, parseLine_unsplit read whole]
    simp [isValue.1]

theorem isName_of_all (nonempty : text ≠ [])
    (all : text.all fun c => !Text.isWhitespace c && c ∉ ['\'', '"', '#', '\\', '=']) :
    IsName text := by
  refine ⟨nonempty, fun c mem => ?_⟩
  have each := List.all_eq_true.1 all c mem
  simp only [Bool.and_eq_true, Bool.not_eq_true', decide_eq_true_eq, List.mem_cons,
    List.not_mem_nil, or_false, not_or] at each
  exact ⟨⟨each.1, each.2.1, each.2.2.1, each.2.2.2.1, each.2.2.2.2.1⟩, each.2.2.2.2.2⟩

theorem parseLine_spelling_iff_equals : parseLine " Port = 22".toList =
      .ok (some { keyword := "Port".toList, values := ["22".toList] }) := by
  have gaps : ∀ gap ∈ (Spelling.blankEqualsBlank [' '] [' ']).gaps, gap ≠ [] ∧ IsBlankText gap := by
    simp [Spelling.gaps, IsBlankText]
    decide
  exact (parseLine_spelling_iff (.blankEqualsBlank [' '] [' ']) [' '] "Port".toList "22".toList
    (by simp [IsBlankText]; decide) gaps (isName_of_all (by decide) (by decide))
    (isName_of_all (by decide) (by decide))).2 (by simp)

/-- The sign becomes a part of the value. -/
theorem blank_before_equals_keeps_sign : parseLine "Port =22".toList =
        .ok (some { keyword := "Port".toList, values := ["=22".toList] }) ∧
      parseLine "Port = 22".toList =
        .ok (some { keyword := "Port".toList, values := ["22".toList] }) ∧
      parseLine "Port=22".toList =
        .ok (some { keyword := "Port".toList, values := ["22".toList] }) := by
  decide +kernel

end

section

def withoutBackslashes (text : List Char) : List Char := text.filter (· ≠ '\\')

def quoted (quote : Char) (text : List Char) : List Char := quote :: (text ++ [quote])

theorem tokenizeFrom_quoted {text : List Char} (unescaped : Unescaped text) {quote : Char}
    (isQuote : quote = '\'' ∨ quote = '"') (state : Tokens) (rest : List Char) :
    tokenizeFrom (some quote) state (text ++ quote :: rest) =
      tokenizeFrom none (state.pushAll (withoutBackslashes text)) rest := by
  have unquoted {c : Char} (plain : IsWordChar c) : c ≠ quote := by
    rcases isQuote with rfl | rfl
    · exact plain.2.1
    · exact plain.2.2.1
  induction unescaped generalizing state with
  | nil => rw [List.nil_append, tokenizeFrom_inside, if_pos rfl]; rfl
  | @char c cs plain _ ih =>
    rw [List.cons_append, tokenizeFrom_inside, if_neg (unquoted plain), if_neg plain.2.2.2.2, ih]
    simp [withoutBackslashes, plain.2.2.2.2, Tokens.pushAll]
  | @backslash c cs plain _ ih =>
    have other : '\\' ≠ quote := by
      rcases isQuote with rfl | rfl <;> decide
    rw [List.cons_append, List.cons_append, tokenizeFrom_inside, if_neg other, if_pos rfl,
      escapeInside, ih]
    simp [withoutBackslashes, plain.2.2.2.2, Tokens.pushAll]

variable {value : List Char}

structure IsQuotable (value : List Char) : Prop where
  nonempty : value ≠ []
  chars : ∀ c ∈ value, Text.isWhitespace c = false ∧ Text.isControl c = false ∧ c ≠ '\'' ∧
    c ≠ '"' ∧ c ≠ '#'
  ends : value.getLast? ≠ some '\\'
  single : ('\\', '\\') ∉ Text.pairs value

theorem unescaped_of_single : (value : List Char) → (∀ c ∈ value, c ≠ '\\' → IsWordChar c) →
    value.getLast? ≠ some '\\' → ('\\', '\\') ∉ Text.pairs value → Unescaped value
  | [], _, _, _ => .nil
  | [c], plain, ends, _ => .char (plain c (by simp) (by simpa using ends)) .nil
  | c :: d :: cs, plain, ends, single => by
    have pairs : Text.pairs (c :: d :: cs) = (c, d) :: Text.pairs (d :: cs) := rfl
    rw [pairs, List.mem_cons, not_or] at single
    simp only [List.forall_mem_cons] at plain
    by_cases escaping : c = '\\'
    · subst escaping
      have other : d ≠ '\\' := fun same => single.1 (by rw [same])
      refine .backslash (plain.2.1 other) (unescaped_of_single cs plain.2.2 ?_ ?_)
      · intro last
        exact ends (by simp [List.getLast?_cons, last])
      · intro mem
        cases cs with
        | nil => simp [Text.pairs] at mem
        | cons e es => exact single.2 (List.mem_cons_of_mem _ mem)
    · refine .char (plain.1 escaping) (unescaped_of_single (d :: cs) ?_ ?_ single.2)
      · exact List.forall_mem_cons.2 plain.2
      · simpa [List.getLast?_cons] using ends

theorem IsQuotable.unescaped (quotable : IsQuotable value) : Unescaped value := by
  refine unescaped_of_single value (fun c mem other => ?_) quotable.ends quotable.single
  obtain ⟨blank, -, single, double, hash⟩ := quotable.chars c mem
  exact ⟨blank, single, double, hash, other⟩

theorem Tokens.pushAll_of_started {state : Tokens} (started : state.started = true)
    (text : List Char) : state.pushAll text = { state with token := state.token ++ text } := by
  cases text with
  | nil => simp [pushAll]
  | cons c cs => rw [pushAll_of_ne_nil (by simp), started]

theorem tokenize_quoted (unescaped : Unescaped value) {quote : Char}
    (isQuote : quote = '\'' ∨ quote = '"') :
    tokenize (quoted quote value) = .ok [withoutBackslashes value] := by
  rw [tokenize, quoted, tokenizeFrom_outside, if_pos isQuote, tokenizeFrom_quoted unescaped isQuote,
    Tokens.pushAll_of_started rfl, tokenizeFrom_nil]
  rfl

theorem tokenize_unquoted (unescaped : Unescaped value) (nonempty : value ≠ []) :
    tokenize value = .ok [value] := by
  have text := tokenizeFrom_text unescaped {} []
  rw [List.append_nil, Tokens.pushAll_of_ne_nil nonempty, tokenizeFrom_nil] at text
  exact text

theorem withoutBackslashes_eq_self : withoutBackslashes value = value ↔ '\\' ∉ value := by
  simp only [withoutBackslashes, List.filter_eq_self, decide_eq_true_eq]
  constructor
  · intro other mem
    exact other _ mem rfl
  · rintro free c mem rfl
    exact free mem

/-- Quotes keep a value as it is exactly where it has no backslash. -/
theorem tokenize_quoted_iff (value : List Char) (quotable : IsQuotable value) :
    tokenize value = .ok [value] ∧ ((tokenize (quoted '"' value) = tokenize value ∧
        tokenize (quoted '\'' value) = tokenize value) ↔ '\\' ∉ value) := by
  have unescaped := quotable.unescaped
  refine ⟨tokenize_unquoted unescaped quotable.nonempty, ?_⟩
  rw [tokenize_unquoted unescaped quotable.nonempty, tokenize_quoted unescaped (.inr rfl),
    tokenize_quoted unescaped (.inl rfl), and_self, Except.ok.injEq, List.cons.injEq,
    and_iff_left rfl, withoutBackslashes_eq_self]

theorem tokenize_quoted_iff_unix_path : tokenize "\"~/key\"".toList = tokenize "~/key".toList := by
  have quotable : IsQuotable "~/key".toList :=
    ⟨by decide, List.forall_iff_forall_mem.1 (by decide), by decide, by decide⟩
  exact ((tokenize_quoted_iff _ quotable).2.2 (by decide)).1

/-- A path with backslashes names another file in quotes. -/
theorem quoted_path_loses_backslashes :
    tokenize "C:\\Users\\me\\key".toList = .ok ["C:\\Users\\me\\key".toList] ∧
      tokenize "\"C:\\Users\\me\\key\"".toList = .ok ["C:Usersmekey".toList] ∧
      tokenize "'C:\\Users\\me\\key'".toList = .ok ["C:Usersmekey".toList] := by
  decide +kernel

end

end NoriShell.Ssh.OpenSsh

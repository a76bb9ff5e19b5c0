import NoriShell.Operations.Plan
import NoriShell.Shell.Lexer

/-! The words a shell recognises in the planned commands. -/

universe u

namespace NoriShell.Operations

open Collections Shell

inductive Value where
  | text (value : String)
  | number (value : Nat)
  deriving DecidableEq, Repr

inductive Kind where
  | text
  | number
  deriving DecidableEq, Repr

namespace Value

def kind : Value → Kind
  | .text _ => .text
  | .number _ => .number

def spelling : Value → List Char
  | .text value => shellQuote value.toList
  | .number value => digits value

def literal {H : Type u} : Value → List (Piece H)
  | .text value => value.toList.map .literal
  | .number value => (digits value).map .literal

def map (text : String → String) (number : Nat → Nat) : Value → Value
  | .text value => .text (text value)
  | .number value => .number (number value)

def withoutText : Value → Value := map (fun _ => "") id

end Value

def Kind.isText : Kind → Bool
  | .text => true
  | .number => false

section

variable {H : Type u}

theorem lexFrom_single (text : List Char) (word : List (Piece H)) (rest : List (Char ⊕ H)) :
    lexFrom .single (some word) (((text.flatMap fun character =>
      if character = '\'' then ['\'', '"', '\'', '"', '\''] else [character]) ++ ['\'']).map .inl ++
        rest) =
      lexFrom .plain (some (word ++ text.map .literal)) rest := by
  induction text generalizing word with
  | nil => simp [lexFrom, step]
  | cons c text ih =>
    simp only [List.flatMap_cons, List.map_append, List.append_assoc] at ih ⊢
    by_cases quote : c = '\''
    · -- The quote closes, stands inside double quotes, and opens again.
      subst quote
      have added := ih (word ++ [.literal '\''])
      simpa [lexFrom, step, Open.add] using added
    · have added := ih (word ++ [.literal c])
      simpa [lexFrom, step, Open.add, quote] using added

theorem recognised_shellQuote (text : List Char) :
    Recognised (K := H) ((shellQuote text).map .inl) (text.map .literal) := by
  intro word rest
  have body := lexFrom_single text (word.getD []) rest
  simpa [shellQuote, lexFrom, step, Open.add] using body

theorem isOrdinary_of_isDigit {c : Char} (h : c.isDigit = true) : isOrdinary c = true := by
  simp only [isOrdinary, isBlank, isOperator, Bool.and_eq_true, Bool.not_eq_true',
    Bool.or_eq_false_iff, decide_eq_true_eq, decide_eq_false_iff_not]
  and_intros
  all_goals
    rintro rfl
    revert h
    decide

theorem recognised_digits (value : Nat) :
    Recognised (K := H) ((digits value).map .inl) ((digits value).map .literal) :=
  recognised_ordinary Nat.toDigits_ne_nil fun _ mem =>
    isOrdinary_of_isDigit (Nat.isDigit_of_mem_toDigits (by decide) (by decide) mem)

theorem Value.recognised (value : Value) :
    Recognised (K := H) (value.spelling.map .inl) value.literal := by
  cases value with
  | text value => exact recognised_shellQuote value.toList
  | number value => exact recognised_digits value

end

def Segment.symbols : Segment → List (Char ⊕ Value)
  | .text value => value.toList.map .inl
  | .fixed value => (shellQuote value.toList).map .inl
  | .quoted value => [.inr (.text value)]
  | .number value => [.inr (.number value)]

def symbols (segments : List Segment) : List (Char ⊕ Value) := segments.flatMap Segment.symbols

def slots (segments : List Segment) : List (Char ⊕ Kind) := rename Value.kind (symbols segments)

def values (segments : List Segment) : List Value := (symbols segments).filterMap Sum.getRight?

section

variable (segments : List Segment) (value : String)

theorem slots_nil : slots [] = [] := rfl

theorem slots_text : slots (.text value :: segments) = value.toList.map .inl ++ slots segments :=
  (rename_append Value.kind (value.toList.map .inl) (symbols segments)).trans
    (by rw [rename_text]; rfl)

theorem slots_fixed :
    slots (.fixed value :: segments) = (shellQuote value.toList).map .inl ++ slots segments :=
  (rename_append Value.kind ((shellQuote value.toList).map .inl) (symbols segments)).trans
    (by rw [rename_text]; rfl)

theorem slots_quoted : slots (.quoted value :: segments) = .inr .text :: slots segments :=
  rename_append Value.kind [.inr (.text value)] (symbols segments)

theorem slots_number (number : Nat) :
    slots (.number number :: segments) = .inr .number :: slots segments :=
  rename_append Value.kind [.inr (.number number)] (symbols segments)

end

section

variable (segments : List Segment) (value : String)

theorem values_nil : values [] = [] := rfl

theorem values_append (first rest : List Segment) :
    values (first ++ rest) = values first ++ values rest := by
  simp [values, symbols]

theorem values_text : values (.text value :: segments) = values segments := by
  rw [← List.singleton_append, values_append]
  simp [values, symbols, Segment.symbols]

theorem values_fixed : values (.fixed value :: segments) = values segments := by
  rw [← List.singleton_append, values_append]
  simp [values, symbols, Segment.symbols]

theorem values_quoted : values (.quoted value :: segments) = .text value :: values segments :=
  values_append [.quoted value] segments

theorem values_number (number : Nat) :
    values (.number number :: segments) = .number number :: values segments :=
  values_append [.number number] segments

theorem values_tools (tools : List String) : values (tools.flatMap toolCheck) = [] := by
  induction tools with
  | nil => rfl
  | cons tool tools ih =>
    rw [List.flatMap_cons, values_append, ih]
    simp only [toolCheck, values_text, values_fixed, values_nil, List.append_nil]

end

section

variable (text : String → String) (number : Nat → Nat)

def Segment.map : Segment → Segment
  | .text value => .text value
  | .fixed value => .fixed value
  | .quoted value => .quoted (text value)
  | .number value => .number (number value)

theorem symbols_map (segments : List Segment) : symbols (segments.map (Segment.map text number)) =
      rename (Value.map text number) (symbols segments) := by
  induction segments with
  | nil => rfl
  | cons segment segments ih =>
    change (segment.map text number).symbols ++ symbols (segments.map _) =
      rename _ (segment.symbols ++ symbols segments)
    rw [rename_append, ih]
    congr 1
    cases segment with
    | text value => exact (rename_text _ _).symm
    | fixed value => exact (rename_text _ _).symm
    | quoted value => rfl
    | number value => rfl

theorem slots_map (segments : List Segment) :
    slots (segments.map (Segment.map text number)) = slots segments := by
  have kinds : Value.kind ∘ Value.map text number = Value.kind := by
    funext value
    cases value <;> rfl
  rw [slots, symbols_map, rename_rename, kinds, slots]

end

theorem replace_symbols (segments : List Segment) :
    replace (fun value => value.spelling.map (.inl : Char → Char ⊕ Empty)) (symbols segments) =
      (segments.flatMap Segment.render).map .inl := by
  induction segments with
  | nil => rfl
  | cons segment segments ih =>
    change replace _ (segment.symbols ++ symbols segments) = _
    rw [replace_append, ih, List.flatMap_cons, List.map_append]
    congr 1
    cases segment with
    | text value => exact replace_text _ _
    | fixed value => exact replace_text _ _
    | quoted value => simp [replace, Segment.symbols, Segment.render, Value.spelling]
    | number value => simp [replace, Segment.symbols, Segment.render, Value.spelling]

theorem symbols_append (first rest : List Segment) :
    symbols (first ++ rest) = symbols first ++ symbols rest :=
  List.flatMap_append

def words (segments : List Segment) : List (Token Value) := (lexSymbols (symbols segments)).getD []

def WellFormed (segments : List Segment) : Prop :=
  wellPlaced Kind.isText .plain (slots segments) = true

theorem endMode_shellQuote (text : List Char) : endMode .plain (shellQuote text) = .plain := by
  have body : endMode .single ((text.flatMap fun character =>
      if character = '\'' then ['\'', '"', '\'', '"', '\''] else [character]) ++ ['\'']) =
        .plain := by
    induction text with
    | nil => rfl
    | cons c text ih =>
      by_cases quote : c = '\''
      · simpa [endMode, step, quote] using ih
      · simpa [endMode, step, quote] using ih
  simpa [shellQuote, endMode, step] using body

theorem endMode_unquoted {text : List Char} (h : '\'' ∉ text) : endMode .single text = .single := by
  induction text with
  | nil => rfl
  | cons c text ih =>
    rw [List.mem_cons, not_or] at h
    rw [endMode, step, if_neg (Ne.symm h.1)]
    exact ih h.2

theorem toList_literal {s : String} {l : List Char} (h : s = String.ofList l) : s.toList = l := by
  rw [h, String.toList_ofList]

theorem endMode_toolCheck {tool : String} (h : '\'' ∉ tool.toList) :
    endMode .plain ((toolCheck tool).flatMap Segment.render) = .plain := by
  simp only [toolCheck, List.flatMap_cons, List.flatMap_nil, List.append_nil, Segment.render,
    endMode_append]
  have before : endMode .plain "command -v ".toList = .plain := by
    rw [toList_literal rfl]
    decide
  rw [before, endMode_shellQuote]
  have opens : ∀ text : String, text = " >/dev/null 2>&1 || \x7b printf '%s\\n' 'NORISHELL_OP_ERROR:missing-tool:" → endMode .plain text.toList = .single := by
    rintro _ rfl
    rw [toList_literal rfl]
    decide
  rw [opens _ rfl, endMode_unquoted h, toList_literal rfl]
  decide

theorem symbols_toolCheck (tool : String) :
    symbols (toolCheck tool) = ((toolCheck tool).flatMap Segment.render).map .inl := by
  simp [symbols, toolCheck, Segment.symbols, Segment.render]

theorem wellFormed_tools {tools : List String} {command : List Segment}
    (unquoted : ∀ tool ∈ tools, '\'' ∉ tool.toList) (h : WellFormed command) :
    WellFormed (tools.flatMap toolCheck ++ command) := by
  induction tools with
  | nil => exact h
  | cons tool tools ih =>
    obtain ⟨first, others⟩ := List.forall_mem_cons.mp unquoted
    have rest := ih others
    rw [WellFormed, slots, wellPlaced_rename] at rest ⊢
    rw [List.flatMap_cons, List.append_assoc, symbols_append, symbols_toolCheck, wellPlaced_text,
      endMode_toolCheck first]
    exact rest

theorem wellFormed_text {text : String} (h : endMode .plain text.toList = .plain)
    {segments : List Segment} (rest : WellFormed segments) :
    WellFormed (.text text :: segments) := by
  rw [WellFormed, slots_text, wellPlaced_text, h]
  exact rest

section

variable {segments : List Segment} (h : WellFormed segments)

include h

theorem lexSymbols_words : lexSymbols (symbols segments) = some (words segments) := by
  rw [WellFormed, slots, wellPlaced_rename] at h
  have lexed : ∃ tokens, lexSymbols (symbols segments) = some tokens := lexFrom_of_wellPlaced h
  obtain ⟨tokens, lexed⟩ := lexed
  rw [words, lexed]
  rfl

theorem lex_render : lex (segments.flatMap Segment.render) =
    some ((words segments).map (Token.subst Value.literal)) := by
  rw [lex, ← replace_symbols]
  exact lexFrom_replace Value.recognised (lexSymbols_words h)

theorem lex_render_map (text : String → String) (number : Nat → Nat) :
    lex ((segments.map (Segment.map text number)).flatMap Segment.render) =
      some ((words segments).map (Token.subst (Value.literal ∘ Value.map text number))) := by
  rw [lex, ← replace_symbols, symbols_map, replace_rename]
  exact lexFrom_replace (fun value => (value.map text number).recognised) (lexSymbols_words h)

theorem words_tailed : ∀ token ∈ words segments, token.Tailed (Kind.isText ∘ Value.kind) := by
  have lexed := lexSymbols_words h
  rw [WellFormed, slots, wellPlaced_rename] at h
  exact tailed_of_wellPlaced h (by simp [Ready]) lexed

theorem words_holes : (words segments).flatMap Token.holes = values segments :=
  lexFrom_holes (lexSymbols_words h)

theorem words_rename {K : Type} (f : Value → K) : lexSymbols (rename f (symbols segments)) =
      some ((words segments).map (Token.rename f)) :=
  lexSymbols_rename f (lexSymbols_words h)

end

end NoriShell.Operations

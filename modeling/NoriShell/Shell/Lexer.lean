import Mathlib.Data.List.Basic

/-! Word recognition of the POSIX shell: quotes, backslash, blanks and operators.  The
input may have holes, which stand for text that is taken literally. -/

universe u v

namespace NoriShell.Shell

inductive Mode where
  | plain
  | escaped
  | single
  | double
  | doubleEscaped
  deriving DecidableEq, Repr

/-- A character taken literally, one that keeps its meaning inside double quotes, or a
hole. -/
inductive Piece (H : Type u) where
  | literal (c : Char)
  | active (c : Char)
  | hole (h : H)
  deriving DecidableEq, Repr

inductive Token (H : Type u) where
  | word (pieces : List (Piece H))
  | operator (c : Char)
  deriving DecidableEq, Repr

def isBlank (c : Char) : Bool := c = ' ' || c = '\t'

def isOperator (c : Char) : Bool :=
  c = ';' || c = '&' || c = '|' || c = '<' || c = '>' || c = '(' || c = ')' || c = '$' ||
    c = '`' || c = '\n'

section

variable {H : Type u}

abbrev Open (H : Type u) := Option (List (Piece H))

def Open.add (word : Open H) (pieces : List (Piece H)) : Open H := some (word.getD [] ++ pieces)

def Open.close : Open H → List (Token H)
  | none => []
  | some pieces => [.word pieces]

structure Step (H : Type u) where
  mode : Mode
  word : Open H
  tokens : List (Token H) := []

def step (word : Open H) (c : Char) : Mode → Step H
  | .plain =>
    if c = '\'' then { mode := .single, word := word.add [] }
    else if c = '"' then { mode := .double, word := word.add [] }
    else if c = '\\' then { mode := .escaped, word }
    else if isBlank c then { mode := .plain, word := none, tokens := word.close }
    else if isOperator c then
      { mode := .plain, word := none, tokens := word.close ++ [.operator c] }
    else { mode := .plain, word := word.add [.literal c] }
  | .escaped =>
    -- A backslash before a newline joins the lines.
    if c = '\n' then { mode := .plain, word } else { mode := .plain, word := word.add [.literal c] }
  | .single =>
    if c = '\'' then { mode := .plain, word } else { mode := .single, word := word.add [.literal c] }
  | .double =>
    if c = '"' then { mode := .plain, word }
    else if c = '\\' then { mode := .doubleEscaped, word }
    else if c = '$' ∨ c = '`' then { mode := .double, word := word.add [.active c] }
    else { mode := .double, word := word.add [.literal c] }
  | .doubleEscaped =>
    if c = '\n' then { mode := .double, word }
    else if c = '$' ∨ c = '`' ∨ c = '"' ∨ c = '\\' then
      { mode := .double, word := word.add [.literal c] }
    else { mode := .double, word := word.add [.literal '\\', .literal c] }

/-- The tokens of the input.  It must not end inside quotes, and a hole must stand
outside of them. -/
def lexFrom (mode : Mode) (word : Open H) : List (Char ⊕ H) → Option (List (Token H))
  | [] => if mode = .plain then some word.close else none
  | .inl c :: rest =>
    let next := step word c mode
    (lexFrom next.mode next.word rest).map (next.tokens ++ ·)
  | .inr h :: rest =>
    if mode = .plain then lexFrom .plain (word.add [.hole h]) rest else none

def lexSymbols (input : List (Char ⊕ H)) : Option (List (Token H)) := lexFrom .plain none input

end

def lex (command : List Char) : Option (List (Token Empty)) := lexSymbols (command.map .inl)

section

variable {H : Type u} {K : Type v}

def Piece.subst (σ : H → List (Piece K)) : Piece H → List (Piece K)
  | .literal c => [.literal c]
  | .active c => [.active c]
  | .hole h => σ h

def Token.subst (σ : H → List (Piece K)) : Token H → Token K
  | .word pieces => .word (pieces.flatMap (Piece.subst σ))
  | .operator c => .operator c

def Open.subst (σ : H → List (Piece K)) (word : Open H) : Open K :=
  word.map (·.flatMap (Piece.subst σ))

def replace (raw : H → List (Char ⊕ K)) (input : List (Char ⊕ H)) : List (Char ⊕ K) :=
  input.flatMap fun
    | .inl c => [.inl c]
    | .inr h => raw h

theorem replace_append (raw : H → List (Char ⊕ K)) (first rest : List (Char ⊕ H)) :
    replace raw (first ++ rest) = replace raw first ++ replace raw rest :=
  List.flatMap_append

theorem replace_text (raw : H → List (Char ⊕ K)) (text : List Char) :
    replace raw (text.map .inl) = text.map .inl := by
  induction text with
  | nil => rfl
  | cons c text ih => exact congrArg (Sum.inl c :: ·) ih

/-- Wherever a text stands outside quotes, it adds these pieces to the current word. -/
def Recognised (raw : List (Char ⊕ K)) (pieces : List (Piece K)) : Prop :=
  ∀ word rest, lexFrom .plain word (raw ++ rest) = lexFrom .plain (Open.add word pieces) rest

variable {σ : H → List (Piece K)} {word : Open H}

@[simp] theorem Open.subst_none : Open.subst σ none = none := rfl

@[simp] theorem Open.subst_add (pieces : List (Piece H)) :
    (word.add pieces).subst σ = (word.subst σ).add (pieces.flatMap (Piece.subst σ)) := by
  cases word <;> simp [Open.add, Open.subst]

@[simp] theorem Open.subst_close : (word.subst σ).close = word.close.map (Token.subst σ) := by
  cases word <;> rfl

theorem step_subst (c : Char) (mode : Mode) : step (word.subst σ) c mode =
      { mode := (step word c mode).mode
        word := (step word c mode).word.subst σ
        tokens := (step word c mode).tokens.map (Token.subst σ) } := by
  cases mode <;> simp only [step] <;> repeat' split
  all_goals simp [Piece.subst, Token.subst]

theorem lexFrom_replace {raw : H → List (Char ⊕ K)} (recognised : ∀ h, Recognised (raw h) (σ h))
    {mode : Mode} {input : List (Char ⊕ H)} {tokens : List (Token H)}
    (h : lexFrom mode word input = some tokens) :
    lexFrom mode (word.subst σ) (replace raw input) = some (tokens.map (Token.subst σ)) := by
  induction input generalizing mode word tokens with
  | nil =>
    rw [lexFrom] at h
    split at h
    · rename_i plain
      cases h
      simp [replace, lexFrom, plain]
    · cases h
  | cons symbol input ih =>
    cases symbol with
    | inl c =>
      simp only [lexFrom, Option.map_eq_some_iff] at h
      obtain ⟨rest, later, rfl⟩ := h
      have tail := ih later
      change lexFrom mode (word.subst σ) (.inl c :: replace raw input) = _
      rw [lexFrom, step_subst]
      simp [tail]
    | inr hole =>
      rw [lexFrom] at h
      split at h
      · rename_i plain
        have tail := ih h
        change lexFrom mode (word.subst σ) (raw hole ++ replace raw input) = _
        rw [plain, recognised hole, ← tail]
        simp [Piece.subst]
      · cases h

end

section

variable {H : Type u}

def isOrdinary (c : Char) : Bool :=
  c ≠ '\'' && c ≠ '"' && c ≠ '\\' && !isBlank c && !isOperator c

theorem step_ordinary {c : Char} (h : isOrdinary c = true) (word : Open H) :
    step word c .plain = { mode := .plain, word := word.add [.literal c] } := by
  simp only [isOrdinary, Bool.and_eq_true, decide_eq_true_eq, Bool.not_eq_true'] at h
  simp [step, h]

theorem Open.add_add (word : Open H) (first rest : List (Piece H)) :
    (word.add first).add rest = word.add (first ++ rest) := by
  simp [Open.add]

theorem recognised_ordinary {text : List Char} (some_ : text ≠ [])
    (ordinary : ∀ c ∈ text, isOrdinary c = true) :
    Recognised (K := H) (text.map .inl) (text.map .literal) := by
  intro word rest
  induction text generalizing word with
  | nil => exact absurd rfl some_
  | cons c text ih =>
    obtain ⟨first, others⟩ := List.forall_mem_cons.mp ordinary
    rw [List.map_cons, List.cons_append, lexFrom, step_ordinary first]
    cases text with
    | nil => simp
    | cons d text =>
      simp only [List.nil_append, Option.map_id_fun', id_eq]
      rw [ih (by simp) others, Open.add_add]
      rfl

end

section

variable {H : Type u} (ends : H → Bool)

def endsWord : List (Char ⊕ H) → Bool
  | [] => true
  | .inl c :: _ => isBlank c || isOperator c
  | .inr _ :: _ => false

/-- Every hole stands outside quotes, those in `ends` at the end of a word. -/
def wellPlaced : Mode → List (Char ⊕ H) → Bool
  | mode, [] => mode = .plain
  | mode, .inl c :: rest => wellPlaced (step (none : Open H) c mode).mode rest
  | mode, .inr h :: rest =>
    mode = .plain && (!ends h || endsWord rest) && wellPlaced .plain rest

def Unending (pieces : List (Piece H)) : Prop := ∀ h, .hole h ∈ pieces → ends h = false

/-- A hole in `ends` can only be the last piece. -/
def Tailed (pieces : List (Piece H)) : Prop :=
  Unending ends pieces ∨ ∃ first h, pieces = first ++ [.hole h] ∧ Unending ends first

def Token.Tailed : Token H → Prop
  | .word pieces => Shell.Tailed ends pieces
  | .operator _ => True

variable {ends}

theorem step_mode (word : Open H) (c : Char) (mode : Mode) :
    (step word c mode).mode = (step (none : Open H) c mode).mode := by
  cases mode <;> simp only [step] <;> repeat' split
  all_goals rfl

variable {word : Open H}

theorem lexFrom_of_wellPlaced {mode : Mode} {input : List (Char ⊕ H)}
    (h : wellPlaced ends mode input = true) : ∃ tokens, lexFrom mode word input = some tokens := by
  induction input generalizing mode word with
  | nil =>
    simp only [wellPlaced, decide_eq_true_eq] at h
    exact ⟨_, if_pos h⟩
  | cons symbol input ih =>
    cases symbol with
    | inl c =>
      rw [wellPlaced, ← step_mode word] at h
      obtain ⟨tokens, later⟩ := ih h
      exact ⟨_, by rw [lexFrom, later]; rfl⟩
    | inr hole =>
      simp only [wellPlaced, Bool.and_eq_true, decide_eq_true_eq] at h
      obtain ⟨tokens, later⟩ := ih h.2
      exact ⟨tokens, by rw [lexFrom, if_pos h.1.1, later]⟩

def Ready (ends : H → Bool) (mode : Mode) (word : Open H) (input : List (Char ⊕ H)) : Prop :=
  ∀ pieces ∈ word, Unending ends pieces ∨
    mode = .plain ∧ endsWord input = true ∧ Shell.Tailed ends pieces

theorem Unending.append {first rest : List (Piece H)} (h : Unending ends first)
    (more : Unending ends rest) : Unending ends (first ++ rest) := fun hole mem =>
  (List.mem_append.mp mem).elim (h hole) (more hole)

theorem unending_add {more : List (Piece H)}
    (h : ∀ pieces ∈ word, Unending ends pieces) (plain : Unending ends more) :
    ∀ pieces ∈ word.add more, Unending ends pieces := by
  rintro _ ⟨⟩
  cases word with
  | none => simpa using plain
  | some pieces => exact (h pieces rfl).append plain

theorem tailed_close (h : ∀ pieces ∈ word, Shell.Tailed ends pieces) :
    ∀ token ∈ word.close, token.Tailed ends := by
  cases word with
  | none => simp [Open.close]
  | some pieces => simpa [Open.close, Token.Tailed] using h pieces rfl

theorem tailed_closeOperator (h : ∀ pieces ∈ word, Shell.Tailed ends pieces)
    (c : Char) : ∀ token ∈ word.close ++ [.operator c], token.Tailed ends := by
  intro token mem
  rcases List.mem_append.mp mem with mem | mem
  · exact tailed_close h token mem
  · rw [List.mem_singleton.mp mem]
    trivial

theorem step_ends {c : Char} (h : (isBlank c || isOperator c) = true)
    (tailed : ∀ pieces ∈ word, Shell.Tailed ends pieces) :
    (step word c .plain).word = none ∧
      ∀ token ∈ (step word c .plain).tokens, token.Tailed ends := by
  have single : c ≠ '\'' := by rintro rfl; revert h; decide
  have double : c ≠ '"' := by rintro rfl; revert h; decide
  have backslash : c ≠ '\\' := by rintro rfl; revert h; decide
  simp only [step, single, double, backslash, if_false]
  split
  · exact ⟨rfl, tailed_close tailed⟩
  · rename_i notBlank
    rw [if_pos (by simpa [notBlank] using h)]
    exact ⟨rfl, tailed_closeOperator tailed c⟩

theorem step_unending (h : ∀ pieces ∈ word, Unending ends pieces) (c : Char)
    (mode : Mode) : (∀ pieces ∈ (step word c mode).word, Unending ends pieces) ∧
      ∀ token ∈ (step word c mode).tokens, token.Tailed ends := by
  have tailed : ∀ pieces ∈ word, Shell.Tailed ends pieces := fun pieces mem => .inl (h pieces mem)
  have silent : ∀ token ∈ ([] : List (Token H)), token.Tailed ends := by simp
  cases mode <;> simp only [step] <;> repeat' split
  all_goals first
    | exact ⟨h, silent⟩
    | exact ⟨unending_add h (by simp [Unending]), silent⟩
    | exact ⟨by simp, tailed_close tailed⟩
    | exact ⟨by simp, tailed_closeOperator tailed c⟩

theorem tailed_of_wellPlaced {mode : Mode} {input : List (Char ⊕ H)}
    (h : wellPlaced ends mode input = true) (ready : Ready ends mode word input)
    {tokens : List (Token H)} (lexed : lexFrom mode word input = some tokens) :
    ∀ token ∈ tokens, token.Tailed ends := by
  have open_ : ∀ pieces ∈ word, Shell.Tailed ends pieces := fun pieces mem =>
    (ready pieces mem).elim .inl fun last => last.2.2
  induction input generalizing mode word tokens with
  | nil =>
    rw [lexFrom] at lexed
    split at lexed
    · cases lexed
      exact tailed_close open_
    · cases lexed
  | cons symbol input ih =>
    cases symbol with
    | inl c =>
      simp only [lexFrom, Option.map_eq_some_iff] at lexed
      obtain ⟨later, lexed, rfl⟩ := lexed
      rw [wellPlaced, ← step_mode word] at h
      have next : (∀ pieces ∈ (step word c mode).word, Unending ends pieces) ∧
          ∀ token ∈ (step word c mode).tokens, token.Tailed ends := by
        by_cases free : ∀ pieces ∈ word, Unending ends pieces
        · exact step_unending free c mode
        · push Not at free
          obtain ⟨pieces, mem, ending⟩ := free
          obtain ⟨rfl, closes, -⟩ := (ready pieces mem).resolve_left ending
          obtain ⟨closed, tokens⟩ := step_ends closes open_
          exact ⟨by simp [closed], tokens⟩
      have tail := ih h (fun pieces mem => .inl (next.1 pieces mem)) lexed
        fun pieces mem => .inl (next.1 pieces mem)
      intro token mem
      exact (List.mem_append.mp mem).elim (next.2 token) (tail token)
    | inr hole =>
      simp only [wellPlaced, Bool.and_eq_true, Bool.or_eq_true, Bool.not_eq_true',
        decide_eq_true_eq] at h
      obtain ⟨⟨rfl, ending⟩, h⟩ := h
      rw [lexFrom, if_pos rfl] at lexed
      have free : ∀ pieces ∈ word, Unending ends pieces := fun pieces mem =>
        (ready pieces mem).resolve_right fun last => by simp [endsWord] at last
      have next : Ready ends .plain (word.add [.hole hole]) input := by
        rintro _ ⟨⟩
        have before : Unending ends (word.getD []) := by
          cases word with
          | none => simp [Unending]
          | some pieces => exact free pieces rfl
        rcases ending with unending | closes
        · exact .inl (before.append (by simpa [Unending] using unending))
        · exact .inr ⟨rfl, closes, .inr ⟨_, hole, rfl, before⟩⟩
      exact ih h next lexed fun pieces mem => (next pieces mem).elim .inl fun last => last.2.2

end

section

variable {H : Type u}

def endMode : Mode → List Char → Mode
  | mode, [] => mode
  | mode, c :: text => endMode (step (none : Open Empty) c mode).mode text

theorem endMode_append (mode : Mode) (first rest : List Char) :
    endMode mode (first ++ rest) = endMode (endMode mode first) rest := by
  induction first generalizing mode with
  | nil => rfl
  | cons c first ih => exact ih _

theorem wellPlaced_text (ends : H → Bool) (mode : Mode) (text : List Char)
    (rest : List (Char ⊕ H)) :
    wellPlaced ends mode (text.map .inl ++ rest) = wellPlaced ends (endMode mode text) rest := by
  induction text generalizing mode with
  | nil => rfl
  | cons c text ih =>
    have same : (step (none : Open H) c mode).mode = (step (none : Open Empty) c mode).mode :=
      congrArg Step.mode (@step_subst Empty H (fun _ => []) none c mode)
    rw [List.map_cons, List.cons_append, wellPlaced, same, ih]
    rfl

end

section

variable {H : Type u} {K : Type v} (f : H → K)

def rename (input : List (Char ⊕ H)) : List (Char ⊕ K) := replace (fun h => [.inr (f h)]) input

def Token.rename : Token H → Token K := Token.subst fun h => [.hole (f h)]

theorem rename_append (first rest : List (Char ⊕ H)) :
    rename f (first ++ rest) = rename f first ++ rename f rest := replace_append _ first rest

theorem rename_text (text : List Char) : rename f (text.map .inl) = text.map .inl :=
  replace_text _ text

theorem rename_rename {L : Type u} (g : K → L) (input : List (Char ⊕ H)) :
    rename g (rename f input) = rename (g ∘ f) input := by
  induction input with
  | nil => rfl
  | cons symbol input ih =>
    cases symbol with
    | inl c => exact congrArg (Sum.inl c :: ·) ih
    | inr hole => exact congrArg (Sum.inr (g (f hole)) :: ·) ih

theorem replace_rename {L : Type u} (raw : K → List (Char ⊕ L)) (input : List (Char ⊕ H)) :
    replace raw (rename f input) = replace (raw ∘ f) input := by
  induction input with
  | nil => rfl
  | cons symbol input ih =>
    cases symbol with
    | inl c => exact congrArg (Sum.inl c :: ·) ih
    | inr hole => exact congrArg (raw (f hole) ++ ·) ih

theorem lexSymbols_rename {input : List (Char ⊕ H)} {tokens : List (Token H)}
    (h : lexSymbols input = some tokens) :
    lexSymbols (rename f input) = some (tokens.map (Token.rename f)) :=
  lexFrom_replace (fun _ _ _ => rfl) h

theorem wellPlaced_rename (ends : K → Bool) (mode : Mode) (input : List (Char ⊕ H)) :
    wellPlaced ends mode (rename f input) = wellPlaced (ends ∘ f) mode input := by
  induction input generalizing mode with
  | nil => rfl
  | cons symbol input ih =>
    cases symbol with
    | inl c =>
      have same : (step (none : Open K) c mode).mode = (step (none : Open H) c mode).mode :=
        congrArg Step.mode (@step_subst H K (fun _ => []) none c mode)
      change wellPlaced ends (step (none : Open K) c mode).mode (rename f input) = _
      rw [ih, same]
      rfl
    | inr hole =>
      have same : endsWord (rename f input) = endsWord input := by
        rcases input with _ | ⟨_ | _, _⟩ <;> rfl
      change (_ && (_ || endsWord (rename f input)) && wellPlaced ends .plain (rename f input)) = _
      rw [ih, same]
      rfl

end

section

variable {H : Type u}

def Piece.hole? : Piece H → Option H
  | .hole h => some h
  | _ => none

def Token.holes : Token H → List H
  | .word pieces => pieces.filterMap Piece.hole?
  | .operator _ => []

def Open.holes (word : Open H) : List H := (word.getD []).filterMap Piece.hole?

theorem Open.holes_close (word : Open H) : word.close.flatMap Token.holes = word.holes := by
  cases word <;> simp [Open.close, Open.holes, Token.holes]

theorem Open.holes_add (word : Open H) (pieces : List (Piece H)) :
    (word.add pieces).holes = word.holes ++ pieces.filterMap Piece.hole? := by
  simp [Open.add, Open.holes]

theorem step_holes (word : Open H) (c : Char) (mode : Mode) :
    (step word c mode).tokens.flatMap Token.holes ++ (step word c mode).word.holes =
      word.holes := by
  have closed : Open.holes (none : Open H) = [] := rfl
  cases mode <;> simp only [step] <;> repeat' split
  all_goals simp [Open.holes_add, Open.holes_close, Piece.hole?, Token.holes, closed]

theorem lexFrom_holes {mode : Mode} {word : Open H} {input : List (Char ⊕ H)}
    {tokens : List (Token H)} (h : lexFrom mode word input = some tokens) :
    tokens.flatMap Token.holes = word.holes ++ input.filterMap Sum.getRight? := by
  induction input generalizing mode word tokens with
  | nil =>
    rw [lexFrom] at h
    split at h
    · cases h
      simp [Open.holes_close]
    · cases h
  | cons symbol input ih =>
    cases symbol with
    | inl c =>
      simp only [lexFrom, Option.map_eq_some_iff] at h
      obtain ⟨later, lexed, rfl⟩ := h
      rw [List.flatMap_append, ih lexed, ← List.append_assoc, step_holes]
      rfl
    | inr hole =>
      rw [lexFrom] at h
      split at h
      · rw [ih h, Open.holes_add, List.append_assoc]
        rfl
      · cases h

end

section

variable {H : Type u} {K : Type v}

def calls : List (Token H) → List (List (List (Piece H)))
  | [] => [[]]
  | .operator _ :: rest => [] :: calls rest
  | .word pieces :: rest => (calls rest).modifyHead (pieces :: ·)

theorem calls_subst (σ : H → List (Piece K)) (tokens : List (Token H)) :
    calls (tokens.map (Token.subst σ)) =
      (calls tokens).map (·.map (·.flatMap (Piece.subst σ))) := by
  induction tokens with
  | nil => rfl
  | cons token tokens ih =>
    cases token with
    | operator c => simp [calls, Token.subst, ih]
    | word pieces =>
      simp only [List.map_cons, Token.subst, calls, ih]
      cases calls tokens <;> simp

def callsOf [DecidableEq H] (name : List Char) (tokens : List (Token H)) :
    List (List (List (Piece H))) :=
  (calls tokens).filterMap fun
    | word :: arguments => if word = name.map .literal then some arguments else none
    | [] => none

def Named (tokens : List (Token H)) : Prop :=
  ∀ call ∈ calls tokens, ∀ word ∈ call.head?, word.filterMap Piece.hole? = []

instance [DecidableEq H] (tokens : List (Token H)) : Decidable (Named tokens) :=
  inferInstanceAs (Decidable (∀ call ∈ calls tokens, ∀ word ∈ call.head?,
    word.filterMap Piece.hole? = []))

theorem subst_eq_literals {σ : H → List (Piece K)} {word : List (Piece H)}
    (h : word.filterMap Piece.hole? = []) (name : List Char) :
    word.flatMap (Piece.subst σ) = name.map .literal ↔ word = name.map .literal := by
  induction word generalizing name with
  | nil => simp
  | cons piece word ih =>
    cases piece with
    | hole => simp [Piece.hole?] at h
    | literal c =>
      have ih := ih (by simpa [Piece.hole?] using h)
      cases name <;> simp [Piece.subst, ih]
    | active c => cases name <;> simp [Piece.subst]

theorem subst_literals (σ : H → List (Piece K)) (text : List Char) :
    (text.map .literal).flatMap (Piece.subst σ) = text.map .literal := by
  induction text with
  | nil => rfl
  | cons c text ih => exact congrArg (Piece.literal c :: ·) ih

theorem callsOf_subst [DecidableEq H] [DecidableEq K] (σ : H → List (Piece K))
    {tokens : List (Token H)} (h : Named tokens) (name : List Char) :
    callsOf name (tokens.map (Token.subst σ)) =
      (callsOf name tokens).map (·.map (·.flatMap (Piece.subst σ))) := by
  rw [callsOf, callsOf, calls_subst, List.filterMap_map, List.map_filterMap]
  apply List.filterMap_congr
  intro call mem
  cases call with
  | nil => rfl
  | cons word arguments =>
    have same := subst_eq_literals (σ := σ) (h _ mem word rfl) name
    simp only [Function.comp_apply, List.map_cons, same]
    split <;> rfl

end

end NoriShell.Shell

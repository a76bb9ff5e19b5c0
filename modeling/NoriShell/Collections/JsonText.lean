import Mathlib

/-! Compact JSON text, and a reader for text of a known shape. -/

namespace NoriShell.Collections.JsonText

def escape (c : Char) : List Char :=
  match c.toNat with
  | 0x22 => ['\\', '"']
  | 0x5c => ['\\', '\\']
  | 0x08 => ['\\', 'b']
  | 0x09 => ['\\', 't']
  | 0x0a => ['\\', 'n']
  | 0x0c => ['\\', 'f']
  | 0x0d => ['\\', 'r']
  | n => if n < 0x20 then ['\\', 'u', '0', '0', Nat.digitChar (n / 16), Nat.digitChar (n % 16)]
    else [c]

def quote (s : String) : List Char :=
  '"' :: s.toList.flatMap escape ++ ['"']

def natural (n : Nat) : List Char :=
  Nat.toDigits 10 n

def optional {α : Type} (write : α → List Char) : Option α → List Char
  | none => ['n', 'u', 'l', 'l']
  | some value => write value

def members (delimiter : Char) : List (String × List Char) → List Char
  | [] => ['}']
  | (key, value) :: rest => delimiter :: quote key ++ ':' :: value ++ members ',' rest

def object : List (String × List Char) → List Char
  | [] => ['{', '}']
  | fields => members '{' fields

def array (items : List (List Char)) : List Char :=
  '[' :: [','].intercalate items ++ [']']

section

open String

theorem utf8Len_escape_le (c : Char) : utf8Len (escape c) ≤ 6 := by
  unfold escape
  split <;> try decide
  split
  · have digit : ∀ n < 16, (Nat.digitChar n).utf8Size = 1 := by decide
    have high := digit (c.toNat / 16) (by omega)
    have low := digit (c.toNat % 16) (by omega)
    have slash : '\\'.utf8Size = 1 := rfl
    have letter : 'u'.utf8Size = 1 := rfl
    have zero : '0'.utf8Size = 1 := rfl
    simp only [utf8Len_cons, utf8Len_nil, high, low, slash, letter, zero]
    omega
  · simp only [utf8Len_cons, utf8Len_nil]
    have := c.utf8Size_le_four
    omega

theorem utf8Len_flatMap_escape_le (s : List Char) : utf8Len (s.flatMap escape) ≤ 6 * utf8Len s := by
  induction s with
  | nil => simp
  | cons c s ih =>
    rw [List.flatMap_cons, utf8Len_append, utf8Len_cons]
    have := utf8Len_escape_le c
    have := c.utf8Size_pos
    omega

theorem utf8Len_quote_le (s : String) : utf8Len (quote s) ≤ 6 * utf8Len s.toList + 2 := by
  have := utf8Len_flatMap_escape_le s.toList
  have quotes : '"'.utf8Size = 1 := rfl
  rw [quote, List.cons_append, utf8Len_cons, utf8Len_append, utf8Len_cons, utf8Len_nil, quotes]
  omega

theorem utf8Len_quote {s : String} (plain : ∀ c ∈ s.toList, escape c = [c]) :
    utf8Len (quote s) = utf8Len s.toList + 2 := by
  have same : s.toList.flatMap escape = s.toList := by
    rw [List.flatMap_congr plain]
    simp
  have quotes : '"'.utf8Size = 1 := rfl
  rw [quote, same, List.cons_append, utf8Len_cons, utf8Len_append, utf8Len_cons, utf8Len_nil, quotes]

theorem utf8Len_natural_le {n k : Nat} (positive : 0 < k) (small : n < 10 ^ k) :
    utf8Len (natural n) ≤ k := by
  have digits : ∀ l : List Char, (∀ c ∈ l, c.isDigit) → utf8Len l = l.length := by
    intro l
    induction l with
    | nil => simp
    | cons c l ih =>
      intro digits
      have ascii : c.utf8Size = 1 := by
        have := digits c List.mem_cons_self
        simp only [Char.isDigit, Bool.and_eq_true, decide_eq_true_eq, ge_iff_le, UInt32.le_iff_toNat_le]
          at this
        rw [Char.utf8Size_eq_one_iff, UInt32.le_iff_toNat_le]
        have : '9'.val.toNat = 57 := rfl
        simp_all
        omega
      rw [utf8Len_cons, ih fun c mem => digits c (List.mem_cons_of_mem _ mem), ascii, List.length_cons]
  rw [natural, digits _ fun c => Nat.isDigit_of_mem_toDigits (by omega) (by omega)]
  exact Nat.toDigits_length 10 n k positive small

theorem utf8Len_members (delimiter : Char) (ascii : delimiter.utf8Size = 1)
    (fields : List (String × List Char)) :
    utf8Len (members delimiter fields) =
      1 + (fields.map fun field => utf8Len (quote field.1) + utf8Len field.2 + 2).sum := by
  have comma : ','.utf8Size = 1 := rfl
  have colon : ':'.utf8Size = 1 := rfl
  induction fields generalizing delimiter with
  | nil => rfl
  | cons field fields ih =>
    simp only [members, List.cons_append, utf8Len_cons, utf8Len_append, List.map_cons,
      List.sum_cons, ih ',' comma, ascii, colon]
    omega

theorem utf8Len_object_le {fields : List (String × List Char)} (nonempty : fields ≠ []) :
    utf8Len (object fields) ≤
      1 + (fields.map fun field => 6 * field.1.utf8ByteSize + utf8Len field.2 + 4).sum := by
  have text : object fields = members '{' fields := by
    cases fields with
    | nil => exact absurd rfl nonempty
    | cons field fields => rfl
  rw [text, utf8Len_members '{' rfl]
  apply Nat.add_le_add_left
  apply List.sum_le_sum
  intro field _
  have key := utf8Len_quote_le field.1
  have size : field.1.utf8ByteSize = utf8Len field.1.toList := by
    rw [← utf8ByteSize_ofList, ofList_toList]
  omega

end

def hexValue (c : Char) : Nat :=
  if c.isDigit then c.toNat - 48 else c.toNat - 87

def unescape : List Char → Option (Char × List Char)
  | '\\' :: '"' :: rest => some ('"', rest)
  | '\\' :: '\\' :: rest => some ('\\', rest)
  | '\\' :: 'b' :: rest => some ('\x08', rest)
  | '\\' :: 't' :: rest => some ('\x09', rest)
  | '\\' :: 'n' :: rest => some ('\x0a', rest)
  | '\\' :: 'f' :: rest => some ('\x0c', rest)
  | '\\' :: 'r' :: rest => some ('\x0d', rest)
  | '\\' :: 'u' :: '0' :: '0' :: high :: low :: rest =>
    some (Char.ofNat (hexValue high * 16 + hexValue low), rest)
  | c :: rest => some (c, rest)
  | [] => none

def readChars : Nat → List Char → Option (List Char × List Char)
  | 0, _ => none
  | _ + 1, '"' :: rest => some ([], rest)
  | fuel + 1, input => do
    let (c, rest) ← unescape input
    let (others, rest) ← readChars fuel rest
    some (c :: others, rest)

def readString : List Char → Option (String × List Char)
  | '"' :: rest => (readChars (rest.length + 1) rest).map fun (s, rest) => (String.ofList s, rest)
  | _ => none

def readNatural (input : List Char) : Option (Nat × List Char) :=
  some (Nat.ofDigitChars 10 (input.takeWhile Char.isDigit) 0, input.dropWhile Char.isDigit)

def readOptional {α : Type} (read : List Char → Option (α × List Char)) :
    List Char → Option (Option α × List Char)
  | 'n' :: 'u' :: 'l' :: 'l' :: rest => some (none, rest)
  | input => (read input).map fun (value, rest) => (some value, rest)

def expect (text input : List Char) : Option (List Char) :=
  if text.isPrefixOf input then some (input.drop text.length) else none

def readMember {α : Type} (delimiter : Char) (key : String)
    (read : List Char → Option (α × List Char)) (input : List Char) : Option (α × List Char) := do
  let rest ← expect (delimiter :: quote key ++ [':']) input
  read rest

def readAs {α β : Type} (read : List Char → Option (α × List Char)) (parse : α → Option β)
    (input : List Char) : Option (β × List Char) := do
  let (value, rest) ← read input
  let value ← parse value
  some (value, rest)

/-- The reader gives back the value whose text it is, up to the delimiter that follows. -/
def Reads {α : Type} (read : List Char → Option (α × List Char)) (text : List Char) (value : α) :
    Prop :=
  ∀ delimiter rest, delimiter = ',' ∨ delimiter = '}' →
    read (text ++ delimiter :: rest) = some (value, delimiter :: rest)

theorem unescape_escape (c : Char) (rest : List Char) :
    unescape (escape c ++ rest) = some (c, rest) := by
  have self : c = Char.ofNat c.toNat := (Char.ofNat_toNat c).symm
  by_cases control : c.toNat < 0x20
  · generalize c.toNat = n at *
    subst self
    interval_cases n <;> rfl
  · by_cases quoted : c = '"'
    · subst quoted
      rfl
    · by_cases slash : c = '\\'
      · subst slash
        rfl
      · have plain : escape c = [c] := by
          unfold escape
          split <;> first | omega | skip
          · next eq => exact absurd (self.trans (congrArg Char.ofNat eq)) quoted
          · next eq => exact absurd (self.trans (congrArg Char.ofNat eq)) slash
          · rw [if_neg control]
        rw [plain]
        unfold unescape
        split <;> simp_all

theorem escape_head (c : Char) (rest : List Char) : ∀ tail, escape c ++ rest ≠ '"' :: tail := by
  intro tail eq
  have read := unescape_escape c rest
  rw [eq] at read
  have quoted : c = '"' := by
    have first : unescape ('"' :: tail) = some ('"', tail) := rfl
    rw [first, Option.some_inj, Prod.mk.injEq] at read
    exact read.1.symm
  subst quoted
  cases eq

theorem readChars_escape (s rest : List Char) {fuel : Nat} (enough : s.length < fuel) :
    readChars fuel (s.flatMap escape ++ '"' :: rest) = some (s, rest) := by
  induction s generalizing fuel with
  | nil =>
    obtain ⟨fuel, rfl⟩ := Nat.exists_eq_succ_of_ne_zero (by omega : fuel ≠ 0)
    rfl
  | cons c s ih =>
    obtain ⟨fuel, rfl⟩ := Nat.exists_eq_succ_of_ne_zero (by omega : fuel ≠ 0)
    rw [List.flatMap_cons, List.append_assoc, readChars]
    · rw [unescape_escape]
      simp only [Option.bind_eq_bind, Option.bind_some]
      rw [ih (by simp only [List.length_cons] at enough; omega)]
      rfl
    · exact escape_head c _

theorem length_le_flatMap_escape (s : List Char) : s.length ≤ (s.flatMap escape).length := by
  induction s with
  | nil => simp
  | cons c s ih =>
    have : 0 < (escape c).length := by
      unfold escape
      split <;> try decide
      split <;> simp
    simp only [List.flatMap_cons, List.length_append, List.length_cons]
    omega

theorem readString_quote (s : String) : Reads readString (quote s) s := by
  intro delimiter rest _
  have enough : s.toList.length < (s.toList.flatMap escape ++ '"' :: delimiter :: rest).length + 1 := by
    have := length_le_flatMap_escape s.toList
    simp only [List.length_append, List.length_cons]
    omega
  have text : quote s ++ delimiter :: rest =
      '"' :: (s.toList.flatMap escape ++ '"' :: delimiter :: rest) := by simp [quote]
  rw [text, readString, readChars_escape _ _ enough]
  simp

theorem readNatural_natural (n : Nat) : Reads readNatural (natural n) n := by
  intro delimiter rest delimits
  have digits : ∀ c ∈ natural n, c.isDigit :=
    fun c => Nat.isDigit_of_mem_toDigits (by omega) (by omega)
  have stop : delimiter.isDigit = false := by
    rcases delimits with rfl | rfl <;> rfl
  rw [readNatural, List.takeWhile_append_of_pos digits, List.dropWhile_append_of_pos digits,
    List.takeWhile_cons, List.dropWhile_cons, stop]
  simp [natural, Nat.ofDigitChars_ten_toDigits]

theorem readOptional_optional {α : Type} {read : List Char → Option (α × List Char)}
    {write : α → List Char} (reads : ∀ value, Reads read (write value) value)
    (plain : ∀ value rest, write value ≠ 'n' :: rest) (value : Option α) :
    Reads (readOptional read) (optional write value) value := by
  intro delimiter rest delimits
  cases value with
  | none => rfl
  | some value =>
    have read := reads value delimiter rest delimits
    rw [optional, readOptional]
    · rw [read]
      rfl
    · intro tail eq
      cases text : write value with
      | nil =>
        rw [text] at eq
        rcases delimits with rfl | rfl <;> cases eq
      | cons c tail =>
        rw [text, List.cons_append, List.cons.injEq] at eq
        exact absurd (eq.1 ▸ text) (plain value _)

theorem Reads.as {α β : Type} {read : List Char → Option (α × List Char)} {text : List Char}
    {value : α} {parse : α → Option β} {parsed : β} (reads : Reads read text value)
    (parses : parse value = some parsed) : Reads (readAs read parse) text parsed := by
  intro delimiter rest delimits
  simp [readAs, reads delimiter rest delimits, parses]

@[simp] theorem expect_append (text rest : List Char) : expect text (text ++ rest) = some rest := by
  simp [expect]

theorem readMember_members {α : Type} {read : List Char → Option (α × List Char)}
    {key : String} {text : List Char} {value : α} (reads : Reads read text value)
    (delimiter : Char) (fields : List (String × List Char)) (rest : List Char) :
    readMember delimiter key read (members delimiter ((key, text) :: fields) ++ rest) =
      some (value, members ',' fields ++ rest) := by
  have shape : members delimiter ((key, text) :: fields) ++ rest =
      (delimiter :: quote key ++ [':']) ++ (text ++ (members ',' fields ++ rest)) := by
    simp [members]
  rw [readMember, shape, expect_append]
  simp only [Option.bind_eq_bind, Option.bind_some]
  cases fields with
  | nil => exact reads '}' rest (.inr rfl)
  | cons field fields => exact reads ',' _ (.inl rfl)

end NoriShell.Collections.JsonText

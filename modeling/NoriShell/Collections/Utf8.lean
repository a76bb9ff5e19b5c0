import Mathlib.Data.List.Basic
import Mathlib.Data.Nat.Init
import Mathlib.Tactic.Common

/-! Reading UTF-8 that may be broken, or cut off in the middle of a character. -/

namespace NoriShell.Collections.Utf8

/-- What some bytes start with: a character, bytes that no character starts with, or only the
beginning of a character. -/
inductive Head where
  | char (width : Nat)
  | broken (length : Nat)
  | cut
  deriving DecidableEq

def between (low high b : UInt8) : Bool := low ≤ b && b ≤ high

def continuation (b : UInt8) : Bool := between 0x80 0xbf b

def following (first : UInt8) : Option (List (UInt8 → Bool)) :=
  if first < 0x80 then some []
  else if between 0xc2 0xdf first then some [continuation]
  else if first = 0xe0 then some [between 0xa0 0xbf, continuation]
  else if first = 0xed then some [between 0x80 0x9f, continuation]
  else if between 0xe1 0xef first then some [continuation, continuation]
  else if first = 0xf0 then some [between 0x90 0xbf, continuation, continuation]
  else if between 0xf1 0xf3 first then some [continuation, continuation, continuation]
  else if first = 0xf4 then some [between 0x80 0x8f, continuation, continuation]
  else none

def follow (read : Nat) : List (UInt8 → Bool) → List UInt8 → Head
  | [], _ => .char read
  | _ :: _, [] => .cut
  | may :: rest, b :: bytes => if may b then follow (read + 1) rest bytes else .broken read

def head : List UInt8 → Head
  | [] => .cut
  | first :: bytes =>
    match following first with
    | some rest => follow 1 rest bytes
    | none => .broken 1

section

variable {read n : Nat} {rest : List (UInt8 → Bool)} {bytes later : List UInt8}

theorem follow_append (known : follow read rest bytes ≠ .cut) :
    follow read rest (bytes ++ later) = follow read rest bytes := by
  induction rest generalizing read bytes with
  | nil => rfl
  | cons may rest ih =>
    cases bytes with
    | nil => exact absurd rfl known
    | cons b bytes =>
      simp only [List.cons_append, follow] at known ⊢
      split at known
      · next allowed => rw [if_pos allowed, if_pos allowed, ih known]
      · next refused => rw [if_neg refused, if_neg refused]

theorem length_follow (known : follow read rest bytes = .char n ∨ follow read rest bytes = .broken n) :
    read ≤ n ∧ n ≤ read + bytes.length := by
  induction rest generalizing read bytes with
  | nil =>
    rcases known with known | known
    · cases known
      omega
    · cases known
  | cons may rest ih =>
    cases bytes with
    | nil => simp [follow] at known
    | cons b bytes =>
      simp only [follow] at known
      split at known
      · have bound := ih known
        rw [List.length_cons]
        omega
      · rcases known with known | known
        · cases known
        · cases known
          omega

theorem head_append (known : head bytes ≠ .cut) : head (bytes ++ later) = head bytes := by
  cases bytes with
  | nil => exact absurd rfl known
  | cons first bytes =>
    simp only [List.cons_append, head] at known ⊢
    cases rest : following first with
    | none => rfl
    | some rest' =>
      rw [rest] at known
      exact follow_append known

theorem length_head (known : head bytes = .char n ∨ head bytes = .broken n) :
    0 < n ∧ n ≤ bytes.length := by
  cases bytes with
  | nil => simp [head] at known
  | cons first bytes =>
    simp only [head] at known
    rw [List.length_cons]
    cases rest : following first with
    | none =>
      simp only [rest, reduceCtorEq, Head.broken.injEq, false_or] at known
      omega
    | some rest' =>
      simp only [rest] at known
      have bound := length_follow known
      omega

end

/-- Where valid text ends, and how many bytes to skip there; none where only more bytes can
tell. -/
structure Utf8Error where
  validUpTo : Nat
  errorLen : Option Nat
  deriving DecidableEq

def fromUtf8 (bytes : List UInt8) : Except Utf8Error Unit :=
  if bytes = [] then .ok ()
  else
    match _h : head bytes with
    | .char n => (fromUtf8 (bytes.drop n)).mapError fun e => { e with validUpTo := n + e.validUpTo }
    | .broken n => .error ⟨0, some n⟩
    | .cut => .error ⟨0, none⟩
termination_by bytes.length
decreasing_by
  have bound := length_head (.inl _h)
  rw [List.length_drop]
  omega

def replacement : List UInt8 := [0xef, 0xbf, 0xbd]

/-- Text with a replacement for whatever is broken, and the character that is cut off. -/
def lossy (bytes : List UInt8) : List UInt8 × List UInt8 :=
  if bytes = [] then ([], [])
  else
    match _h : head bytes with
    | .char n =>
      (bytes.take n ++ (lossy (bytes.drop n)).1, (lossy (bytes.drop n)).2)
    | .broken n => (replacement ++ (lossy (bytes.drop n)).1, (lossy (bytes.drop n)).2)
    | .cut => ([], bytes)
termination_by bytes.length
decreasing_by
  all_goals
    rw [List.length_drop]
    first
      | have bound := length_head (.inl _h); omega
      | have bound := length_head (.inr _h); omega

section

variable {n : Nat} {bytes later : List UInt8}

@[simp] theorem lossy_nil : lossy [] = ([], []) := by
  rw [lossy, if_pos rfl]

theorem lossy_char (h : head bytes = .char n) :
    lossy bytes = (bytes.take n ++ (lossy (bytes.drop n)).1, (lossy (bytes.drop n)).2) := by
  have nonempty : bytes ≠ [] := fun empty => by rw [empty] at h; cases h
  rw [lossy, if_neg nonempty]
  split <;> simp_all

theorem lossy_broken (h : head bytes = .broken n) :
    lossy bytes = (replacement ++ (lossy (bytes.drop n)).1, (lossy (bytes.drop n)).2) := by
  have nonempty : bytes ≠ [] := fun empty => by rw [empty] at h; cases h
  rw [lossy, if_neg nonempty]
  split <;> simp_all

theorem lossy_cut (h : head bytes = .cut) : lossy bytes = ([], bytes) := by
  by_cases empty : bytes = []
  · rw [empty, lossy_nil]
  · rw [lossy, if_neg empty]
    split <;> simp_all

/-- Induction along the characters of a text, broken ones included. -/
theorem head_induction {P : List UInt8 → Prop}
    (char : ∀ bytes n, head bytes = .char n → P (bytes.drop n) → P bytes)
    (broken : ∀ bytes n, head bytes = .broken n → P (bytes.drop n) → P bytes)
    (cut : ∀ bytes, head bytes = .cut → P bytes) (bytes : List UInt8) : P bytes := by
  induction size : bytes.length using Nat.strong_induction_on generalizing bytes with
  | _ size ih =>
    subst size
    cases h : head bytes with
    | char n =>
      have bound := length_head (.inl h)
      exact char bytes n h (ih _ (by rw [List.length_drop]; omega) _ rfl)
    | broken n =>
      have bound := length_head (.inr h)
      exact broken bytes n h (ih _ (by rw [List.length_drop]; omega) _ rfl)
    | cut => exact cut bytes h

theorem lossy_append (bytes later : List UInt8) :
    lossy (bytes ++ later) = ((lossy bytes).1 ++ (lossy ((lossy bytes).2 ++ later)).1,
      (lossy ((lossy bytes).2 ++ later)).2) := by
  induction bytes using head_induction with
  | char bytes n h rest =>
    have bound := length_head (.inl h)
    have whole : head (bytes ++ later) = .char n := by rw [head_append (by simp [h]), h]
    rw [lossy_char whole, lossy_char h, List.take_append_of_le_length bound.2,
      List.drop_append_of_le_length bound.2, rest, List.append_assoc]
  | broken bytes n h rest =>
    have bound := length_head (.inr h)
    have whole : head (bytes ++ later) = .broken n := by rw [head_append (by simp [h]), h]
    rw [lossy_broken whole, lossy_broken h, List.drop_append_of_le_length bound.2, rest,
      List.append_assoc]
  | cut bytes h => rw [lossy_cut h, List.nil_append]

theorem lossy_pending (bytes : List UInt8) : lossy (lossy bytes).2 = ([], (lossy bytes).2) := by
  induction bytes using head_induction with
  | char bytes n h rest => rwa [lossy_char h]
  | broken bytes n h rest => rwa [lossy_broken h]
  | cut bytes h => rw [lossy_cut h, lossy_cut h]

theorem lossy_of_fromUtf8 (bytes : List UInt8) :
    match fromUtf8 bytes with
    | .ok () => lossy bytes = (bytes, [])
    | .error ⟨valid, some n⟩ => 0 < n ∧ valid + n ≤ bytes.length ∧
        lossy bytes = (bytes.take valid ++ replacement ++ (lossy (bytes.drop (valid + n))).1,
          (lossy (bytes.drop (valid + n))).2)
    | .error ⟨valid, none⟩ => lossy bytes = (bytes.take valid, bytes.drop valid) := by
  induction size : bytes.length using Nat.strong_induction_on generalizing bytes with
  | _ size ih =>
    subst size
    by_cases empty : bytes = []
    · rw [empty, fromUtf8, if_pos rfl]
      exact lossy_nil
    · cases h : head bytes with
      | cut =>
        have found : fromUtf8 bytes = .error ⟨0, none⟩ := by
          rw [fromUtf8, if_neg empty]
          split <;> simp_all
        rw [found]
        exact lossy_cut h
      | broken n =>
        have found : fromUtf8 bytes = .error ⟨0, some n⟩ := by
          rw [fromUtf8, if_neg empty]
          split <;> simp_all
        have bound := length_head (.inr h)
        rw [found]
        refine ⟨bound.1, by omega, ?_⟩
        rw [lossy_broken h, Nat.zero_add]
        rfl
      | char n =>
        have found : fromUtf8 bytes = (fromUtf8 (bytes.drop n)).mapError fun e =>
            { e with validUpTo := n + e.validUpTo } := by
          rw [fromUtf8, if_neg empty]
          split <;> simp_all
        have bound := length_head (.inl h)
        have rest := ih _ (by rw [List.length_drop]; omega) (bytes.drop n) rfl
        have taken (k : Nat) : bytes.take n ++ (bytes.drop n).take k = bytes.take (n + k) :=
          List.take_add.symm
        rw [found, lossy_char h]
        rcases answer : fromUtf8 (bytes.drop n) with ⟨valid, _ | length⟩ | ⟨⟩
        · rw [answer] at rest
          simp only at rest
          simp [Except.mapError, rest, taken]
        · rw [answer] at rest
          simp only [List.length_drop] at rest
          obtain ⟨positive, short, rest⟩ := rest
          simp only [Except.mapError]
          refine ⟨positive, by omega, ?_⟩
          rw [rest, ← List.append_assoc, ← List.append_assoc, taken, List.drop_drop,
            ← Nat.add_assoc]
        · rw [answer] at rest
          simp only at rest
          simp [Except.mapError, rest]

end

end NoriShell.Collections.Utf8

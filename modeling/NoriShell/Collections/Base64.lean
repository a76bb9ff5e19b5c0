import Mathlib

/-! Base64 over an alphabet, with or without padding. -/

namespace NoriShell.Collections

/-- The letters of the sixty-four digits; the padding is not among them. -/
structure Base64 where
  letter : Fin 64 → Char
  digit : Char → Option (Fin 64)
  padded : Bool
  digit_letter : ∀ d, digit (letter d) = some d
  digit_padding : digit '=' = none

namespace Base64

def letterOf (d : Fin 64) (rest : Char) : Char :=
  if d.val < 26 then Char.ofNat (d.val + 65)
  else if d.val < 52 then Char.ofNat (d.val + 71)
  else if d.val < 62 then Char.ofNat (d.val - 4)
  else rest

def digitOf (last : Char) (other : Char) (c : Char) : Option (Fin 64) :=
  if 65 ≤ c.toNat ∧ c.toNat ≤ 90 then some (Fin.ofNat 64 (c.toNat - 65))
  else if 97 ≤ c.toNat ∧ c.toNat ≤ 122 then some (Fin.ofNat 64 (c.toNat - 71))
  else if 48 ≤ c.toNat ∧ c.toNat ≤ 57 then some (Fin.ofNat 64 (c.toNat + 4))
  else if c = other then some 62
  else if c = last then some 63
  else none

def standard : Base64 where
  letter d := letterOf d (if d = 62 then '+' else '/')
  digit := digitOf '/' '+'
  padded := true
  digit_letter := by decide
  digit_padding := by decide

def urlSafeNoPad : Base64 where
  letter d := letterOf d (if d = 62 then '-' else '_')
  digit := digitOf '_' '-'
  padded := false
  digit_letter := by decide
  digit_padding := by decide

variable (code : Base64)

def padding (n : Nat) : List Char :=
  if code.padded then List.replicate n '=' else []

def sextet (n : Nat) : Char :=
  code.letter (Fin.ofNat 64 n)

def encode : List UInt8 → List Char
  | [] => []
  | [x] => code.sextet (x.toNat / 4) :: code.sextet (x.toNat % 4 * 16) :: code.padding 2
  | [x, y] =>
    code.sextet (x.toNat / 4) :: code.sextet (x.toNat % 4 * 16 + y.toNat / 16) ::
      code.sextet (y.toNat % 16 * 4) :: code.padding 1
  | x :: y :: z :: rest =>
    code.sextet (x.toNat / 4) :: code.sextet (x.toNat % 4 * 16 + y.toNat / 16) ::
      code.sextet (y.toNat % 16 * 4 + z.toNat / 64) :: code.sextet (z.toNat % 64) :: encode rest

def decodeOne (p q : Char) : Option (List UInt8) := do
  let p ← code.digit p
  let q ← code.digit q
  if q.val % 16 = 0 then some [UInt8.ofNat (p.val * 4 + q.val / 16)] else none

def decodeTwo (p q r : Char) : Option (List UInt8) := do
  let p ← code.digit p
  let q ← code.digit q
  let r ← code.digit r
  if r.val % 4 = 0 then
    some [UInt8.ofNat (p.val * 4 + q.val / 16), UInt8.ofNat (q.val % 16 * 16 + r.val / 4)]
  else none

def decodeThree (p q r s : Char) : Option (List UInt8) := do
  let p ← code.digit p
  let q ← code.digit q
  let r ← code.digit r
  let s ← code.digit s
  some [UInt8.ofNat (p.val * 4 + q.val / 16), UInt8.ofNat (q.val % 16 * 16 + r.val / 4),
    UInt8.ofNat (r.val % 4 * 64 + s.val)]

def decode : List Char → Option (List UInt8)
  | [] => some []
  | [_] => none
  | [p, q] => if code.padded then none else code.decodeOne p q
  | [p, q, r] => if code.padded then none else code.decodeTwo p q r
  | [p, q, r, s] =>
    if code.padded ∧ s = '=' then
      if r = '=' then code.decodeOne p q else code.decodeTwo p q r
    else code.decodeThree p q r s
  | p :: q :: r :: s :: rest => do
    let first ← code.decodeThree p q r s
    let others ← decode rest
    some (first ++ others)

section

variable {code}

theorem digit_sextet {n : Nat} (small : n < 64) : code.digit (code.sextet n) = some ⟨n, small⟩ := by
  rw [sextet, code.digit_letter, Fin.ofNat, Option.some_inj, Fin.mk.injEq]
  exact Nat.mod_eq_of_lt small

theorem sextet_ne_padding (n : Nat) : code.sextet n ≠ '=' := by
  intro eq
  have known := code.digit_letter (Fin.ofNat 64 n)
  rw [← sextet, eq, code.digit_padding] at known
  cases known

theorem decodeOne_encode (x : UInt8) :
    code.decodeOne (code.sextet (x.toNat / 4)) (code.sextet (x.toNat % 4 * 16)) = some [x] := by
  have := x.toNat_lt
  simp only [decodeOne, digit_sextet (n := x.toNat / 4) (by omega),
    digit_sextet (n := x.toNat % 4 * 16) (by omega), Option.bind_eq_bind, Option.bind_some]
  rw [if_pos (by omega)]
  congr 2
  apply UInt8.toNat_inj.mp
  rw [UInt8.toNat_ofNat']
  omega

theorem decodeTwo_encode (x y : UInt8) :
    code.decodeTwo (code.sextet (x.toNat / 4)) (code.sextet (x.toNat % 4 * 16 + y.toNat / 16))
      (code.sextet (y.toNat % 16 * 4)) = some [x, y] := by
  have := x.toNat_lt
  have := y.toNat_lt
  simp only [decodeTwo, digit_sextet (n := x.toNat / 4) (by omega),
    digit_sextet (n := x.toNat % 4 * 16 + y.toNat / 16) (by omega),
    digit_sextet (n := y.toNat % 16 * 4) (by omega), Option.bind_eq_bind, Option.bind_some]
  rw [if_pos (by omega)]
  congr 3 <;>
    · apply UInt8.toNat_inj.mp
      rw [UInt8.toNat_ofNat']
      omega

theorem decodeThree_encode (x y z : UInt8) :
    code.decodeThree (code.sextet (x.toNat / 4)) (code.sextet (x.toNat % 4 * 16 + y.toNat / 16))
      (code.sextet (y.toNat % 16 * 4 + z.toNat / 64)) (code.sextet (z.toNat % 64)) =
      some [x, y, z] := by
  have := x.toNat_lt
  have := y.toNat_lt
  have := z.toNat_lt
  simp only [decodeThree, digit_sextet (n := x.toNat / 4) (by omega),
    digit_sextet (n := x.toNat % 4 * 16 + y.toNat / 16) (by omega),
    digit_sextet (n := y.toNat % 16 * 4 + z.toNat / 64) (by omega),
    digit_sextet (n := z.toNat % 64) (by omega), Option.bind_eq_bind, Option.bind_some]
  congr 4 <;>
    · apply UInt8.toNat_inj.mp
      rw [UInt8.toNat_ofNat']
      omega

theorem decode_group (p q r s : Char) (rest : List Char) (plain : s ≠ '=') :
    code.decode (p :: q :: r :: s :: rest) = (do
      let first ← code.decodeThree p q r s
      let others ← code.decode rest
      some (first ++ others)) := by
  cases rest with
  | nil => simp [decode, plain]
  | cons t rest => rfl

theorem decode_encode (bytes : List UInt8) : code.decode (code.encode bytes) = some bytes := by
  fun_induction encode code bytes with
  | case1 => rfl
  | case2 x =>
    unfold padding
    split
    · next padded => simp [decode, padded, decodeOne_encode]
    · next plain => simp [decode, plain, decodeOne_encode]
  | case3 x y =>
    unfold padding
    split
    · next padded => simp [decode, padded, decodeTwo_encode, sextet_ne_padding]
    · next plain => simp [decode, plain, decodeTwo_encode]
  | case4 x y z rest ih =>
    rw [decode_group _ _ _ _ _ (sextet_ne_padding _), decodeThree_encode, ih]
    rfl

theorem length_encode (padded : code.padded) (bytes : List UInt8) :
    (code.encode bytes).length = (bytes.length + 2) / 3 * 4 := by
  fun_induction encode code bytes with
  | case1 => rfl
  | case2 x => simp [padding, padded]
  | case3 x y => simp [padding, padded]
  | case4 x y z rest ih =>
    simp only [List.length_cons, ih]
    omega

theorem length_encode_le (bytes : List UInt8) :
    (code.encode bytes).length ≤ (bytes.length + 2) / 3 * 4 := by
  fun_induction encode code bytes with
  | case1 => simp
  | case2 x =>
    unfold padding
    split <;> simp
  | case3 x y =>
    unfold padding
    split <;> simp
  | case4 x y z rest ih =>
    simp only [List.length_cons]
    omega

theorem mem_encode {bytes : List UInt8} {c : Char} (mem : c ∈ code.encode bytes) :
    c = '=' ∨ ∃ d, c = code.letter d := by
  have letters : ∀ n, c = code.sextet n → c = '=' ∨ ∃ d, c = code.letter d :=
    fun n eq => .inr ⟨_, eq⟩
  have pads : ∀ n, c ∈ code.padding n → c = '=' ∨ ∃ d, c = code.letter d := by
    intro n mem
    unfold padding at mem
    split at mem
    · exact .inl (List.eq_of_mem_replicate mem)
    · cases mem
  fun_induction encode code bytes with
  | case1 => cases mem
  | case2 x =>
    simp only [List.mem_cons] at mem
    grind
  | case3 x y =>
    simp only [List.mem_cons] at mem
    grind
  | case4 x y z rest ih =>
    simp only [List.mem_cons] at mem
    grind

end

end Base64

end NoriShell.Collections

import Mathlib

/-! The widths of the identifiers and key symbols that are modelled as `Fin (2 ^ n)`, and the
counters of 64 bits. -/

namespace NoriShell.Collections

instance neZero_two_pow_128 : NeZero (2 ^ 128) := ⟨by positivity⟩

instance neZero_two_pow_32 : NeZero (2 ^ 32) := ⟨by positivity⟩

instance lawfulBEq_fin_two_pow_128 : LawfulBEq (Fin (2 ^ 128)) := inferInstance

def u64Max : Nat := 2 ^ 64 - 1

def saturatingSucc (n : Nat) : Nat :=
  min (n + 1) u64Max

theorem saturatingSucc_eq {n : Nat} (h : saturatingSucc n < u64Max) : saturatingSucc n = n + 1 := by
  unfold saturatingSucc at *
  omega

end NoriShell.Collections

import Mathlib.Data.List.Basic
import Mathlib.Data.List.Perm.Basic

/-! `Vec::swap_remove`: the last element takes the place of the one removed. -/

universe u

namespace NoriShell.Collections

variable {α : Type u}

/-- An index out of bounds panics. -/
def swapRemove? (xs : List α) (i : Nat) : Option (α × List α) := do
  let removed ← xs[i]?
  let last ← xs.getLast?
  return (removed, (xs.set i last).dropLast)

theorem swapRemove?_concat_lt (xs : List α) (last : α) {i : Nat} (h : i < xs.length) :
    swapRemove? (xs ++ [last]) i = some (xs[i], xs.set i last) := by
  simp [swapRemove?, List.getElem?_append_left h, List.getElem?_eq_getElem h,
    List.set_append_left _ _ h]

theorem swapRemove?_concat_last (xs : List α) (last : α) :
    swapRemove? (xs ++ [last]) xs.length = some (last, xs) := by
  simp [swapRemove?]

theorem perm_set_of_lt (xs : List α) (last : α) {i : Nat} (h : i < xs.length) :
    (xs ++ [last]).Perm (xs[i] :: xs.set i last) :=
  calc
    (xs ++ [last]).Perm (last :: xs) := List.perm_append_singleton last xs
    List.Perm _ (last :: xs[i] :: xs.eraseIdx i) := (List.getElem_cons_eraseIdx_perm h).symm.cons last
    List.Perm _ (xs[i] :: last :: xs.eraseIdx i) := .swap ..
    List.Perm _ (xs[i] :: xs.set i last) := (List.set_perm_cons_eraseIdx h last).symm.cons _

theorem swapRemove?_of_lt {xs : List α} {i : Nat} (h : i < xs.length) :
    ∃ rest, swapRemove? xs i = some (xs[i], rest) ∧ xs.Perm (xs[i] :: rest) := by
  rcases List.eq_nil_or_concat' xs with rfl | ⟨init, last, rfl⟩
  · simp at h
  rcases Nat.lt_succ_iff_lt_or_eq.mp (by simpa using h : i < init.length + 1) with inside | rfl
  · rw [List.getElem_append_left inside]
    exact ⟨_, swapRemove?_concat_lt init last inside, perm_set_of_lt init last inside⟩
  · rw [List.getElem_concat_length rfl]
    exact ⟨init, swapRemove?_concat_last init last, List.perm_append_singleton last init⟩

end NoriShell.Collections

import Mathlib

/-! The first element of each key, in order. -/

universe u v

namespace NoriShell.Collections

variable {α : Type u} {κ : Type v} [DecidableEq κ] {key : α → κ}

def firsts (key : α → κ) : List α → List α
  | [] => []
  | a :: l => a :: (firsts key l).filter (key · ≠ key a)

theorem mem_map_firsts {l : List α} {k : κ} : k ∈ (firsts key l).map key ↔ k ∈ l.map key := by
  induction l with
  | nil => rfl
  | cons a l ih =>
    rw [firsts, List.map_cons, List.map_cons, List.mem_cons, List.mem_cons]
    refine or_congr_right' fun other => ?_
    rw [← ih]
    simp only [List.mem_map, List.mem_filter, decide_eq_true_eq]
    constructor
    · rintro ⟨b, ⟨mem, -⟩, same⟩
      exact ⟨b, mem, same⟩
    · rintro ⟨b, mem, rfl⟩
      exact ⟨b, ⟨mem, other⟩, rfl⟩

theorem firsts_concat {l : List α} {a : α} :
    firsts key (l ++ [a]) = if key a ∈ l.map key then firsts key l else firsts key l ++ [a] := by
  induction l with
  | nil => rfl
  | cons b l ih =>
    rw [List.cons_append, firsts, ih, List.map_cons, firsts]
    by_cases same : key a = key b
    · have first : key a ∈ key b :: l.map key := same ▸ List.mem_cons_self
      rw [if_pos first]
      split
      · rfl
      · simp [List.filter_append, same]
    · simp only [List.mem_cons, same, false_or]
      split
      · rfl
      · simp [List.filter_append, same]

end NoriShell.Collections

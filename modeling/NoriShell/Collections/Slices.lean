import Mathlib.Data.List.Basic

/-! Slices of a buffer, read and overwritten in place. -/

universe u

namespace NoriShell.Collections

variable {α : Type u}

/-- A range out of bounds panics. -/
def slice? (bytes : List α) (start len : Nat) : Option (List α) :=
  if start + len ≤ bytes.length then some ((bytes.drop start).take len) else none

def overwrite? (bytes : List α) (start : Nat) (part : List α) : Option (List α) :=
  if start + part.length ≤ bytes.length then
    some (bytes.take start ++ part ++ bytes.drop (start + part.length))
  else none

section

variable {bytes part out source : List α} {start len i : Nat}

theorem slice?_of_le (inBounds : start + len ≤ bytes.length) :
    slice? bytes start len = some ((bytes.drop start).take len) :=
  if_pos inBounds

theorem slice?_eq_some (h : slice? bytes start len = some part) :
    start + len ≤ bytes.length ∧ part = (bytes.drop start).take len ∧ part.length = len := by
  unfold slice? at h
  split at h
  · rename_i inBounds
    cases h
    refine ⟨inBounds, rfl, ?_⟩
    simp only [List.length_take, List.length_drop]
    omega
  · cases h

theorem overwrite?_of_le (inBounds : start + part.length ≤ bytes.length) :
    ∃ out, overwrite? bytes start part = some out :=
  ⟨_, if_pos inBounds⟩

theorem overwrite?_eq_some (h : overwrite? bytes start part = some out) :
    start + part.length ≤ bytes.length ∧ out.length = bytes.length ∧
      ∀ i, out[i]? = if start ≤ i ∧ i < start + part.length then part[i - start]? else bytes[i]? := by
  unfold overwrite? at h
  split at h
  · rename_i inBounds
    cases h
    refine ⟨inBounds, ?_, fun i => ?_⟩
    · simp only [List.length_append, List.length_take, List.length_drop]
      omega
    · have before : (bytes.take start).length = start := by
        rw [List.length_take]
        omega
      rcases Nat.lt_or_ge i start with less | past
      · rw [if_neg (by omega), List.append_assoc, List.getElem?_append_left (by omega),
          List.getElem?_take_of_lt less]
      rcases Nat.lt_or_ge i (start + part.length) with inside | after
      · rw [if_pos ⟨past, inside⟩, List.getElem?_append_left (by simp [before, inside]),
          List.getElem?_append_right (by omega), before]
      · rw [if_neg (by omega), List.getElem?_append_right (by simp [before, after]),
          List.getElem?_drop]
        congr 1
        simp only [List.length_append, before]
        omega
  · cases h

theorem overwrite?_outside (h : overwrite? bytes start part = some out)
    (outside : ¬(start ≤ i ∧ i < start + part.length)) : out[i]? = bytes[i]? := by
  rw [(overwrite?_eq_some h).2.2, if_neg outside]

/-- Overwriting with the same range of `source` makes the buffers agree there, and
keeps them so elsewhere. -/
theorem overwrite?_agrees (read : slice? source start len = some part)
    (h : overwrite? bytes start part = some out)
    (agrees : start ≤ i ∧ i < start + len ∨ bytes[i]? = source[i]?) : out[i]? = source[i]? := by
  obtain ⟨-, shape, length⟩ := slice?_eq_some read
  rw [(overwrite?_eq_some h).2.2]
  split
  · rename_i inside
    rw [shape, List.getElem?_take_of_lt (by omega), List.getElem?_drop]
    congr 1
    omega
  · rename_i outside
    rw [length] at outside
    exact agrees.resolve_left outside

theorem length_flatMap_range {rows : Nat} {f : Nat → List α}
    (length : ∀ row < rows, (f row).length = len) :
    ((List.range rows).flatMap f).length = rows * len := by
  induction rows with
  | zero => simp
  | succ rows ih =>
    rw [List.range_succ, List.flatMap_append, List.length_append, List.flatMap_singleton,
      ih fun row less => length row (by omega), length rows (by omega), Nat.succ_mul]

theorem slice?_flatMap {rows : Nat} {f : Nat → List α} (length : ∀ row < rows, (f row).length = len)
    {row : Nat} (inside : row < rows) :
    slice? ((List.range rows).flatMap f) (row * len) len = some (f row) := by
  obtain ⟨more, rfl⟩ : ∃ more, rows = row + 1 + more := ⟨rows - (row + 1), by omega⟩
  have before := length_flatMap_range fun r (less : r < row) => length r (by omega)
  have whole := length_flatMap_range length
  have here := length row inside
  rw [slice?_of_le (by rw [whole, ← Nat.succ_mul]; exact Nat.mul_le_mul_right _ inside),
    List.range_add, List.range_succ, List.flatMap_append, List.flatMap_append,
    List.flatMap_singleton, List.append_assoc, List.drop_left' before, List.take_left' here]

end

section

variable {ε : Type} (source target : Nat → Nat) (len : Nat) {rows : List Nat} {bytes : List α}
  {f : List α → Nat → Except ε (List α)}

end

end NoriShell.Collections

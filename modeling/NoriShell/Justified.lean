import Mathlib.Data.List.Induction

/-! Traces in which everything is justified by what came before it. -/

universe u

namespace NoriShell

variable {α : Type u} {P : List α → α → Prop} {trace more : List α} {a : α}

def Justified (P : List α → α → Prop) (trace : List α) : Prop :=
  ∀ before a after, trace = before ++ a :: after → P before a

namespace Justified

theorem nil : Justified P [] := fun _ _ _ shape => by simp at shape

theorem concat_iff : Justified P (trace ++ [a]) ↔ Justified P trace ∧ P trace a := by
  constructor
  · intro h
    refine ⟨fun before b after shape => ?_, h trace a [] rfl⟩
    exact h before b (after ++ [a]) (by simp [shape])
  · rintro ⟨h, last⟩ before b after shape
    rcases List.eq_nil_or_concat after with rfl | ⟨after, final, rfl⟩
    · obtain ⟨rfl, same⟩ := List.append_inj' shape rfl
      obtain rfl := (List.cons.inj same).1
      exact last
    · rw [List.concat_eq_append, ← List.cons_append, ← List.append_assoc] at shape
      exact h before b after (List.append_inj' shape rfl).1

theorem cons_iff :
    Justified P (a :: trace) ↔ P [] a ∧ Justified (fun before => P (a :: before)) trace := by
  constructor
  · intro h
    refine ⟨h [] a trace rfl, fun before b after shape => ?_⟩
    exact h (a :: before) b after (by rw [shape, List.cons_append])
  · rintro ⟨first, h⟩ before b after shape
    cases before with
    | nil =>
      obtain ⟨rfl, -⟩ := List.cons.inj shape
      exact first
    | cons c before =>
      obtain ⟨rfl, rest⟩ := List.cons.inj shape
      exact h before b after rest

theorem append (h : Justified P trace) (free : ∀ a ∈ more, ∀ later, P (trace ++ later) a) :
    Justified P (trace ++ more) := by
  induction more using List.reverseRecOn with
  | nil => simpa using h
  | append_singleton more a ih =>
    rw [← List.append_assoc, concat_iff]
    exact ⟨ih fun b mem => free b (by simp [mem]), free a (by simp) more⟩

theorem append_iff (free : ∀ a ∈ more, ∀ before, P before a) :
    Justified P (trace ++ more) ↔ Justified P trace := by
  induction more using List.reverseRecOn with
  | nil => simp
  | append_singleton more a ih =>
    rw [← List.append_assoc, concat_iff, ih fun b mem => free b (by simp [mem])]
    exact and_iff_left (free a (by simp) _)

theorem always_iff (trace : List α) {Q : List α → Prop} (start : Q [])
    (step : ∀ before a, Q before → (Q (before ++ [a]) ↔ P before a)) :
    (∀ before after, trace = before ++ after → Q before) ↔ Justified P trace := by
  induction trace using List.reverseRecOn with
  | nil =>
    refine iff_of_true (fun before after shape => ?_) .nil
    rwa [(List.append_eq_nil_iff.mp shape.symm).1]
  | append_singleton trace a ih =>
    rw [concat_iff, ← ih]
    constructor
    · intro all
      refine ⟨fun before after shape => all before (after ++ [a]) (by simp [shape]), ?_⟩
      exact (step trace a (all trace [a] rfl)).mp (all (trace ++ [a]) [] (by simp))
    · rintro ⟨all, last⟩ before after shape
      rcases List.eq_nil_or_concat after with rfl | ⟨after, final, rfl⟩
      · rw [List.append_nil] at shape
        exact shape ▸ (step trace a (all trace [] (by simp))).mpr last
      · rw [List.concat_eq_append, ← List.append_assoc] at shape
        exact all before after (List.append_inj' shape rfl).1

end Justified

end NoriShell

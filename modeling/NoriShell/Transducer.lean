import Mathlib.Algebra.Group.Defs
import Mathlib.Data.List.Induction
import Mathlib.Tactic.Common

/-! Machines that read one symbol at a time, put something out at each, and may
fail.  A failure stops the scan and keeps the state the failing step left. -/

universe u v w x

namespace NoriShell

structure Scan (σ : Type u) (ω : Type v) (ε : Type w) where
  state : σ
  output : ω
  failure : Option ε

namespace Scan

variable {σ : Type u} {ω : Type v} {ε : Type w} [AddMonoid ω]

def start (s : σ) : Scan σ ω ε := ⟨s, 0, none⟩

def andThen (first : Scan σ ω ε) (next : σ → Scan σ ω ε) : Scan σ ω ε :=
  match first.failure with
  | some _ => first
  | none => { next first.state with output := first.output + (next first.state).output }

@[simp] theorem andThen_failed (s : σ) (o : ω) (e : ε) (next : σ → Scan σ ω ε) :
    andThen ⟨s, o, some e⟩ next = ⟨s, o, some e⟩ := rfl

@[simp] theorem andThen_ok (s : σ) (o : ω) (next : σ → Scan σ ω ε) : andThen ⟨s, o, none⟩ next =
      ⟨(next s).state, o + (next s).output, (next s).failure⟩ := rfl

@[simp] theorem start_andThen (s : σ) (next : σ → Scan σ ω ε) :
    (start s).andThen next = next s := by
  simp [start]

theorem andThen_assoc (first : Scan σ ω ε) (next last : σ → Scan σ ω ε) :
    (first.andThen next).andThen last = first.andThen fun s => (next s).andThen last := by
  obtain ⟨s, o, _ | e⟩ := first
  · rcases h : next s with ⟨t, p, _ | e⟩ <;> simp [h, add_assoc]
  · simp

theorem ok_of_andThen {first : Scan σ ω ε} {next : σ → Scan σ ω ε}
    (ok : (first.andThen next).failure = none) : first.failure = none := by
  obtain ⟨s, o, _ | e⟩ := first
  · rfl
  · exact ok

end Scan

section

variable {σ : Type u} {ω : Type v} {ε : Type w} {α : Type x} [AddMonoid ω]
  (step : σ → α → Scan σ ω ε)

def scan (s : σ) : List α → Scan σ ω ε
  | [] => .start s
  | a :: as => (step s a).andThen (scan · as)

@[simp] theorem scan_nil (s : σ) : scan step s [] = .start s := rfl

theorem scan_cons (s : σ) (a : α) (as : List α) :
    scan step s (a :: as) = (step s a).andThen (scan step · as) := rfl

theorem scan_append (s : σ) (as bs : List α) :
    scan step s (as ++ bs) = (scan step s as).andThen (scan step · bs) := by
  induction as generalizing s with
  | nil => simp
  | cons a as ih =>
    simp only [List.cons_append, scan_cons, ih, Scan.andThen_assoc]

theorem scan_concat (s : σ) (as : List α) (a : α) :
    scan step s (as ++ [a]) = (scan step s as).andThen (step · a) := by
  rw [scan_append]
  obtain ⟨t, o, _ | e⟩ := scan step s as
  · rcases h : step t a with ⟨t', o', _ | e⟩ <;> simp [scan_cons, h, Scan.start]
  · simp

variable {step}

theorem scan_traces {I : ω → σ → Prop}
    (keeps : ∀ o s a, I o s → I (o + (step s a).output) (step s a).state)
    {o : ω} {s : σ} (h : I o s) (as : List α) :
    I (o + (scan step s as).output) (scan step s as).state := by
  induction as generalizing o s with
  | nil => simpa [Scan.start] using h
  | cons a as ih =>
    have first := keeps o s a h
    rw [scan_cons]
    rcases h : step s a with ⟨t, p, _ | e⟩ <;> rw [h] at first
    · simpa [add_assoc] using ih first
    · simpa using first

theorem scan_reads {s : σ} {I : List α → σ → Prop} (begins : I [] s)
    (extend : ∀ as a, (scan step s as).failure = none → I as (scan step s as).state →
      (step (scan step s as).state a).failure = none →
      I (as ++ [a]) (step (scan step s as).state a).state)
    {as : List α} (ok : (scan step s as).failure = none) : I as (scan step s as).state := by
  induction as using List.reverseRecOn with
  | nil => exact begins
  | append_singleton as a ih =>
    have last := extend as a
    rw [scan_concat] at ok ⊢
    rcases h : scan step s as with ⟨t, o, _ | e⟩ <;> rw [h] at last ih ok
    · exact last rfl (ih rfl) ok
    · simp at ok

theorem scan_concat_of_ok {s : σ} {as : List α} (ok : (scan step s as).failure = none) (a : α) :
    (scan step s (as ++ [a])).failure = (step (scan step s as).state a).failure ∧
      (scan step s (as ++ [a])).state = (step (scan step s as).state a).state := by
  rw [scan_concat]
  rcases h : scan step s as with ⟨t, o, _ | e⟩ <;> rw [h] at ok
  · exact ⟨rfl, rfl⟩
  · simp at ok

end

end NoriShell

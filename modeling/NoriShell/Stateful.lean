import Mathlib.Logic.Basic

/-! Computations over a state that outlives their failures: what was changed before an
error stays changed.  A computation may also never return. -/

universe u

namespace NoriShell

def Stateful (σ ε α : Type u) : Type u := σ → Option (Except ε α × σ)

namespace Stateful

variable {σ ε α β : Type u}

def returning (value : α) : Stateful σ ε α := fun s => some (.ok value, s)

def andThen (first : Stateful σ ε α) (rest : α → Stateful σ ε β) : Stateful σ ε β := fun s =>
  match first s with
  | some (.ok value, t) => rest value t
  | some (.error e, t) => some (.error e, t)
  | none => none

instance : Monad (Stateful σ ε) where
  pure := returning
  bind := andThen

def fail (e : ε) : Stateful σ ε α := fun s => some (.error e, s)

def check (result : Except ε α) : Stateful σ ε α := fun s => some (result, s)

def state : Stateful σ ε σ := fun s => some (.ok s, s)

def change (f : σ → σ) : Stateful σ ε PUnit := fun s => some (.ok ⟨⟩, f s)

def await : Option α → Stateful σ ε α
  | some value => returning value
  | none => fun _ => none

def attempt (computation : Stateful σ ε α) : Stateful σ ε (Except ε α) := fun s =>
  (computation s).map fun (result, t) => (.ok result, t)

section

variable {first : Stateful σ ε α} {rest : α → Stateful σ ε β} {s t : σ} {value : α} {e : ε}

@[simp] theorem pure_apply : (pure value : Stateful σ ε α) s = some (.ok value, s) := rfl

@[simp] theorem fail_apply : (fail e : Stateful σ ε α) s = some (.error e, s) := rfl

@[simp] theorem fail_bind : (fail e : Stateful σ ε α) >>= rest = fail e := rfl

@[simp] theorem pure_then : (pure value >>= rest : Stateful σ ε β) = rest value := rfl

@[simp] theorem check_ok_bind : (check (.ok value) >>= rest : Stateful σ ε β) = rest value := rfl

@[simp] theorem check_error_bind :
    (check (.error e : Except ε α) >>= rest : Stateful σ ε β) = fail e := rfl

@[simp] theorem check_apply {result : Except ε α} :
    (check result : Stateful σ ε α) s = some (result, s) := rfl

@[simp] theorem await_some_bind : (await (some value) >>= rest : Stateful σ ε β) = rest value := rfl

@[simp] theorem state_bind {rest : σ → Stateful σ ε β} : (state >>= rest) s = rest s s := rfl

@[simp] theorem change_bind {f : σ → σ} {rest : PUnit → Stateful σ ε β} :
    (change f >>= rest) s = rest ⟨⟩ (f s) := rfl

theorem bind_of_ok (h : first s = some (.ok value, t)) : (first >>= rest) s = rest value t := by
  change andThen first rest s = _
  rw [andThen, h]

theorem bind_of_error (h : first s = some (.error e, t)) :
    (first >>= rest) s = some (.error e, t) := by
  change andThen first rest s = _
  rw [andThen, h]

theorem bind_of_none (h : first s = none) : (first >>= rest) s = none := by
  change andThen first rest s = _
  rw [andThen, h]

theorem attempt_of_some {result : Except ε α} (h : first s = some (result, t)) :
    attempt first s = some (.ok result, t) := by
  rw [attempt, h]
  rfl

theorem bind_bind {γ : Type u} (last : β → Stateful σ ε γ) :
    (first >>= rest) >>= last = first >>= fun value => rest value >>= last := by
  funext s
  rcases h : first s with _ | ⟨_ | value, t⟩
  · rw [bind_of_none (bind_of_none h), bind_of_none h]
  · rw [bind_of_error (bind_of_error h), bind_of_error h]
  · rw [bind_of_ok h]
    change andThen (andThen first rest) last s = _
    rw [andThen, andThen, h]
    rfl

end

end Stateful

end NoriShell

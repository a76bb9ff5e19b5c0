import Mathlib.Logic.Basic
import Mathlib.Tactic.Common

/-! Three-way merging of one slot.  A slot holds a value, a tombstone or nothing,
and a side that holds nothing has an opinion only over a value. -/

universe u

namespace NoriShell.ThreeWay

variable {V : Type u}

inductive State (V : Type u) : Type u
  | live (value : V)
  | dead
  | absent
  deriving DecidableEq

namespace State

/-- The side departs from the base; nothing over a tombstone is no opinion. -/
def Changed (base : State V) : State V → Prop
  | .live v => base ≠ .live v
  | .dead => base ≠ .dead
  | .absent => ∃ v, base = .live v

instance [DecidableEq V] (base side : State V) : Decidable (base.Changed side) :=
  match side with
  | .live v => inferInstanceAs (Decidable (base ≠ .live v))
  | .dead => inferInstanceAs (Decidable (base ≠ .dead))
  | .absent =>
    match base with
    | .live v => isTrue ⟨v, rfl⟩
    | .dead => isFalse fun ⟨_, h⟩ => nomatch h
    | .absent => isFalse fun ⟨_, h⟩ => nomatch h

/-- What is not live counts as deleted. -/
def orDead : State V → State V
  | .live v => .live v
  | .dead | .absent => .dead

theorem orDead_of_ne_absent {s : State V} (held : s ≠ .absent) : s.orDead = s := by
  cases s with
  | live v => rfl
  | dead => rfl
  | absent => exact absurd rfl held

/-- The merged slot, or nothing when both sides changed it to different states. -/
def merge [DecidableEq V] (base loc remote : State V) : Option (State V) :=
  if base.Changed loc then
    if base.Changed remote then
      if loc = remote then some loc else none
    else some loc
  else if base.Changed remote then some remote
  else some base

theorem not_changed_self (s : State V) : ¬s.Changed s := by
  cases s <;> simp [Changed]

variable {base loc remote : State V}

theorem eq_or_of_not_changed {side : State V} (h : ¬base.Changed side) :
    side = base ∨ side = .absent ∧ base = .dead := by
  cases side with
  | live v => exact .inl (not_not.mp h).symm
  | dead => exact .inl (not_not.mp h).symm
  | absent =>
    cases base with
    | live v => exact absurd ⟨v, rfl⟩ h
    | dead => exact .inr ⟨rfl, rfl⟩
    | absent => exact .inl rfl

variable [DecidableEq V]

theorem merge_comm (base loc remote : State V) : merge base loc remote = merge base remote loc := by
  by_cases same : loc = remote
  · rw [same]
  · unfold merge
    simp only [if_neg same, if_neg (Ne.symm same)]
    split_ifs <;> rfl

theorem merge_eq_none : merge base loc remote = none ↔
      base.Changed loc ∧ base.Changed remote ∧ loc ≠ remote := by
  unfold merge
  split_ifs <;> simp_all

theorem merge_cases {m : State V} (h : merge base loc remote = some m) :
    m = base ∨ m = loc ∨ m = remote := by
  unfold merge at h
  split_ifs at h <;> simp_all

theorem merge_dead_ne_absent (loc remote : State V) : merge .dead loc remote ≠ some .absent := by
  intro h
  unfold merge at h
  split_ifs at h <;> simp_all [Changed]

theorem merge_base_stable {m : State V} (h : merge base loc remote = some m) :
    merge base m remote = some m := by
  have self := not_changed_self base
  unfold merge at h ⊢
  split_ifs at h <;> simp_all

theorem merge_remote_stable {m : State V} (h : merge base loc remote = some m) :
    merge remote m remote = some m := by
  have notAbsent : m = .absent → remote ≠ .dead := by
    rintro rfl rfl
    unfold merge at h
    split_ifs at h <;> simp_all [Changed]
  unfold merge
  simp only [if_neg (not_changed_self remote)]
  split_ifs with changed
  · rfl
  · rcases eq_or_of_not_changed changed with rfl | ⟨absent, dead⟩
    · rfl
    · exact absurd dead (notAbsent absent)

theorem merge_same (s : State V) : merge s s s = some s := by
  simp [merge, not_changed_self]

end State

end NoriShell.ThreeWay

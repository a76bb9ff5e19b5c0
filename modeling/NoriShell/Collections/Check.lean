import Mathlib.Data.List.Basic

/-! Validation passes: a check either accepts or stops with its first error. -/

universe u v w

namespace NoriShell.Collections

variable {ε : Type u} {α : Type v} {β : Type w}

def reject (c : Prop) [Decidable c] (e : ε) : Except ε Unit :=
  if c then .error e else .ok ()

def each (l : List α) (f : α → Except ε Unit) : Except ε Unit :=
  match l with
  | [] => .ok ()
  | a :: l => f a >>= fun _ => each l f

namespace Check

@[simp] theorem reject_eq_ok {c : Prop} [Decidable c] {e : ε} {u : Unit} :
    reject c e = .ok u ↔ ¬c := by
  unfold reject
  split <;> simp_all

@[simp] theorem bind_unit_eq_ok {α : Type} {x : Except ε Unit} {f : Unit → Except ε α} {a : α} :
    (x >>= f) = .ok a ↔ x = .ok () ∧ f () = .ok a := by
  cases x <;> simp [bind, Except.bind]

theorem bind_eq_ok {α β : Type v} {x : Except ε α} {f : α → Except ε β} {b : β} :
    (x >>= f) = .ok b ↔ ∃ a, x = .ok a ∧ f a = .ok b := by
  cases x <;> simp [bind, Except.bind]

@[simp] theorem each_eq_ok {l : List α} {f : α → Except ε Unit} {u : Unit} :
    each l f = .ok u ↔ ∀ a ∈ l, f a = .ok () := by
  induction l with
  | nil => simp [each]
  | cons a l ih =>
    simp [each, ih]

theorem foldlM_eq_ok {f : β → α → Except ε β} {g : β → α → β} {l : List α}
    (h : ∀ acc, ∀ a ∈ l, f acc a = .ok (g acc a)) (init : β) :
    l.foldlM f init = .ok (l.foldl g init) := by
  induction l generalizing init with
  | nil => rfl
  | cons a l ih =>
    rw [List.foldlM_cons, h init a List.mem_cons_self]
    exact ih (fun acc b hb => h acc b (List.mem_cons_of_mem _ hb)) _

theorem mapM_eq_ok {α β : Type} {f : α → Except ε β} {l : List α} {l' : List β}
    (h : l.mapM f = .ok l') : ∀ b ∈ l', ∃ a ∈ l, f a = .ok b := by
  induction l generalizing l' with
  | nil =>
    cases h
    simp
  | cons a l ih =>
    simp only [List.mapM_cons, bind_eq_ok] at h
    obtain ⟨b, first, rest, others, eq⟩ := h
    cases eq
    intro c mem
    rcases List.mem_cons.mp mem with rfl | mem
    · exact ⟨a, List.mem_cons_self, first⟩
    · obtain ⟨a', mem', eq⟩ := ih others c mem
      exact ⟨a', List.mem_cons_of_mem _ mem', eq⟩

theorem mapM_of_ok {α β : Type} {f : α → Except ε β} {g : α → β} {l : List α}
    (h : ∀ a ∈ l, f a = .ok (g a)) : l.mapM f = .ok (l.map g) := by
  induction l with
  | nil => rfl
  | cons a l ih =>
    rw [List.mapM_cons, h a List.mem_cons_self, ih fun b mem => h b (List.mem_cons_of_mem _ mem)]
    rfl

theorem foldlM_accepts {f : β → α → Except ε β} {l : List α} {b b' : β}
    (h : l.foldlM f b = .ok b') {a : α} (mem : a ∈ l) : ∃ s s', f s a = .ok s' := by
  induction l generalizing b with
  | nil => cases mem
  | cons first l ih =>
    rw [List.foldlM_cons, bind_eq_ok] at h
    obtain ⟨next, accepted, rest⟩ := h
    rcases List.mem_cons.mp mem with rfl | mem
    · exact ⟨b, next, accepted⟩
    · exact ih rest mem

theorem foldlM_keeps {f : β → α → Except ε β} {l : List α} {P : β → Prop}
    (step : ∀ acc acc', ∀ a ∈ l, f acc a = .ok acc' → P acc → P acc') {init last : β}
    (h : l.foldlM f init = .ok last) (start : P init) : P last := by
  induction l generalizing init with
  | nil =>
    cases h
    exact start
  | cons a l ih =>
    rw [List.foldlM_cons, bind_eq_ok] at h
    obtain ⟨next, first, rest⟩ := h
    apply ih (fun acc acc' b mem => step acc acc' b (List.mem_cons_of_mem _ mem)) rest
    exact step init next a List.mem_cons_self first start

def Avoids (e : ε) (x : Except ε α) : Prop := x ≠ .error e

namespace Avoids

variable {e : ε}

@[simp] theorem ok {a : α} : Avoids e (.ok a) := nofun

@[simp] theorem pure {a : α} : Avoids e (Pure.pure a) := nofun

@[simp] theorem error {e' : ε} (h : e' ≠ e) : Avoids e (.error e' : Except ε α) :=
  fun same => h (Except.error.inj same)

@[simp] theorem reject {c : Prop} [Decidable c] {e' : ε} (h : e' ≠ e) : Avoids e (reject c e') := by
  unfold Collections.reject
  split
  · exact .error h
  · exact .ok

theorem bind_of_ok {α β : Type v} {x : Except ε α} {f : α → Except ε β} (first : Avoids e x)
    (rest : ∀ a, x = .ok a → Avoids e (f a)) : Avoids e (x >>= f) := by
  cases x with
  | error e' => exact .error fun same => first (congrArg Except.error same)
  | ok a => exact rest a rfl

theorem bind {α β : Type v} {x : Except ε α} {f : α → Except ε β} (first : Avoids e x)
    (rest : ∀ a, Avoids e (f a)) : Avoids e (x >>= f) :=
  first.bind_of_ok fun a _ => rest a

@[simp] theorem bind_iff {α β : Type v} {x : Except ε α} {f : α → Except ε β} :
    Avoids e (x >>= f) ↔ Avoids e x ∧ ∀ a, x = .ok a → Avoids e (f a) := by
  refine ⟨fun h => ?_, fun h => h.1.bind_of_ok h.2⟩
  cases x with
  | error e' => exact ⟨fun same => h (by cases same; rfl), nofun⟩
  | ok a => exact ⟨.ok, fun _ same => Except.ok.inj same ▸ h⟩

@[simp] theorem map_iff {α β : Type v} {x : Except ε α} {f : α → β} :
    Avoids e (f <$> x) ↔ Avoids e x := by
  cases x <;> simp [Avoids, Functor.map, Except.map]

@[simp] theorem each {l : List α} {f : α → Except ε Unit} (h : ∀ a, Avoids e (f a)) :
    Avoids e (each l f) := by
  induction l with
  | nil => exact .ok
  | cons a l ih => exact .bind (h a) fun _ => ih

@[simp] theorem foldlM {f : β → α → Except ε β} (h : ∀ b a, Avoids e (f b a)) {l : List α} {b : β} :
    Avoids e (l.foldlM f b) := by
  induction l generalizing b with
  | nil => exact .ok
  | cons a l ih => exact .bind (h b a) fun _ => ih

end Avoids

end Check

end NoriShell.Collections

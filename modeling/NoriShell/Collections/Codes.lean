import Mathlib

/-! Texts that are put together from the codes of their parts, and can be told apart again. -/

universe u v w

namespace NoriShell.Collections

variable {σ : Type u} {α : Type v} {β : Type w} {f : α → List σ} {g : β → List σ}
  {p q : List σ → Prop}

/-- Before texts that may come next, equal codes are of equal values. -/
def Legible (encode : α → List σ) (next : List σ → Prop) : Prop :=
  ∀ a b r s, next r → next s → encode a ++ r = encode b ++ s → a = b ∧ r = s

namespace Legible

theorem comp (h : Legible f p) {e : β → α} (injective : Function.Injective e) :
    Legible (fun b => f (e b)) p := by
  intro a b r s hr hs same
  obtain ⟨values, rest⟩ := h _ _ r s hr hs same
  exact ⟨injective values, rest⟩

theorem behind (h : Legible f p) (text : List σ) : Legible (fun a => text ++ f a) p := by
  intro a b r s hr hs same
  simp only [List.append_assoc, List.append_cancel_left_eq] at same
  exact h a b r s hr hs same

theorem separated (first : Legible f p) (second : Legible g q) (separator : σ)
    (stops : ∀ r, p (separator :: r)) :
    Legible (fun x : α × β => f x.1 ++ separator :: g x.2) q := by
  intro x y r s hr hs same
  simp only [List.append_assoc, List.cons_append] at same
  obtain ⟨firsts, rest⟩ := first x.1 y.1 _ _ (stops _) (stops _) same
  obtain ⟨seconds, rest⟩ := second x.2 y.2 r s hr hs (List.cons.inj rest).2
  exact ⟨Prod.ext firsts seconds, rest⟩

theorem option (h : Legible f p) (absent : List σ) (apart : ∀ a r s, absent ++ r ≠ f a ++ s) :
    Legible (fun o : Option α => o.elim absent f) p := by
  intro o o' r s hr hs same
  cases o with
  | none =>
    cases o' with
    | none => exact ⟨rfl, List.append_cancel_left same⟩
    | some b => exact absurd same (apart b r s)
  | some a =>
    cases o' with
    | none => exact absurd same.symm (apart a s r)
    | some b =>
      obtain ⟨values, rest⟩ := h a b r s hr hs same
      exact ⟨congrArg some values, rest⟩

theorem fixed (injective : Function.Injective f) (length : ∀ a b, (f a).length = (f b).length) :
    Legible f p := by
  intro a b r s _ _ same
  obtain ⟨codes, rest⟩ := List.append_inj same (length a b)
  exact ⟨injective codes, rest⟩

theorem spanned (injective : Function.Injective f) (isPart : σ → Bool)
    (parts : ∀ a, ∀ c ∈ f a, isPart c) :
    Legible f (fun r => ∀ c ∈ r.head?, isPart c = false) := by
  have span (a : α) (r : List σ) (hr : ∀ c ∈ r.head?, isPart c = false) :
      (f a ++ r).takeWhile isPart = f a := by
    rw [List.takeWhile_append_of_pos (parts a)]
    cases r with
    | nil => simp
    | cons c r => simp [hr c rfl]
  intro a b r s hr hs same
  have codes : f a = f b := by
    rw [← span a r hr, ← span b s hs, same]
  rw [codes] at same
  exact ⟨injective codes, List.append_cancel_left same⟩

theorem sized {number : Nat → List σ} (read : Legible number p) (size : σ → Nat)
    (positive : ∀ c, 0 < size c) (separator : σ) (stops : ∀ r, p (separator :: r)) :
    Legible (fun text : List σ => number (text.map size).sum ++ separator :: text) q := by
  intro a b r s _ _ same
  simp only [List.append_assoc, List.cons_append] at same
  obtain ⟨sizes, rest⟩ := read _ _ _ _ (stops _) (stops _) same
  have texts := (List.cons.inj rest).2
  have none (more : List σ) (zero : (more.map size).sum = 0) : more = [] := by
    cases more with
    | nil => rfl
    | cons c more =>
      have := positive c
      simp only [List.map_cons, List.sum_cons] at zero
      omega
  rcases List.append_eq_append_iff.1 texts with ⟨more, rfl, rfl⟩ | ⟨more, rfl, rfl⟩
  · obtain rfl := none more (by simpa using sizes)
    simp
  · obtain rfl := none more (by simpa using sizes)
    simp

@[simp] theorem intercalate_nil (separator : σ) : [separator].intercalate [] = [] := rfl

theorem intercalate_cons (separator : σ) (text : List σ) (texts : List (List σ)) :
    [separator].intercalate (text :: texts) = text ++ texts.flatMap (separator :: ·) := by
  induction texts generalizing text with
  | nil => simp [List.intercalate]
  | cons next texts ih =>
    rw [List.flatMap_cons, List.cons_append, ← ih next]
    simp [List.intercalate]

section

variable (separator : σ) (stops : ∀ r, p (separator :: r))
  (ends : ∀ r, q r → p r ∧ r.head? ≠ some separator)

include stops ends in
theorem next_rest (l : List α) (r : List σ) (next : q r) :
    p ((l.map f).flatMap (separator :: ·) ++ r) := by
  cases l with
  | nil => exact (ends r next).1
  | cons a l => exact stops _

include stops ends in
theorem rest (item : Legible f p) :
    Legible (fun l : List α => (l.map f).flatMap (separator :: ·)) q := by
  intro l
  induction l with
  | nil =>
    intro m r s hr hs same
    cases m with
    | nil => exact ⟨rfl, by simpa using same⟩
    | cons b m => exact absurd (by simp at same; simp [same]) (ends r hr).2
  | cons a l ih =>
    intro m r s hr hs same
    cases m with
    | nil => exact absurd (by simp at same; simp [← same]) (ends s hs).2
    | cons b m =>
      simp only [List.map_cons, List.flatMap_cons, List.cons_append, List.append_assoc,
        List.cons.injEq, true_and] at same
      obtain ⟨first, behind⟩ := item a b _ _ (next_rest separator stops ends l r hr)
        (next_rest separator stops ends m s hs) same
      obtain ⟨others, remaining⟩ := ih m r s hr hs behind
      exact ⟨by rw [first, others], remaining⟩

include stops ends in
theorem list (item : Legible f p) (apart : ∀ a r, ¬q (f a ++ r)) :
    Legible (fun l : List α => [separator].intercalate (l.map f)) q := by
  intro l m r s hr hs same
  cases l with
  | nil =>
    cases m with
    | nil => exact ⟨rfl, by simpa using same⟩
    | cons b m =>
      simp only [List.map_nil, List.map_cons, intercalate_nil, intercalate_cons, List.nil_append,
        List.append_assoc] at same
      exact absurd (same ▸ hr : q (f b ++ _)) (apart b _)
  | cons a l =>
    cases m with
    | nil =>
      simp only [List.map_nil, List.map_cons, intercalate_nil, intercalate_cons, List.nil_append,
        List.append_assoc] at same
      exact absurd (same ▸ hs : q (f a ++ _)) (apart a _)
    | cons b m =>
      simp only [List.map_cons, intercalate_cons, List.append_assoc] at same
      obtain ⟨first, behind⟩ := item a b _ _ (next_rest separator stops ends l r hr)
        (next_rest separator stops ends m s hs) same
      obtain ⟨others, remaining⟩ := item.rest separator stops ends l m r s hr hs behind
      exact ⟨by rw [first, others], remaining⟩

end

end Legible

end NoriShell.Collections

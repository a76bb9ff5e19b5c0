import Mathlib
import NoriShell.Collections.BTreeMap

/-! Graph search with a worklist.  Both loops take fuel, and both are shown to
compute exactly the reachable nodes once the fuel covers the graph. -/

universe u v

namespace NoriShell.Collections.Worklist

variable {α : Type u}

def Edge (succ : α → List α) (a b : α) : Prop :=
  b ∈ succ a

/-- A node that some seed leads to along the edges. -/
def Reachable (succ : α → List α) (seeds : List α) (a : α) : Prop :=
  ∃ s ∈ seeds, Relation.ReflTransGen (Edge succ) s a

variable {seeds : List α} {succ : α → List α}

theorem Reachable.of_mem {a : α} (h : a ∈ seeds) : Reachable succ seeds a :=
  ⟨a, h, .refl⟩

theorem Reachable.step {succ : α → List α} {seeds : List α} {a b : α}
    (h : Reachable succ seeds a) (edge : b ∈ succ a) : Reachable succ seeds b := by
  obtain ⟨s, mem, path⟩ := h
  exact ⟨s, mem, path.tail edge⟩

theorem Reachable.trans {seeds' : List α} {a : α}
    (h : Reachable succ seeds a) (reach : ∀ s ∈ seeds, Reachable succ seeds' s) :
    Reachable succ seeds' a := by
  obtain ⟨s, mem, path⟩ := h
  obtain ⟨s', mem', path'⟩ := reach s mem
  exact ⟨s', mem', path'.trans path⟩

theorem Reachable.mono {seeds' : List α} {a : α}
    (h : Reachable succ seeds a) (sub : ∀ s ∈ seeds, s ∈ seeds') : Reachable succ seeds' a :=
  h.trans fun s mem => .of_mem (sub s mem)

/-- A set that holds the seeds and is closed under the edges holds what is reachable. -/
theorem Reachable.induction {P : α → Prop}
    (base : ∀ s ∈ seeds, P s) (closed : ∀ a, P a → ∀ b ∈ succ a, P b) {a : α}
    (h : Reachable succ seeds a) : P a := by
  obtain ⟨s, mem, path⟩ := h
  induction path with
  | refl => exact base s mem
  | tail _ edge ih => exact closed _ ih _ edge

section

variable [LinearOrder α] (succ : α → List α)

def pushNew (marked : BTreeSet α) : List α → BTreeSet α × List α
  | [] => (marked, [])
  | a :: l =>
    if a ∈ marked then pushNew marked l
    else
      let (marked, pushed) := pushNew (marked.insert a) l
      (marked, a :: pushed)

def expand : Nat → BTreeSet α → List α → BTreeSet α
  | 0, marked, _ => marked
  | _ + 1, marked, [] => marked
  | fuel + 1, marked, a :: queue =>
    let (marked, pushed) := pushNew marked (succ a)
    expand fuel marked (queue ++ pushed)

variable {a : α} {marked : BTreeSet α}

theorem mem_pushNew {l : List α} : a ∈ (pushNew marked l).1 ↔ a ∈ marked ∨ a ∈ l := by
  induction l generalizing marked with
  | nil => simp [pushNew]
  | cons b l ih =>
    unfold pushNew
    split
    · rw [ih, List.mem_cons]
      constructor
      · exact Or.imp_right Or.inr
      · rintro (h | rfl | h)
        · exact .inl h
        · exact .inl ‹_›
        · exact .inr h
    · simp only [ih, BTreeSet.mem_insert, List.mem_cons]
      tauto

theorem mem_pushed {l : List α} : a ∈ (pushNew marked l).2 ↔ a ∉ marked ∧ a ∈ l := by
  induction l generalizing marked with
  | nil => simp [pushNew]
  | cons b l ih =>
    unfold pushNew
    split
    · next mem =>
      rw [ih, List.mem_cons]
      constructor
      · exact And.imp_right Or.inr
      · rintro ⟨new, rfl | h⟩
        · exact absurd mem new
        · exact ⟨new, h⟩
    · next new =>
      simp only [List.mem_cons, ih, BTreeSet.mem_insert, not_or]
      constructor
      · rintro (rfl | ⟨⟨-, new'⟩, h⟩)
        · exact ⟨new, .inl rfl⟩
        · exact ⟨new', .inr h⟩
      · rintro ⟨new', rfl | h⟩
        · exact .inl rfl
        · by_cases eq : a = b
          · exact .inl eq
          · exact .inr ⟨⟨eq, new'⟩, h⟩

theorem size_insert_of_notMem (h : a ∉ marked) : (marked.insert a).size = marked.size + 1 := by
  rw [BTreeSet.size_eq_of_perm (l := a :: marked.toList) (by simp [h, marked.toList_nodup])
    (by simp), List.length_cons, BTreeSet.length_toList]

theorem size_pushNew (marked : BTreeSet α) (l : List α) :
    (pushNew marked l).1.size = marked.size + (pushNew marked l).2.length := by
  induction l generalizing marked with
  | nil => rfl
  | cons b l ih =>
    unfold pushNew
    split
    · exact ih marked
    · next new =>
      simp only [ih, size_insert_of_notMem new, List.length_cons]
      omega

/-- What the queue loop keeps: the queue is marked, and marked nodes off the
queue have their successors marked. -/
structure QueueInv (marked : BTreeSet α) (queue : List α) : Prop where
  queued : ∀ a ∈ queue, a ∈ marked
  done : ∀ a ∈ marked, a ∉ queue → ∀ b ∈ succ a, b ∈ marked

theorem QueueInv.step {marked : BTreeSet α} {a : α} {queue : List α}
    (h : QueueInv succ marked (a :: queue)) :
    QueueInv succ (pushNew marked (succ a)).1 (queue ++ (pushNew marked (succ a)).2) where
  queued b hb := by
    rw [mem_pushNew]
    rcases List.mem_append.mp hb with hb | hb
    · exact .inl (h.queued b (List.mem_cons_of_mem _ hb))
    · exact .inr (mem_pushed.mp hb).2
  done b hb notMem c hc := by
    rw [List.mem_append, not_or, mem_pushed, not_and'] at notMem
    rw [mem_pushNew] at hb ⊢
    have marked : b ∈ marked := hb.elim id fun hb => not_not.mp (notMem.2 hb)
    by_cases eq : b = a
    · exact .inr (eq ▸ hc)
    · exact .inl (h.done b marked (by simp [eq, notMem.1]) c hc)

theorem expand_closed {nodes : List α} (closed : ∀ a ∈ nodes, ∀ b ∈ succ a, b ∈ nodes)
    {fuel : Nat} {queue : List α} (inv : QueueInv succ marked queue)
    (sub : ∀ a ∈ marked, a ∈ nodes)
    (enough : queue.length + (nodes.length - marked.size) ≤ fuel) :
    (∀ a ∈ marked, a ∈ expand succ fuel marked queue) ∧
      ∀ a ∈ expand succ fuel marked queue, ∀ b ∈ succ a, b ∈ expand succ fuel marked queue := by
  induction fuel generalizing marked queue with
  | zero =>
    have empty : queue = [] := List.length_eq_zero_iff.mp (by omega)
    subst empty
    exact ⟨fun a ha => ha, fun a ha => inv.done a ha (by simp)⟩
  | succ fuel ih =>
    cases queue with
    | nil => exact ⟨fun a ha => ha, fun a ha => inv.done a ha (by simp)⟩
    | cons a queue =>
      have next := inv.step succ
      have sub' : ∀ b ∈ (pushNew marked (succ a)).1, b ∈ nodes := by
        intro b hb
        rcases mem_pushNew.mp hb with hb | hb
        · exact sub b hb
        · exact closed a (sub a (inv.queued a List.mem_cons_self)) b hb
      have bound := BTreeSet.size_le_of_subset sub'
      have grown := size_pushNew marked (succ a)
      obtain ⟨kept, closed'⟩ := ih next sub' (by
        simp only [List.length_append, List.length_cons] at enough ⊢
        omega)
      exact ⟨fun b hb => kept b (mem_pushNew.mpr (.inl hb)), closed'⟩

theorem mem_of_mem_expand {P : α → Prop} (closed : ∀ a, P a → ∀ b ∈ succ a, P b) {fuel : Nat}
    {queue : List α} (base : ∀ a ∈ marked, P a) (queued : ∀ a ∈ queue, P a)
    (h : a ∈ expand succ fuel marked queue) : P a := by
  induction fuel generalizing marked queue with
  | zero => exact base a h
  | succ fuel ih =>
    cases queue with
    | nil => exact base a h
    | cons b queue =>
      have here := queued b List.mem_cons_self
      refine ih (fun c hc => ?_) (fun c hc => ?_) h
      · exact (mem_pushNew.mp hc).elim (base c) (closed b here c)
      · rcases List.mem_append.mp hc with hc | hc
        · exact queued c (List.mem_cons_of_mem _ hc)
        · exact closed b here c (mem_pushed.mp hc).2

/-- With fuel for every node of the graph, the queue loop marks the reachable nodes. -/
theorem mem_expand {nodes : List α} {seeds : BTreeSet α}
    (closed : ∀ a ∈ nodes, ∀ b ∈ succ a, b ∈ nodes) (sub : ∀ a ∈ seeds, a ∈ nodes)
    {fuel : Nat} (enough : nodes.length ≤ fuel) :
    a ∈ expand succ fuel seeds seeds.toList ↔ Reachable succ seeds.toList a := by
  have inv : QueueInv succ seeds seeds.toList :=
    ⟨fun a ha => BTreeSet.mem_toList.mp ha,
      fun a ha notMem => absurd (BTreeSet.mem_toList.mpr ha) notMem⟩
  have bound := BTreeSet.size_le_of_subset sub
  have covered : seeds.toList.length + (nodes.length - seeds.size) ≤ fuel := by
    rw [BTreeSet.length_toList]
    omega
  obtain ⟨kept, closed'⟩ := expand_closed succ closed inv sub covered
  constructor
  · exact mem_of_mem_expand succ (fun _ h _ edge => h.step edge)
      (fun a ha => .of_mem (BTreeSet.mem_toList.mpr ha)) (fun a ha => .of_mem ha)
  · exact Reachable.induction (fun s hs => kept s (BTreeSet.mem_toList.mp hs)) closed'

end

section

variable {ε : Type v} [LinearOrder α] (next : α → Except ε (List α))

def drain : Nat → BTreeSet α → List α → Except ε (BTreeSet α)
  | 0, marked, _ => .ok marked
  | _ + 1, marked, [] => .ok marked
  | fuel + 1, marked, a :: stack =>
    if a ∈ marked then drain fuel marked stack
    else
      match next a with
      | .error e => .error e
      | .ok pushed => drain fuel (marked.insert a) (pushed.reverse ++ stack)

variable (succ : α → List α)

/-- The pushes that the unmarked nodes can still cause. -/
def pendingWork (nodes : List α) (marked : BTreeSet α) : Nat :=
  ((nodes.filter fun a => a ∉ marked).map fun a => (succ a).length).sum

variable {nodes : List α}

theorem pendingWork_insert (nodup : nodes.Nodup) {marked : BTreeSet α} {a : α}
    (mem : a ∈ nodes) (new : a ∉ marked) :
    pendingWork succ nodes (marked.insert a) + (succ a).length = pendingWork succ nodes marked := by
  have perm : (nodes.filter fun b => b ∉ marked).Perm
      (a :: nodes.filter fun b => b ∉ marked.insert a) := by
    refine (List.perm_ext_iff_of_nodup (nodup.filter _) ?_).mpr fun b => ?_
    · exact List.nodup_cons.mpr ⟨by simp, nodup.filter _⟩
    · simp only [List.mem_filter, decide_not, Bool.not_eq_eq_eq_not, Bool.not_true,
        decide_eq_false_iff_not, BTreeSet.mem_insert, not_or, List.mem_cons]
      by_cases eq : b = a
      · subst eq
        simp [mem, new]
      · simp [eq]
  rw [pendingWork, pendingWork, (perm.map _).sum_eq, List.map_cons, List.sum_cons]
  omega

theorem drain_spec (nodup : nodes.Nodup) (found : ∀ a ∈ nodes, next a = .ok (succ a))
    (closed : ∀ a ∈ nodes, ∀ b ∈ succ a, b ∈ nodes) {fuel : Nat} {marked : BTreeSet α}
    {stack : List α} (sub : ∀ a ∈ stack, a ∈ nodes)
    (enough : stack.length + pendingWork succ nodes marked ≤ fuel) :
    ∃ s, drain next fuel marked stack = .ok s ∧ (∀ a ∈ marked, a ∈ s) ∧ (∀ a ∈ stack, a ∈ s) ∧
      (∀ a ∈ s, a ∈ marked ∨ Reachable succ stack a) ∧
      ∀ a ∈ s, a ∉ marked → ∀ b ∈ succ a, b ∈ s := by
  induction fuel generalizing marked stack with
  | zero =>
    have empty : stack = [] := List.length_eq_zero_iff.mp (by omega)
    subst empty
    exact ⟨marked, rfl, fun _ h => h, by simp, fun _ h => .inl h, fun _ h new => absurd h new⟩
  | succ fuel ih =>
    cases stack with
    | nil => exact ⟨marked, rfl, fun _ h => h, by simp, fun _ h => .inl h,
        fun _ h new => absurd h new⟩
    | cons a stack =>
      have mem := sub a List.mem_cons_self
      have sub' : ∀ b ∈ stack, b ∈ nodes := fun b hb => sub b (List.mem_cons_of_mem _ hb)
      rw [List.length_cons] at enough
      rw [drain]
      split
      · next seen =>
        have covered : stack.length + pendingWork succ nodes marked ≤ fuel := by omega
        obtain ⟨s, eq, kept, pushed, reach, done⟩ := ih sub' covered
        refine ⟨s, eq, kept, ?_, fun b hb => (reach b hb).imp_right fun r => ?_, done⟩
        · exact List.forall_mem_cons.mpr ⟨kept a seen, pushed⟩
        · exact r.mono fun c hc => List.mem_cons_of_mem _ hc
      · next new =>
        rw [found a mem]
        have work := pendingWork_insert succ nodup mem new
        have sub'' : ∀ b ∈ (succ a).reverse ++ stack, b ∈ nodes := by
          intro b hb
          rcases List.mem_append.mp hb with hb | hb
          · exact closed a mem b (List.mem_reverse.mp hb)
          · exact sub' b hb
        have covered : ((succ a).reverse ++ stack).length +
            pendingWork succ nodes (marked.insert a) ≤ fuel := by
          rw [List.length_append, List.length_reverse]
          omega
        obtain ⟨s, eq, kept, pushed, reach, done⟩ := ih sub'' covered
        have here := kept a (BTreeSet.mem_insert.mpr (.inl rfl))
        refine ⟨s, eq, fun b hb => kept b (BTreeSet.mem_insert.mpr (.inr hb)), ?_, ?_, ?_⟩
        · exact List.forall_mem_cons.mpr
            ⟨here, fun b hb => pushed b (List.mem_append.mpr (.inr hb))⟩
        · intro b hb
          rcases reach b hb with hb | r
          · rcases BTreeSet.mem_insert.mp hb with rfl | hb
            · exact .inr (.of_mem List.mem_cons_self)
            · exact .inl hb
          · refine .inr (r.trans fun c hc => ?_)
            rcases List.mem_append.mp hc with hc | hc
            · exact (Reachable.of_mem List.mem_cons_self).step (List.mem_reverse.mp hc)
            · exact .of_mem (List.mem_cons_of_mem _ hc)
        · intro b hb notMem c hc
          by_cases eq : b = a
          · exact pushed c (List.mem_append.mpr (.inl (List.mem_reverse.mpr (eq ▸ hc))))
          · exact done b hb (by simp [eq, notMem]) c hc

/-- With fuel for every push, the stack loop marks the reachable nodes. -/
theorem drain_eq_reachable {seeds : List α} (nodup : nodes.Nodup)
    (found : ∀ a ∈ nodes, next a = .ok (succ a))
    (closed : ∀ a ∈ nodes, ∀ b ∈ succ a, b ∈ nodes) (sub : ∀ a ∈ seeds, a ∈ nodes) {fuel : Nat}
    (enough : seeds.length + (nodes.map fun a => (succ a).length).sum ≤ fuel) :
    ∃ s, drain next fuel BTreeSet.empty seeds = .ok s ∧ ∀ a, a ∈ s ↔ Reachable succ seeds a := by
  have work : pendingWork succ nodes BTreeSet.empty = (nodes.map fun a => (succ a).length).sum := by
    simp [pendingWork]
  obtain ⟨s, eq, -, pushed, reach, done⟩ :=
    drain_spec next succ nodup found closed sub (work ▸ enough)
  refine ⟨s, eq, fun a => ⟨fun h => ?_, fun h => ?_⟩⟩
  · exact (reach a h).resolve_left (BTreeSet.notMem_empty a)
  · exact h.induction pushed fun b hb => done b hb (BTreeSet.notMem_empty b)

end

end NoriShell.Collections.Worklist

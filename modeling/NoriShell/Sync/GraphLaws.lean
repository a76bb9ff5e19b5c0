import NoriShell.Sync.Graph

namespace NoriShell.Sync

open Collections Collections.Worklist

namespace ConflictGraph

variable {n m : ObjectNode} {graph : ConflictGraph}

theorem mem_neighbours_addArc {left right : ObjectNode} :
    m ∈ (graph.addArc left right).neighbours n ↔ m ∈ graph.neighbours n ∨ n = left ∧ m = right := by
  unfold addArc neighbours
  rw [BTreeMap.get?_insert]
  by_cases eq : n = left
  · subst eq
    cases graph.get? n <;> simp [or_comm]
  · simp [eq]

theorem mem_neighbours_addEdge {left right : ObjectNode} :
    m ∈ (graph.addEdge left right).neighbours n ↔
      m ∈ graph.neighbours n ∨ (n, m) = (left, right) ∨ (m, n) = (left, right) := by
  rw [addEdge, mem_neighbours_addArc, mem_neighbours_addArc, Prod.mk.injEq, Prod.mk.injEq, or_assoc,
    and_comm (a := m = left)]

theorem mem_neighbours_addEdges {edges : List (ObjectNode × ObjectNode)} :
    m ∈ (graph.addEdges edges).neighbours n ↔
      m ∈ graph.neighbours n ∨ (n, m) ∈ edges ∨ (m, n) ∈ edges := by
  induction edges generalizing graph with
  | nil => simp [addEdges]
  | cons edge edges ih =>
    change m ∈ (addEdges (graph.addEdge edge.1 edge.2) edges).neighbours n ↔ _
    rw [ih, mem_neighbours_addEdge, List.mem_cons, List.mem_cons]
    tauto

theorem mem_keys_of_mem_neighbours (h : m ∈ graph.neighbours n) : n ∈ graph.keys := by
  rw [BTreeMap.mem_keys]
  cases found : graph.get? n with
  | none => simp [neighbours, found] at h
  | some s => exact ⟨s, rfl⟩

end ConflictGraph

def Linked (bundles : List PortableBundleV1) (n m : ObjectNode) : Prop :=
  ∃ b ∈ bundles, (n, m) ∈ b.edges ∨ (m, n) ∈ b.edges

variable {n m : ObjectNode} {bundles : List PortableBundleV1}

theorem Linked.symm (h : Linked bundles n m) : Linked bundles m n := by
  obtain ⟨b, mem, link⟩ := h
  exact ⟨b, mem, link.symm⟩

theorem mem_neighbours_foldl {graph : ConflictGraph} :
    m ∈ (bundles.foldl PortableBundleV1.addBundleEdges graph).neighbours n ↔
      m ∈ graph.neighbours n ∨ Linked bundles n m := by
  induction bundles generalizing graph with
  | nil => simp [Linked]
  | cons b bundles ih =>
    rw [List.foldl_cons, ih, PortableBundleV1.addBundleEdges, ConflictGraph.mem_neighbours_addEdges]
    simp only [Linked, List.mem_cons, exists_eq_or_imp, or_assoc]

theorem mem_neighbours_conflictGraph :
    m ∈ (conflictGraph bundles).neighbours n ↔ Linked bundles n m := by
  rw [conflictGraph, mem_neighbours_foldl]
  simp [ConflictGraph.neighbours]

theorem mem_expandConflictClosure
    {conflicts : BTreeSet ObjectNode} :
    n ∈ expandConflictClosure bundles conflicts ↔
      ∃ c ∈ conflicts, Relation.ReflTransGen (Linked bundles) c n := by
  have closed : ∀ a ∈ conflicts.toList ++ (conflictGraph bundles).keys,
      ∀ b ∈ (conflictGraph bundles).neighbours a,
        b ∈ conflicts.toList ++ (conflictGraph bundles).keys := by
    intro a _ b mem
    have back := mem_neighbours_conflictGraph.mpr (mem_neighbours_conflictGraph.mp mem).symm
    exact List.mem_append.mpr (.inr (ConflictGraph.mem_keys_of_mem_neighbours back))
  have edge : Edge (conflictGraph bundles).neighbours = Linked bundles := by
    funext a b
    exact propext mem_neighbours_conflictGraph
  rw [expandConflictClosure, mem_expand _ closed (by simp +contextual), Reachable, edge]
  · simp
  · simp

theorem subset_expandConflictClosure (bundles : List PortableBundleV1)
    {conflicts : BTreeSet ObjectNode} (h : n ∈ conflicts) :
    n ∈ expandConflictClosure bundles conflicts :=
  mem_expandConflictClosure.mpr ⟨n, h, .refl⟩

theorem expandConflictClosure_perm {bundles' : List PortableBundleV1}
    (perm : bundles.Perm bundles') (conflicts : BTreeSet ObjectNode) :
    expandConflictClosure bundles conflicts = expandConflictClosure bundles' conflicts := by
  have same : Linked bundles = Linked bundles' := by
    funext n m
    simp only [Linked, perm.mem_iff]
  ext n
  rw [mem_expandConflictClosure, mem_expandConflictClosure, same]

end NoriShell.Sync

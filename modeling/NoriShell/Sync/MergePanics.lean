import NoriShell.Sync.GraphLaws
import NoriShell.Sync.MergeSpec

/-! No panic of the merge is reachable: resolution either decides every conflict
for one of the two sides or reports what it left open. -/

namespace NoriShell.Sync

open Collections ThreeWay

theorem newestSide_ne_newest (loc remote : Option Int) (now : Int) :
    newestSide loc remote now ≠ some .newest := by
  unfold newestSide
  split
  · split_ifs <;> simp
  · simp

theorem memberSide_ne_newest (bundles : ThreeSides PortableBundleV1) (policies : MergePolicies)
    (now : Int) (member : ObjectNode) : memberSide bundles policies now member ≠ some .newest := by
  simp only [memberSide]
  split
  · exact newestSide_ne_newest _ _ _
  · next eq => simp [eq]
  · next eq => simp [eq]
  · simp

section

variable {side : ObjectNode → Option BundleConflictResolution}

theorem foldl_chooseStep {component : List ObjectNode}
    {acc : Option BundleConflictResolution × Bool}
    (h : (component.foldl (chooseStep side) acc).2 = true) :
    acc.2 = true ∧ (∀ s, acc.1 = some s → (component.foldl (chooseStep side) acc).1 = some s) ∧
      ∀ m ∈ component, ∃ s, side m = some s ∧
        (component.foldl (chooseStep side) acc).1 = some s := by
  induction component generalizing acc with
  | nil => exact ⟨h, fun _ eq => eq, by simp⟩
  | cons m component ih =>
    obtain ⟨consistent, kept, agreed⟩ := ih h
    simp only [chooseStep] at consistent kept
    split_ifs at consistent with disagree
    simp only [Bool.or_eq_true, not_or, Option.isNone_iff_eq_none, Option.any_eq_true,
      not_exists, not_and, decide_eq_true_eq, not_not] at disagree
    obtain ⟨s, eq⟩ := Option.ne_none_iff_exists'.mp disagree.1
    have final := kept s (by simp [eq])
    refine ⟨consistent, fun s' eq' => ?_, List.forall_mem_cons.mpr ⟨⟨s, eq, final⟩, agreed⟩⟩
    have same := disagree.2 s' eq'
    rw [eq] at same
    exact same ▸ final

theorem chooseComponent_consistent {component : List ObjectNode} (ne : component ≠ [])
    (h : (chooseComponent side component).2 = true) :
    ∃ s, (chooseComponent side component).1 = some s ∧ ∃ m ∈ component, side m = some s := by
  obtain ⟨-, -, agreed⟩ := foldl_chooseStep h
  obtain ⟨m, mem⟩ := List.exists_mem_of_ne_nil component ne
  obtain ⟨s, eq, final⟩ := agreed m mem
  exact ⟨s, final, m, mem, eq⟩

end

structure Decides (sides : ResolvedSides) (nodes : ObjectNode → Prop) : Prop where
  covered : ∀ n, nodes n → ∃ s, sides.get? n = some s
  proper : ∀ n s, sides.get? n = some s → s ≠ .newest

section

variable {bundles : ThreeSides PortableBundleV1} {policies : MergePolicies} {now : Int}
  {conflicts : BTreeSet ObjectNode}

theorem resolveToSide_decides {side : BundleConflictResolution} (proper : side ≠ .newest) :
    Decides (resolveToSide bundles conflicts side) (· ∈ conflicts) := by
  have lookup (n) : ∃ selected : BTreeSet ObjectNode, (n ∈ conflicts → n ∈ selected) ∧
      (resolveToSide bundles conflicts side).get? n =
        if n ∈ selected.toList then some side else none := by
    unfold resolveToSide
    split_ifs
    · exact ⟨conflicts, id, BTreeMap.get?_extend_const _ side .empty n⟩
    · exact ⟨_, subset_expandConflictClosure _, BTreeMap.get?_extend_const _ side .empty n⟩
  constructor
  · intro n mem
    obtain ⟨selected, sub, eq⟩ := lookup n
    exact ⟨side, by rw [eq, if_pos (BTreeSet.mem_toList.mpr (sub mem))]⟩
  · intro n s eq'
    obtain ⟨selected, -, eq⟩ := lookup n
    rw [eq] at eq'
    split_ifs at eq' with mem
    cases eq'
    exact proper

theorem resolveComponents_decides {fuel : Nat} {remaining : BTreeSet ObjectNode}
    {sides : ResolvedSides} {unresolved : Nat} (sub : ∀ n ∈ remaining, n ∈ conflicts)
    (decides : unresolved = 0 → Decides sides fun n => n ∈ conflicts ∧ n ∉ remaining)
    (enough : remaining.size ≤ fuel) :
    ∃ sides' unresolved', resolveComponents bundles policies now conflicts fuel remaining sides
        unresolved = .ok (sides', unresolved') ∧
      (unresolved' = 0 → Decides sides' (· ∈ conflicts)) := by
  induction fuel generalizing remaining sides unresolved with
  | zero =>
    have empty : ∀ n, n ∉ remaining := by
      intro n mem
      have none : remaining.toList = [] :=
        List.length_eq_zero_iff.mp (remaining.length_toList.trans (by omega))
      simpa [none] using BTreeSet.mem_toList.mpr mem
    refine ⟨sides, unresolved, rfl, fun zero => ?_⟩
    exact ⟨fun n mem => (decides zero).covered n ⟨mem, empty n⟩, (decides zero).proper⟩
  | succ fuel ih =>
    rw [resolveComponents]
    cases first : remaining.toList.head? with
    | none =>
      have empty : ∀ n, n ∉ remaining := by
        intro n mem
        simpa [List.head?_eq_none_iff.mp first] using BTreeSet.mem_toList.mpr mem
      refine ⟨sides, unresolved, rfl, fun zero => ?_⟩
      exact ⟨fun n mem => (decides zero).covered n ⟨mem, empty n⟩, (decides zero).proper⟩
    | some node =>
      have here : node ∈ remaining := BTreeSet.mem_toList.mp (List.mem_of_mem_head? first)
      generalize hc : (expandConflictClosure bundles.toList (.ofList [node])).toList.filter
        (fun x => decide (x ∈ conflicts)) = component
      have memComponent : node ∈ component := by
        rw [← hc]
        have inClosure : node ∈ expandConflictClosure bundles.toList (.ofList [node]) :=
          subset_expandConflictClosure bundles.toList (by simp)
        simpa [sub node here] using inClosure
      have sub' : ∀ n ∈ remaining.eraseAll component, n ∈ conflicts := by
        intro n mem
        exact sub n (BTreeSet.mem_eraseAll.mp mem).1
      have smaller : (remaining.eraseAll component).size ≤ fuel := by
        have lt := BTreeSet.size_lt_of_subset
          (fun n mem => (BTreeSet.mem_eraseAll.mp mem).1) here
          (fun mem => (BTreeSet.mem_eraseAll.mp mem).2 memComponent)
        omega
      simp only [hc]
      split_ifs with consistent
      · obtain ⟨side, chosen, m, -, eq⟩ := chooseComponent_consistent
          (List.ne_nil_of_mem memComponent) consistent
        rw [chosen]
        refine ih sub' (fun zero => ⟨?_, ?_⟩) smaller
        · rintro n ⟨mem, notMem⟩
          rw [BTreeMap.get?_extend_const]
          split_ifs with inComponent
          · exact ⟨side, rfl⟩
          · refine (decides zero).covered n ⟨mem, fun h => notMem ?_⟩
            exact BTreeSet.mem_eraseAll.mpr ⟨h, inComponent⟩
        · intro n s lookup
          rw [BTreeMap.get?_extend_const] at lookup
          split_ifs at lookup
          · cases lookup
            exact fun newest => memberSide_ne_newest bundles policies now m (newest ▸ eq)
          · exact (decides zero).proper n s lookup
      · refine ih sub' (fun zero => ?_) smaller
        have := List.length_pos_of_mem memComponent
        omega

theorem resolveConflicts_decides (bundles : ThreeSides PortableBundleV1)
    (conflicts : BTreeSet ObjectNode) (policies : MergePolicies) (now : Int) :
    ∃ sides unresolved, resolveConflicts bundles conflicts policies now =
        .ok (sides, unresolved) ∧ (unresolved = 0 → Decides sides (· ∈ conflicts)) := by
  have loop : ∃ sides unresolved, resolveComponents bundles policies now conflicts conflicts.size
      conflicts .empty 0 = .ok (sides, unresolved) ∧
      (unresolved = 0 → Decides sides (· ∈ conflicts)) :=
    resolveComponents_decides (fun _ mem => mem)
      (fun _ => ⟨fun n mem => absurd mem.1 mem.2, by simp⟩) le_rfl
  unfold resolveConflicts
  split_ifs with empty
  · refine ⟨_, _, rfl, fun _ => ⟨fun n mem => ?_, by simp⟩⟩
    simpa [empty] using BTreeSet.mem_toList.mpr mem
  · split
    · refine ⟨_, _, rfl, fun zero => absurd zero ?_⟩
      rw [← BTreeSet.length_toList, List.length_eq_zero_iff]
      exact empty
    · exact ⟨_, _, rfl, fun _ => resolveToSide_decides (by simp)⟩
    · exact ⟨_, _, rfl, fun _ => resolveToSide_decides (by simp)⟩
    · exact loop

end

namespace Mergeable

variable {bundles : ThreeSides PortableBundleV1}

theorem selectAt_ok (h : Mergeable bundles) {sides : ResolvedSides}
    (decides : Decides sides (· ∈ collectConflictNodes bundles)) (k : PortableObjectKind)
    (id : PortableObjectId) :
    ∃ a, selectAt k (bundles.map (·.items k)) (bundles.map tombstoneSet) k.valueId sides id =
      .ok a := by
  rw [h.selectAt_eq]
  cases resolved : sides.get? ⟨k, id⟩ with
  | none =>
    have free : mergedState bundles k id ≠ none := by
      intro conflict
      obtain ⟨s, eq⟩ := decides.covered ⟨k, id⟩ (h.mem_conflictNodes.mpr conflict)
      simp [resolved] at eq
    obtain ⟨m, eq⟩ := Option.ne_none_iff_exists'.mp free
    exact ⟨_, selectNode_ofState eq⟩
  | some side =>
    cases side with
    | keepLocal => exact ⟨_, rfl⟩
    | useRemote => exact ⟨_, rfl⟩
    | newest => exact absurd rfl (decides.proper _ _ resolved)

theorem mergeKinds_ok (h : Mergeable bundles) {sides : ResolvedSides}
    (decides : Decides sides (· ∈ collectConflictNodes bundles)) :
    ∃ output, mergeKinds bundles sides = .ok output := by
  choose a eq using h.selectAt_ok decides
  obtain ⟨output, run, -⟩ := mergeKinds_eq fun k => mergeValues_eq (eq k)
  exact ⟨output, run⟩

theorem mergePreferences_ok (h : Mergeable bundles)
    (resolution : Option BundleConflictResolution) (now : Int) :
    ∃ preferences, mergePreferences bundles resolution now = .ok preferences := by
  rcases mergePreferences_cases h.loc h.remote resolution now with ⟨-, run⟩ | ⟨_, _, _, -, -, run, -⟩
  · exact ⟨_, run⟩
  · exact ⟨_, run⟩

end Mergeable

/-- No input makes the merge panic. -/
theorem merge_never_panics (bundles : ThreeSides PortableBundleV1) (revision : Nat)
    (policies : MergePolicies) (now : Int) :
    ∃ result, mergeBundlesThreeWayWithPolicies bundles revision policies now = .ok result := by
  unfold mergeBundlesThreeWayWithPolicies
  cases gate : mergeGate bundles with
  | error e => exact ⟨_, rfl⟩
  | ok =>
    have h := mergeGate_eq_ok.mp gate
    obtain ⟨sides, unresolved, resolved, decides⟩ :=
      resolveConflicts_decides bundles (collectConflictNodes bundles) policies now
    have carried : ∃ preferences,
        mergeCarriedPreferences bundles policies.conflict now = .ok preferences := by
      unfold mergeCarriedPreferences
      split_ifs
      · exact ⟨_, rfl⟩
      · exact h.mergePreferences_ok policies.conflict now
    obtain ⟨preferences, carried⟩ := carried
    simp only [mergeGated, resolved, carried, bind, Except.bind, mergeResolved]
    split_ifs with conflicts
    · exact ⟨_, rfl⟩
    · obtain ⟨output, run⟩ := h.mergeKinds_ok (decides (by omega))
      exact ⟨_, by rw [run]; rfl⟩

end NoriShell.Sync

import NoriShell.Collections.SortByKey
import NoriShell.Sync.MergeTimes

namespace NoriShell.Sync

open Collections ThreeWay

theorem PortableBundleV1.Valid.retimed {b : PortableBundleV1} (h : b.Valid)
    (v6 : b.schema = .v6) {revision : Nat} (positive : 0 < revision)
    {times : List PortableItemUpdateTime}
    (proper : ∀ t ∈ times, 0 < t.updateTimeUnixMs ∧ t.node ∈ b.allNodes)
    (unique : (times.map PortableItemUpdateTime.node).Nodup) :
    { b with revision := revision, updateTimes := times }.Valid := by
  have few : times.length ≤ 12 * maxObjectsPerKind :=
    (length_times_le (fun t mem => (proper t mem).2) unique).trans
      (length_allNodes_le h.itemCount h.tombstoneCount)
  exact {
    scope selected eq :=
      let inner := h.scope selected eq
      ⟨inner.schema, inner.nonempty, inner.bounded, inner.sorted, inner.nodes, inner.skipped⟩
    revision := positive.ne'
    skippedCount := h.skippedCount
    tombstoneCount := h.tombstoneCount
    itemCount := h.itemCount
    tombstoneSchema := h.tombstoneSchema
    modeSchema := h.modeSchema
    desktopSchema := h.desktopSchema
    desktopTombstoneSchema := h.desktopTombstoneSchema
    preferences := h.preferences
    values := h.values
    timeSchema old := by simp [v6, BundleSchema.supportsUpdateTimes] at old
    timeCount := few
    timePositive t mem := (proper t mem).1
    timePresent t mem := (proper t mem).2
    timeUnique := unique
    preferenceTimes := h.preferenceTimes
    idsProper := h.idsProper
    idsUnique := h.idsUnique
    secretsSelected := h.secretsSelected
    references := h.references }

theorem PortableBundleV1.ScopeValid.eq_all {b : PortableBundleV1}
    {selected : List PortableDataCategory} (h : b.ScopeValid selected)
    (three : selected.length = 3) : selected = PortableDataCategory.all := by
  have nodup : selected.Nodup := h.sorted.imp ne_of_lt
  have sub : selected ⊆ PortableDataCategory.all := fun category _ => by cases category <;> decide
  have perm : selected.Perm PortableDataCategory.all :=
    (nodup.subperm sub).perm_of_length_le (by rw [three]; decide)
  exact eq_of_sorted_of_mem (show selected.Pairwise fun a b => id a < id b from h.sorted)
    (by decide) fun _ => perm.mem_iff

/-- Listing all three categories and giving no list mean the same scope. -/
theorem normalizedScope_mergedBundle {bundles : ThreeSides PortableBundleV1}
    (h : bundles.base.Valid) (v6 : allV6 bundles) (revision : Nat)
    (preferences : Option PortablePreferencesV1) (output : MergeOutput) :
    normalizedScope (mergedBundle bundles revision preferences output) =
      normalizedScope bundles.base := by
  change (if allV6 bundles ∧ (normalizedScope bundles.base).length ≠ 3 then
    some (normalizedScope bundles.base) else none).getD PortableDataCategory.all = _
  by_cases three : (normalizedScope bundles.base).length = 3
  · have all : normalizedScope bundles.base = PortableDataCategory.all := by
      unfold normalizedScope at three ⊢
      cases selected : bundles.base.selectedCategories with
      | none => rfl
      | some categories =>
        rw [selected] at three
        exact (h.scope categories selected).eq_all three
    rw [if_neg fun short => short.2 three, all]
    rfl
  · rw [if_pos ⟨v6, three⟩]
    rfl

namespace Mergeable

variable {bundles again : ThreeSides PortableBundleV1} {revision : Nat} {now : Int}
  {m : PortableBundleV1}

theorem merge_eq_merged (h : Mergeable bundles) (v6 : allV6 bundles) :
    mergeBundlesThreeWayWithPolicies bundles revision ⟨none, none⟩ now = .ok (.ok (.merged m)) ↔
      (∀ k id, mergedState bundles k id ≠ none) ∧
      ∃ output, mergeKinds bundles .empty = .ok output ∧
        mergedBundle bundles revision none output = m ∧ m.Valid ∧
        m.validateReverseReachability = .ok () := by
  obtain ⟨preferences, dropped, run⟩ := h.mergeGated_none revision now
  have count : conflictCount bundles = nodeConflictCount bundles := by
    simp [conflictCount, v6]
  rw [h.merge_eq_gated, run, count, ← h.nodeConflictCount_eq_zero, dropped v6]
  by_cases free : nodeConflictCount bundles = 0
  · obtain ⟨output, passes, -⟩ := h.mergeKinds_states (h.nodeConflictCount_eq_zero.mp free)
    simp only [free, lt_irrefl, if_false, passes, Except.map, Except.ok.injEq, true_and,
      mergeFinish_none_eq_merged, exists_eq_left']
    constructor
    · rintro ⟨rfl, valid, reachable⟩
      exact ⟨rfl, valid, reachable⟩
    · rintro ⟨rfl, valid, reachable⟩
      exact ⟨rfl, valid, reachable⟩
  · simp [free, Nat.pos_of_ne_zero free]

theorem mergeKinds_congr (h : Mergeable bundles) (h' : Mergeable again)
    (free : ∀ k id, mergedState bundles k id ≠ none)
    (same : ∀ k id, mergedState again k id = mergedState bundles k id) :
    mergeKinds again .empty = mergeKinds bundles .empty := by
  obtain ⟨output, run, items, tombstones, sorted⟩ := h.mergeKinds_states free
  obtain ⟨output', run', items', tombstones', sorted'⟩ :=
    h'.mergeKinds_states fun k id => same k id ▸ free k id
  obtain ⟨values, dead⟩ := output
  obtain ⟨values', dead'⟩ := output'
  have valuesEq : values' = values := by
    funext k
    refine eq_of_sorted_of_mem (sorted' k) (sorted k) fun v => ?_
    rw [items', items, same]
  have deadEq : dead' = dead := by
    ext n
    rw [tombstones', tombstones, same]
  rw [run, run', valuesEq, deadEq]

theorem merge_again (h : Mergeable bundles) (v6 : allV6 bundles)
    (merged : mergeBundlesThreeWayWithPolicies bundles revision ⟨none, none⟩ now =
      .ok (.ok (.merged m)))
    (h' : Mergeable again) (v6' : allV6 again)
    (scope : normalizedScope again.base = normalizedScope bundles.base)
    (skipped : again.loc.skippedMachineBound = m.skippedMachineBound)
    (same : ∀ k id, mergedState again k id = mergedState bundles k id)
    {revision' : Nat} (positive : 0 < revision') (now' : Int) :
    ∃ times, mergeBundlesThreeWayWithPolicies again revision' ⟨none, none⟩ now' =
      .ok (.ok (.merged { m with revision := revision', updateTimes := times })) := by
  obtain ⟨free, output, passes, rfl, valid, reachable⟩ := (h.merge_eq_merged v6).mp merged
  have retimed : mergedBundle again revision' none output =
      { mergedBundle bundles revision none output with
        revision := revision'
        updateTimes := (mergedBundle again revision' none output).updateTimes } := by
    simp only [mergedBundle, v6, v6', scope, skipped, mergePreferenceTimes]
  have live (k) (v) (mem : v ∈ output.items k) :
      k.node v ∈ (mergedBundle bundles revision none output).allNodes := by
    have here : v ∈ (mergedBundle bundles revision none output).items k := by simpa using mem
    exact List.mem_append.mpr (.inl (PortableBundleV1.mem_liveNodes.mpr ⟨v, here, rfl⟩))
  have dead (t) (mem : t ∈ (mergedBundle bundles revision none output).tombstones) :
      t.node ∈ (mergedBundle bundles revision none output).allNodes :=
    List.mem_append.mpr (.inr (List.mem_map_of_mem mem))
  obtain ⟨proper, unique⟩ := mergeUpdateTimes_times h' live dead
  refine ⟨_, (h'.merge_eq_merged v6').mpr ⟨fun k id => same k id ▸ free k id, output,
    (h.mergeKinds_congr h' free same).trans passes, retimed, ?_, reachable⟩⟩
  exact valid.retimed (by simp [mergedBundle, v6]) positive proper unique

end Mergeable

/-- A finished merge is stable: merged again over its base, over the remote
bundle or over itself it gives the same objects, secrets and tombstones. -/
theorem merge_stable {bundles : ThreeSides PortableBundleV1} (h : Mergeable bundles)
    (v6 : ∀ b ∈ bundles.toList, b.schema = .v6) {revision : Nat} {now : Int}
    {m : PortableBundleV1}
    (merged : mergeBundlesThreeWayWithPolicies bundles revision ⟨none, none⟩ now =
      .ok (.ok (.merged m)))
    {revision' : Nat} (positive : 0 < revision') (now' : Int) {again : ThreeSides PortableBundleV1}
    (mem : again ∈ [⟨bundles.base, m, bundles.remote⟩, ⟨bundles.remote, m, bundles.remote⟩,
      ⟨m, m, m⟩]) :
    ∃ m', mergeBundlesThreeWayWithPolicies again revision' ⟨none, none⟩ now' =
        .ok (.ok (.merged m')) ∧
      m'.objects = m.objects ∧ m'.secrets = m.secrets ∧ m'.tombstones = m.tombstones := by
  have all := allV6_iff.mpr v6
  obtain ⟨free, output, passes, result, valid, -⟩ := (h.merge_eq_merged all).mp merged
  have state (k) (id) : mergedState bundles k id = some (m.nodeState k id) := by
    subst result
    exact h.nodeState_mergedBundle free passes valid k id
  have schema : m.schema = .v6 := by
    subst result
    simp [mergedBundle, all]
  have scope : normalizedScope m = normalizedScope bundles.base := by
    subst result
    exact normalizedScope_mergedBundle h.base all ..
  have known : ∀ b ∈ m :: bundles.toList,
      b.Valid ∧ b.schema = .v6 ∧ normalizedScope b = normalizedScope bundles.base := by
    intro b mem
    rcases List.mem_cons.mp mem with rfl | mem
    · exact ⟨valid, schema, scope⟩
    · exact ⟨h.valid_of_mem mem, v6 b mem, h.scopes v6 b mem⟩
  have sides : again.loc = m ∧ (∀ b ∈ again.toList, b ∈ m :: bundles.toList) ∧
      ∀ k id, mergedState again k id = some (m.nodeState k id) := by
    simp only [List.mem_cons, List.not_mem_nil, or_false] at mem
    rcases mem with rfl | rfl | rfl
    · exact ⟨rfl, by simp [ThreeSides.toList], fun k id => State.merge_base_stable (state k id)⟩
    · exact ⟨rfl, by simp [ThreeSides.toList], fun k id => State.merge_remote_stable (state k id)⟩
    · exact ⟨rfl, by simp [ThreeSides.toList], fun k id => State.merge_same _⟩
  obtain ⟨own, sub, same⟩ := sides
  have facts (b) (mem : b ∈ again.toList) := known b (sub b mem)
  have base := facts again.base (by simp [ThreeSides.toList])
  have ready : Mergeable again := {
    base := base.1
    loc := (facts again.loc (by simp [ThreeSides.toList])).1
    remote := (facts again.remote (by simp [ThreeSides.toList])).1
    schemas := .inr fun b mem => (facts b mem).2.1
    scopes _ b mem := (facts b mem).2.2.trans base.2.2.symm }
  obtain ⟨times, run⟩ := h.merge_again all merged ready
    (allV6_iff.mpr fun b mem => (facts b mem).2.1) base.2.2 (by rw [own])
    (fun k id => (same k id).trans (state k id).symm) positive now'
  exact ⟨_, run, rfl, rfl, rfl⟩

theorem merge_stable_relabelled :
    mergeBundlesThreeWayWithPolicies relabelledIdentity 2 ⟨none, none⟩ 0 =
        .ok (.ok (.merged { relabelledIdentity.loc with revision := 2 })) ∧
      ∃ m', mergeBundlesThreeWayWithPolicies
          ⟨relabelledIdentity.remote, { relabelledIdentity.loc with revision := 2 },
            relabelledIdentity.remote⟩ 3 ⟨none, none⟩ 0 = .ok (.ok (.merged m')) ∧
        m'.objects = relabelledIdentity.loc.objects ∧ m'.secrets = [] ∧ m'.tombstones = [] :=
  have merged : mergeBundlesThreeWayWithPolicies relabelledIdentity 2 ⟨none, none⟩ 0 =
      .ok (.ok (.merged { relabelledIdentity.loc with revision := 2 })) := by
    decide +kernel
  ⟨merged, merge_stable (mergeGate_eq_ok.mp (by decide +kernel)) (by decide) merged (by decide) 0
    (List.mem_cons_of_mem _ List.mem_cons_self)⟩

/-- Devices converge: whichever side of a finished merge one still holds, when it merges the
published result over the old base or over its own bundle, it gets the objects of the result. -/
theorem merge_converges {bundles : ThreeSides PortableBundleV1} (h : Mergeable bundles)
    (v6 : ∀ b ∈ bundles.toList, b.schema = .v6) {revision revision' : Nat} {now now' : Int}
    {m side base : PortableBundleV1} (positive : 0 < revision')
    (merged : mergeBundlesThreeWayWithPolicies bundles revision ⟨none, none⟩ now =
      .ok (.ok (.merged m)))
    (held : side = bundles.loc ∨ side = bundles.remote) (known : base = bundles.base ∨ base = side)
    (skipped : side.skippedMachineBound = bundles.loc.skippedMachineBound) :
    ∃ times, mergeBundlesThreeWayWithPolicies ⟨base, side, m⟩ revision' ⟨none, none⟩ now' =
      .ok (.ok (.merged { m with revision := revision', updateTimes := times })) := by
  have all := allV6_iff.mpr v6
  obtain ⟨free, output, passes, result, valid, -⟩ := (h.merge_eq_merged all).mp merged
  have sideMem : side ∈ bundles.toList := by rcases held with rfl | rfl <;> simp [ThreeSides.toList]
  have baseMem : base ∈ bundles.toList := by
    rcases known with rfl | rfl
    · simp [ThreeSides.toList]
    · exact sideMem
  have now6 : ∀ b ∈ (ThreeSides.mk base side m).toList, b.schema = .v6 := by
    simp [ThreeSides.toList, v6 base baseMem, v6 side sideMem, ← result, mergedBundle, all]
  have scope : ∀ b ∈ (ThreeSides.mk base side m).toList,
      normalizedScope b = normalizedScope bundles.base := by
    simp [ThreeSides.toList, h.scopes v6 base baseMem, h.scopes v6 side sideMem, ← result,
      normalizedScope_mergedBundle h.base all]
  have ready : Mergeable ⟨base, side, m⟩ :=
    ⟨h.valid_of_mem baseMem, h.valid_of_mem sideMem, valid, .inr now6, fun _ b mem =>
      (scope b mem).trans (scope base (by simp [ThreeSides.toList])).symm⟩
  have state (k id) : mergedState bundles k id = some (m.nodeState k id) := by
    subst result
    exact h.nodeState_mergedBundle free passes valid k id
  refine h.merge_again all merged ready (allV6_iff.mpr now6)
    (scope base (by simp [ThreeSides.toList])) ?_ (fun k id => ?_) positive now'
  · rw [skipped, ← result]
    rfl
  · rw [state]
    refine (State.merge_comm ..).trans ?_
    have merges : State.merge (bundles.base.nodeState k id) (bundles.remote.nodeState k id)
        (bundles.loc.nodeState k id) = _ := (State.merge_comm ..).trans (state k id)
    rcases held with rfl | rfl <;> rcases known with rfl | rfl
    · exact State.merge_base_stable merges
    · exact State.merge_remote_stable merges
    · exact State.merge_base_stable (state k id)
    · exact State.merge_remote_stable (state k id)

theorem merge_converges_relabelled :
    ∃ times, mergeBundlesThreeWayWithPolicies ⟨relabelledIdentity.remote, relabelledIdentity.remote,
        { relabelledIdentity.loc with revision := 2 }⟩ 3 ⟨none, none⟩ 0 =
      .ok (.ok (.merged { relabelledIdentity.loc with revision := 3, updateTimes := times })) :=
  merge_converges (mergeGate_eq_ok.mp (by decide +kernel)) (by decide) (by decide)
    (show mergeBundlesThreeWayWithPolicies relabelledIdentity 2 ⟨none, none⟩ 0 = _ by
      decide +kernel) (.inr rfl) (.inr rfl) rfl

end NoriShell.Sync

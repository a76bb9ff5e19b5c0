import NoriShell.Sync.PreferenceLaws

/-! The merge without policies, node by node. -/

namespace NoriShell.Sync

open Collections ThreeWay

namespace Mergeable

variable {bundles : ThreeSides PortableBundleV1}

theorem live_of_mergedState (h : Mergeable bundles) {k : PortableObjectKind}
    {id : PortableObjectId} {v : k.Value} (eq : mergedState bundles k id = some (.live v)) :
    k.valueId v = id ∧ ∃ b ∈ bundles.toList, v ∈ b.items k := by
  have here : ∃ b ∈ bundles.toList, b.nodeState k id = .live v := by
    simp only [ThreeSides.toList, List.mem_cons, List.not_mem_nil, or_false, exists_eq_or_imp,
      exists_eq_left]
    exact (State.merge_cases eq).imp Eq.symm (Or.imp Eq.symm Eq.symm)
  obtain ⟨b, mem, state⟩ := here
  obtain ⟨hv, id⟩ := (PortableBundleV1.nodeState_eq_live (h.valid_of_mem mem)).mp state
  exact ⟨id, b, mem, hv⟩

theorem known_of_mergedState (h : Mergeable bundles) {k : PortableObjectKind}
    {id : PortableObjectId} {s : State k.Value} (eq : mergedState bundles k id = some s)
    (ne : s ≠ .absent) :
    id ∈ nodeIds k ((bundles.map (·.items k)).map (valueMap · k.valueId))
      (bundles.map tombstoneSet) := by
  rw [h.mem_nodeIds_iff]
  simp only [ThreeSides.toList, List.mem_cons, List.not_mem_nil, or_false, exists_eq_or_imp,
    exists_eq_left]
  rcases State.merge_cases eq with rfl | rfl | rfl
  · exact .inl ne
  · exact .inr (.inl ne)
  · exact .inr (.inr ne)

theorem mergeKinds_states (h : Mergeable bundles) (free : ∀ k id, mergedState bundles k id ≠ none) :
    ∃ output, mergeKinds bundles .empty = .ok output ∧
      (∀ k v, v ∈ output.items k ↔ mergedState bundles k (k.valueId v) = some (.live v)) ∧
      (∀ n, n ∈ output.tombstones ↔ mergedState bundles n.kind n.id = some .dead) ∧
      ∀ k, (output.items k).Pairwise fun v w => k.valueId v < k.valueId w := by
  choose state eq using fun k id => Option.ne_none_iff_exists'.mp (free k id)
  have select (k id) : selectAt k (bundles.map (·.items k)) (bundles.map tombstoneSet) k.valueId
      .empty id = .ok (Applied.ofState (state k id)) := by
    rw [h.selectAt_eq, BTreeMap.get?_empty, selectNode_ofState (eq k id)]
  obtain ⟨output, run, items, tombstones⟩ := mergeKinds_eq fun k => mergeValues_eq (select k)
  have mem (k) (v : k.Value) :
      v ∈ output.items k ↔ mergedState bundles k (k.valueId v) = some (.live v) := by
    simp only [items, List.mem_filterMap, BTreeSet.mem_toList, Applied.value_ofState]
    constructor
    · rintro ⟨id, -, live⟩
      have live := (eq k id).trans (congrArg some live)
      rwa [(h.live_of_mergedState live).1]
    · intro live
      exact ⟨_, h.known_of_mergedState live (by simp), Option.some.inj ((eq k _).symm.trans live)⟩
  have revived (k id) : id ∈ (output.items k).map k.valueId ↔
      ∃ v, mergedState bundles k id = some (.live v) := by
    simp only [List.mem_map, mem]
    constructor
    · rintro ⟨v, live, rfl⟩
      exact ⟨v, live⟩
    · rintro ⟨v, live⟩
      have same := (h.live_of_mergedState live).1
      exact ⟨v, by rwa [same], same⟩
  refine ⟨output, run, mem, fun n => ?_, fun k => ?_⟩
  · obtain ⟨k, id⟩ := n
    rw [tombstones, revived]
    simp only [List.mem_filter, BTreeSet.mem_toList, Applied.deleted_ofState,
      ← PortableBundleV1.nodeState_eq_dead h.base, eq, Option.some.injEq]
    constructor
    · rintro ⟨dead | ⟨-, dead⟩, notLive⟩
      · cases merged : state k id with
        | live v => exact absurd ⟨v, merged⟩ notLive
        | dead => rfl
        | absent =>
          have absent := eq k id
          rw [merged, mergedState, dead] at absent
          exact absurd absent (State.merge_dead_ne_absent _ _)
      · exact dead
    · intro dead
      have known := h.known_of_mergedState (eq k id) (by simp [dead])
      exact ⟨.inr ⟨known, dead⟩, by simp [dead]⟩
  · simp only [items]
    rw [List.pairwise_filterMap]
    refine (BTreeSet.toList_sorted _).imp fun {i j} lt v hv w hw => ?_
    have hv := (eq k i).trans (congrArg some (Applied.value_ofState.mp hv))
    have hw := (eq k j).trans (congrArg some (Applied.value_ofState.mp hw))
    rwa [(h.live_of_mergedState hv).1, (h.live_of_mergedState hw).1]

end Mergeable

def NodeConflict (bundles : ThreeSides PortableBundleV1) (n : ObjectNode) : Prop :=
  (bundles.base.nodeState n.kind n.id).Changed (bundles.loc.nodeState n.kind n.id) ∧
    (bundles.base.nodeState n.kind n.id).Changed (bundles.remote.nodeState n.kind n.id) ∧
    bundles.loc.nodeState n.kind n.id ≠ bundles.remote.nodeState n.kind n.id

def PortableBundleV1.preferenceValue (b : PortableBundleV1) (group : String) : Option JsonValue :=
  b.preferences.bind fun p => p.groups.get? group

/-- Both sides have the group, with values that differ from each other and from the base. -/
def PreferenceConflict (bundles : ThreeSides PortableBundleV1) (group : String) : Prop :=
  ∃ locValue remoteValue, bundles.loc.preferenceValue group = some locValue ∧
    bundles.remote.preferenceValue group = some remoteValue ∧ locValue ≠ remoteValue ∧
    bundles.base.preferenceValue group ≠ some locValue ∧
    bundles.base.preferenceValue group ≠ some remoteValue

noncomputable def nodeConflictCount (bundles : ThreeSides PortableBundleV1) : Nat :=
  {n | NodeConflict bundles n}.ncard

noncomputable def preferenceConflictCount (bundles : ThreeSides PortableBundleV1) : Nat :=
  {group | PreferenceConflict bundles group}.ncard

theorem ncard_eq_length {α : Type} {s : Set α} {l : List α} (nodup : l.Nodup)
    (h : ∀ a, a ∈ s ↔ a ∈ l) : s.ncard = l.length := by
  classical
  have eq : s = (l.toFinset : Set α) := by
    ext a
    simp [h]
  rw [eq, Set.ncard_coe_finset, List.toFinset_card_of_nodup nodup]

theorem length_liveNodes_le {b : PortableBundleV1}
    (counts : ∀ k, (b.items k).length ≤ maxObjectsPerKind) :
    b.liveNodes.length ≤ 11 * maxObjectsPerKind := by
  rw [PortableBundleV1.liveNodes, List.length_flatMap]
  refine (List.sum_le_card_nsmul _ maxObjectsPerKind ?_).trans (by simp [PortableObjectKind.all])
  intro n hn
  obtain ⟨k, -, rfl⟩ := List.mem_map.mp hn
  rw [List.length_map]
  exact counts k

theorem length_allNodes_le {b : PortableBundleV1}
    (counts : ∀ k, (b.items k).length ≤ maxObjectsPerKind)
    (dead : b.tombstones.length ≤ maxObjectsPerKind) :
    b.allNodes.length ≤ 12 * maxObjectsPerKind := by
  have live := length_liveNodes_le counts
  rw [PortableBundleV1.allNodes, List.length_append, PortableBundleV1.tombstoneNodes,
    List.length_map]
  omega

namespace Mergeable

variable {bundles : ThreeSides PortableBundleV1}

theorem mem_conflictNodes_iff (h : Mergeable bundles) {n : ObjectNode} :
    n ∈ collectConflictNodes bundles ↔ NodeConflict bundles n := by
  rw [h.mem_conflictNodes, mergedState, State.merge_eq_none]
  rfl

theorem size_conflictNodes (h : Mergeable bundles) :
    (collectConflictNodes bundles).size = nodeConflictCount bundles := by
  rw [nodeConflictCount, ncard_eq_length (collectConflictNodes bundles).toList_nodup,
    BTreeSet.length_toList]
  intro n
  rw [BTreeSet.mem_toList, h.mem_conflictNodes_iff]
  rfl

theorem nodeConflictCount_le (h : Mergeable bundles) :
    nodeConflictCount bundles ≤ 36 * maxObjectsPerKind := by
  rw [← h.size_conflictNodes]
  have sub : ∀ n ∈ collectConflictNodes bundles,
      n ∈ bundles.base.allNodes ++ bundles.loc.allNodes ++ bundles.remote.allNodes := by
    intro n mem
    by_contra notMem
    simp only [List.mem_append, not_or] at notMem
    obtain ⟨⟨base, loc⟩, remote⟩ := notMem
    rw [h.mem_conflictNodes, mergedState, PortableBundleV1.nodeState_eq_absent.mpr base,
      PortableBundleV1.nodeState_eq_absent.mpr loc,
      PortableBundleV1.nodeState_eq_absent.mpr remote, State.merge_same] at mem
    simp at mem
  refine (BTreeSet.size_le_of_subset sub).trans ?_
  have base := length_allNodes_le h.base.itemCount h.base.tombstoneCount
  have loc := length_allNodes_le h.loc.itemCount h.loc.tombstoneCount
  have remote := length_allNodes_le h.remote.itemCount h.remote.tombstoneCount
  simp only [List.length_append]
  omega

theorem nodeConflictCount_eq_zero (h : Mergeable bundles) :
    nodeConflictCount bundles = 0 ↔ ∀ k id, mergedState bundles k id ≠ none := by
  rw [← h.size_conflictNodes, ← BTreeSet.length_toList, List.length_eq_zero_iff,
    List.eq_nil_iff_forall_not_mem]
  simp only [BTreeSet.mem_toList, h.mem_conflictNodes]
  exact ⟨fun free k id => free ⟨k, id⟩, fun free n => free n.kind n.id⟩

theorem mem_conflictGroups {loc remote : PortablePreferencesV1} {now : Int} {group : String}
    (hloc : bundles.loc.preferences = some loc)
    (hremote : bundles.remote.preferences = some remote) :
    group ∈ conflictGroups bundles none now loc remote ↔ PreferenceConflict bundles group := by
  simp only [conflictGroups, List.mem_filter, PreferenceConflict,
    PortableBundleV1.preferenceValue, hloc, hremote, Option.bind_some, groupChoice,
    BTreeMap.mem_keys]
  cases here : loc.groups.get? group with
  | none => simp
  | some locValue =>
    cases there : remote.groups.get? group with
    | none => simp
    | some remoteValue =>
      have base : (bundles.base.preferences.bind fun p => p.groups.get? group) =
          bundles.base.preferenceValue group := rfl
      simp only [mergePreferenceGroup, base]
      split_ifs with h1 h2
      · simp only [Option.any_some, Bool.false_eq_true, and_false, Option.some.injEq, false_iff]
        rintro ⟨_, _, rfl, rfl, ne, -, ne'⟩
        exact h1.elim ne ne'
      · simp only [Option.any_some, Bool.false_eq_true, and_false, Option.some.injEq, false_iff]
        rintro ⟨_, _, rfl, rfl, -, ne, -⟩
        exact ne h2
      · rw [not_or] at h1
        simp [h1, h2]

theorem preferenceConflictCount_eq {loc remote : PortablePreferencesV1} (now : Int)
    (hloc : bundles.loc.preferences = some loc)
    (hremote : bundles.remote.preferences = some remote) :
    preferenceConflictCount bundles = (conflictGroups bundles none now loc remote).length :=
  ncard_eq_length (loc.groups.keys_nodup.filter _)
    fun _ => (mem_conflictGroups hloc hremote).symm

theorem mergePreferences_none (h : Mergeable bundles) (now : Int) :
    ∃ preferences, mergePreferences bundles none now =
        .ok (preferences, preferenceConflictCount bundles) ∧
      preferenceConflictCount bundles ≤ PortablePreferencesV1.groupNames.length := by
  rcases mergePreferences_cases h.loc h.remote none now with
    ⟨absent, run⟩ | ⟨loc, remote, groups, hloc, hremote, run, -⟩
  · have none : preferenceConflictCount bundles = 0 := by
      rcases absent with absent | absent <;>
        simp [preferenceConflictCount, PreferenceConflict, PortableBundleV1.preferenceValue, absent]
    rw [run, none]
    exact ⟨_, rfl, Nat.zero_le _⟩
  · have count := preferenceConflictCount_eq now hloc hremote
    refine ⟨_, count ▸ run, count ▸ (List.length_filter_le _ _).trans ?_⟩
    rw [BTreeMap.length_keys,
      (PortablePreferencesV1.validate_header (h.loc.preferences_valid hloc)).2.2]

end Mergeable

/-- The conflicts that stop a merge without policies; a version-six merge drops
preferences, so their groups count only before it. -/
noncomputable def conflictCount (bundles : ThreeSides PortableBundleV1) : Nat :=
  nodeConflictCount bundles + if allV6 bundles then 0 else preferenceConflictCount bundles

theorem resolveConflicts_none (bundles : ThreeSides PortableBundleV1)
    (conflicts : BTreeSet ObjectNode) (now : Int) :
    resolveConflicts bundles conflicts ⟨none, none⟩ now = .ok (.empty, conflicts.size) := by
  unfold resolveConflicts
  split_ifs with empty
  · rw [← BTreeSet.length_toList, empty]
    rfl
  · rfl

namespace Mergeable

variable {bundles : ThreeSides PortableBundleV1}

theorem mergeGated_none (h : Mergeable bundles) (revision : Nat) (now : Int) :
    ∃ preferences, (allV6 bundles → preferences = none) ∧
      mergeGated bundles revision ⟨none, none⟩ now =
        if 0 < conflictCount bundles then .ok (.ok (.conflicts (conflictCount bundles)))
        else (mergeKinds bundles .empty).map fun output =>
          mergeFinish ⟨none, none⟩ (mergedBundle bundles revision preferences output) := by
  have carried : ∃ preferences count,
      mergeCarriedPreferences bundles none now = .ok (preferences, count) ∧
      (allV6 bundles → preferences = none) ∧
      conflictCount bundles = nodeConflictCount bundles + count ∧
      count ≤ PortablePreferencesV1.groupNames.length := by
    unfold mergeCarriedPreferences conflictCount
    split_ifs with v6
    · exact ⟨none, 0, rfl, fun _ => rfl, rfl, Nat.zero_le _⟩
    · obtain ⟨preferences, run, few⟩ := h.mergePreferences_none now
      exact ⟨preferences, _, run, fun v6' => absurd v6' v6, rfl, few⟩
  obtain ⟨preferences, count, run, dropped, total, few⟩ := carried
  have bounded : min (nodeConflictCount bundles + count) (2 ^ 32 - 1) =
      nodeConflictCount bundles + count :=
    min_eq_left ((Nat.add_le_add h.nodeConflictCount_le few).trans (by decide))
  have positive : nodeConflictCount bundles > 0 ∨ count > 0 ↔
      0 < nodeConflictCount bundles + count := by
    omega
  refine ⟨preferences, dropped, ?_⟩
  rw [mergeGated, resolveConflicts_none, h.size_conflictNodes, run, total]
  simp only [bind, Except.bind, mergeResolved, positive, bounded]

theorem merge_eq_gated (h : Mergeable bundles) (revision : Nat) (policies : MergePolicies)
    (now : Int) :
    mergeBundlesThreeWayWithPolicies bundles revision policies now =
      mergeGated bundles revision policies now := by
  rw [mergeBundlesThreeWayWithPolicies, mergeGate_eq_ok.mpr h]

end Mergeable

@[simp] theorem mergedBundle_items (bundles : ThreeSides PortableBundleV1) (revision : Nat)
    (preferences : Option PortablePreferencesV1) (output : MergeOutput) (k : PortableObjectKind) :
    (mergedBundle bundles revision preferences output).items k = output.items k :=
  PortableObjects.items_ofItems output.items k

@[simp] theorem mergedBundle_tombstoneNodes (bundles : ThreeSides PortableBundleV1)
    (revision : Nat) (preferences : Option PortablePreferencesV1) (output : MergeOutput) :
    (mergedBundle bundles revision preferences output).tombstoneNodes =
      output.tombstones.toList := by
  simp [PortableBundleV1.tombstoneNodes, mergedBundle, PortableTombstone.node, Function.comp_def]

theorem mergeFinish_none_eq_merged {merged m : PortableBundleV1} :
    mergeFinish ⟨none, none⟩ merged = .ok (.merged m) ↔
      merged = m ∧ merged.Valid ∧ merged.validateReverseReachability = .ok () := by
  simp only [mergeFinish, Option.isSome_none, Bool.false_eq_true, or_self, false_and, if_false,
    Check.bind_unit_eq_ok, PortableBundleV1.validate_eq_ok, Except.ok.injEq,
    BundleMergeOutcome.merged.injEq]
  tauto

namespace Mergeable

variable {bundles : ThreeSides PortableBundleV1}

theorem nodeState_of_output {m : PortableBundleV1} (valid : m.Valid)
    (items : ∀ k v, v ∈ m.items k ↔ mergedState bundles k (k.valueId v) = some (.live v))
    (tombstones : ∀ n, n ∈ m.tombstoneNodes ↔ mergedState bundles n.kind n.id = some .dead)
    (h : Mergeable bundles) (free : ∀ k id, mergedState bundles k id ≠ none)
    (k : PortableObjectKind) (id : PortableObjectId) :
    mergedState bundles k id = some (m.nodeState k id) := by
  cases eq : m.nodeState k id with
  | live v =>
    obtain ⟨mem, rfl⟩ := (PortableBundleV1.nodeState_eq_live valid).mp eq
    exact (items k v).mp mem
  | dead => exact (tombstones ⟨k, id⟩).mp ((PortableBundleV1.nodeState_eq_dead valid).mp eq)
  | absent =>
    obtain ⟨s, merged⟩ := Option.ne_none_iff_exists'.mp (free k id)
    rw [merged]
    cases s with
    | live v =>
      have same := (h.live_of_mergedState merged).1
      have live := (PortableBundleV1.nodeState_eq_live valid).mpr
        ⟨(items k v).mpr (by rwa [same]), same⟩
      simp [eq] at live
    | dead =>
      have dead := (PortableBundleV1.nodeState_eq_dead valid).mpr
        ((tombstones ⟨k, id⟩).mpr merged)
      simp [eq] at dead
    | absent => rfl

theorem nodeState_mergedBundle (h : Mergeable bundles)
    (free : ∀ k id, mergedState bundles k id ≠ none) {output : MergeOutput}
    (passes : mergeKinds bundles .empty = .ok output) {revision : Nat}
    {preferences : Option PortablePreferencesV1}
    (valid : (mergedBundle bundles revision preferences output).Valid) (k : PortableObjectKind)
    (id : PortableObjectId) :
    mergedState bundles k id =
      some ((mergedBundle bundles revision preferences output).nodeState k id) := by
  obtain ⟨output', passes', items, tombstones, -⟩ := h.mergeKinds_states free
  obtain rfl := Except.ok.inj (passes.symm.trans passes')
  exact nodeState_of_output valid (by simpa using items) (by simpa using tombstones) h free k id

end Mergeable

/-- Without policies the merge reports exactly the conflicting nodes and groups;
a bundle it returns holds every node in its three-way merged state. -/
theorem merge_states {bundles : ThreeSides PortableBundleV1} (h : Mergeable bundles)
    (revision : Nat) (now : Int) :
    (0 < conflictCount bundles →
      mergeBundlesThreeWayWithPolicies bundles revision ⟨none, none⟩ now =
        .ok (.ok (.conflicts (conflictCount bundles)))) ∧
    (conflictCount bundles = 0 → ∀ m,
      mergeBundlesThreeWayWithPolicies bundles revision ⟨none, none⟩ now = .ok (.ok (.merged m)) →
      ∀ k id, State.merge (bundles.base.nodeState k id) (bundles.loc.nodeState k id)
        (bundles.remote.nodeState k id) = some (m.nodeState k id)) := by
  obtain ⟨preferences, -, run⟩ := h.mergeGated_none revision now
  rw [h.merge_eq_gated, run]
  refine ⟨fun positive => if_pos positive, fun none m merged k id => ?_⟩
  have free := h.nodeConflictCount_eq_zero.mp (Nat.eq_zero_of_add_eq_zero_right none)
  obtain ⟨output, passes, -⟩ := h.mergeKinds_states free
  rw [none, if_neg (lt_irrefl 0), passes] at merged
  obtain ⟨rfl, valid, -⟩ := mergeFinish_none_eq_merged.mp (Except.ok.inj merged)
  exact h.nodeState_mergedBundle free passes valid k id

def emptyBundle : PortableBundleV1 where
  schema := .v6
  selectedCategories := none
  revision := 1
  objects := {}
  preferences := none
  secrets := []
  skippedMachineBound := []
  tombstones := []
  updateTimes := []
  preferenceUpdateTimes := .empty

def relabelledIdentity : ThreeSides PortableBundleV1 where
  base := { emptyBundle with objects := { identities := [⟨1, "work", none, []⟩] } }
  loc := { emptyBundle with objects := { identities := [⟨1, "home", none, []⟩] } }
  remote := { emptyBundle with objects := { identities := [⟨1, "work", none, []⟩] } }

theorem merge_states_relabelled : Mergeable relabelledIdentity ∧
      (conflictCount relabelledIdentity = 0 → ∀ m,
        mergeBundlesThreeWayWithPolicies relabelledIdentity 2 ⟨none, none⟩ 0 =
          .ok (.ok (.merged m)) →
        State.merge (relabelledIdentity.base.nodeState .identity 1)
          (relabelledIdentity.loc.nodeState .identity 1)
          (relabelledIdentity.remote.nodeState .identity 1) = some (m.nodeState .identity 1)) :=
  have mergeable : Mergeable relabelledIdentity := mergeGate_eq_ok.mp (by decide +kernel)
  ⟨mergeable, fun none m merged => (merge_states mergeable 2 0).2 none m merged .identity 1⟩

def uniformPreferences (value : JsonValue) : PortablePreferencesV1 where
  product := "NoriShell"
  version := 1
  groups := .ofList (PortablePreferencesV1.groupShapes.map fun (group, keys) =>
    (group, .object (.ofList (keys.map (·, value)))))

def divergingPreferences : ThreeSides PortableBundleV1 where
  base := { emptyBundle with preferences := some (uniformPreferences .null) }
  loc := { emptyBundle with preferences := some (uniformPreferences (.bool true)) }
  remote := { emptyBundle with preferences := some (uniformPreferences (.bool false)) }

/-- A version-six merge returns a bundle although preference groups conflict. -/
theorem merge_passes_preference_conflicts : Mergeable divergingPreferences ∧
      0 < nodeConflictCount divergingPreferences + preferenceConflictCount divergingPreferences ∧
      mergeBundlesThreeWayWithPolicies divergingPreferences 2 ⟨none, none⟩ 0 =
        .ok (.ok (.merged { emptyBundle with revision := 2 })) := by
  refine ⟨mergeGate_eq_ok.mp (by decide +kernel), ?_, by decide +kernel⟩
  rw [Mergeable.preferenceConflictCount_eq 0 rfl rfl]
  exact Nat.lt_of_lt_of_le (by decide +kernel) (Nat.le_add_left _ _)

end NoriShell.Sync

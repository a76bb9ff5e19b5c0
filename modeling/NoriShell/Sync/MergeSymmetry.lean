import NoriShell.Sync.MergePanics

/-! Exchanging the local and remote side of a merge, with the sides of its
policies exchanged as well, gives the same outcome. -/

namespace NoriShell.Sync

open Collections ThreeWay

def BundleConflictResolution.swap : BundleConflictResolution → BundleConflictResolution
  | .keepLocal => .useRemote
  | .useRemote => .keepLocal
  | .newest => .newest

theorem BundleConflictResolution.swap_injective :
    Function.Injective BundleConflictResolution.swap := by
  intro a b h
  cases a <;> cases b <;> first | rfl | cases h

def MergePolicies.swap (policies : MergePolicies) : MergePolicies :=
  ⟨policies.conflict.map .swap, policies.deletion.map .swap⟩

def ResolvedSides.swap (sides : ResolvedSides) : ResolvedSides :=
  sides.mapValues .swap

namespace ThreeSides

variable {α β : Type}

theorem toList_swap_perm (s : ThreeSides α) : s.swap.toList.Perm s.toList :=
  .cons _ (.swap ..)

theorem map_swap (f : α → β) (s : ThreeSides α) : s.swap.map f = (s.map f).swap :=
  rfl

end ThreeSides

section

variable {T : Type}

theorem nodeIds_swap (kind : PortableObjectKind) (values : ThreeSides (BTreeMap PortableObjectId T))
    (tombstones : ThreeSides (BTreeSet ObjectNode)) :
    nodeIds kind values.swap tombstones.swap = nodeIds kind values tombstones := by
  ext id
  simp only [mem_nodeIds, values.toList_swap_perm.mem_iff, tombstones.toList_swap_perm.mem_iff]

variable [DecidableEq T]

theorem selectNode_swap (side : Option BundleConflictResolution) (base loc remote : Held T) :
    selectNode (side.map .swap) base remote loc = selectNode side base loc remote := by
  cases side with
  | some side => cases side <;> rfl
  | none =>
    simp only [Option.map_none, selectNode]
    cases base.changed loc <;> cases base.changed remote <;> simp only
    by_cases eq : (base.result loc).value = (base.result remote).value
    · simp only [eq, if_true, Bool.or_comm]
    · simp only [eq, Ne.symm eq, if_false]

theorem selectAt_swap (kind : PortableObjectKind) (values : ThreeSides (List T))
    (tombstones : ThreeSides (BTreeSet ObjectNode)) (id : T → PortableObjectId)
    (sides : ResolvedSides) (valueId : PortableObjectId) :
    selectAt kind values.swap tombstones.swap id sides.swap valueId =
      selectAt kind values tombstones id sides valueId := by
  unfold selectAt
  rw [ResolvedSides.swap, BTreeMap.get?_mapValues]
  exact selectNode_swap _ _ _ _

theorem mergeValues_swap (kind : PortableObjectKind) (values : ThreeSides (List T))
    (tombstones : ThreeSides (BTreeSet ObjectNode)) (id : T → PortableObjectId)
    (sides : ResolvedSides) :
    mergeValues kind values.swap tombstones.swap id sides.swap =
      mergeValues kind values tombstones id sides := by
  simp only [mergeValues, ThreeSides.map_swap, nodeIds_swap, selectAt_swap]

end

section

variable (bundles : ThreeSides PortableBundleV1) (policies : MergePolicies) (now : Int)

theorem newestSide_swap (loc remote : Option Int) :
    newestSide remote loc now = (newestSide loc remote now).map .swap := by
  cases loc with
  | none => cases remote <;> rfl
  | some l =>
    cases remote with
    | none => rfl
    | some r =>
      simp only [newestSide]
      have guard : (r ≤ 0 ∨ l ≤ 0 ∨ r > saturatingAdd now maxFutureClockSkewMs ∨
            l > saturatingAdd now maxFutureClockSkewMs) ↔
          (l ≤ 0 ∨ r ≤ 0 ∨ l > saturatingAdd now maxFutureClockSkewMs ∨
            r > saturatingAdd now maxFutureClockSkewMs) := by
        tauto
      simp only [guard]
      split_ifs <;> first | rfl | omega

theorem policySide_swap (deleted : Bool) (side : BundleConflictResolution) :
    (match if deleted then policies.swap.deletion else policies.swap.conflict with
      | some .newest => some side.swap
      | some .keepLocal | some .useRemote =>
        if deleted then policies.swap.deletion else policies.swap.conflict
      | none => none) =
    (match if deleted then policies.deletion else policies.conflict with
      | some .newest => some side
      | some .keepLocal | some .useRemote =>
        if deleted then policies.deletion else policies.conflict
      | none => none).map .swap := by
  obtain ⟨conflict, deletion⟩ := policies
  cases deleted with
  | false => cases conflict with
    | none => rfl
    | some policy => cases policy <;> rfl
  | true => cases deletion with
    | none => rfl
    | some policy => cases policy <;> rfl

theorem memberSide_swap (member : ObjectNode) : memberSide bundles.swap policies.swap now member =
      (memberSide bundles policies now member).map .swap := by
  simp only [memberSide, ThreeSides.swap,
    newestSide_swap now (itemTime bundles.loc member) (itemTime bundles.remote member)]
  have proper := newestSide_ne_newest (itemTime bundles.loc member)
    (itemTime bundles.remote member) now
  generalize newestSide (itemTime bundles.loc member) (itemTime bundles.remote member) now = side
    at proper
  cases side with
  | none =>
    obtain ⟨conflict, deletion⟩ := policies
    cases conflict with
    | none => rfl
    | some policy => cases policy <;> rfl
  | some side => cases side with
    | newest => exact absurd rfl proper
    | keepLocal =>
      simp only [Option.map_some, BundleConflictResolution.swap]
      generalize bundles.loc.tombstones.any _ = deleted
      exact policySide_swap policies deleted .keepLocal
    | useRemote =>
      simp only [Option.map_some, BundleConflictResolution.swap]
      generalize bundles.remote.tombstones.any _ = deleted
      exact policySide_swap policies deleted .useRemote

theorem chooseStep_swap (side : ObjectNode → Option BundleConflictResolution)
    (acc : Option BundleConflictResolution × Bool) (member : ObjectNode) :
    chooseStep (fun n => (side n).map .swap) (acc.1.map .swap, acc.2) member =
      ((chooseStep side acc member).1.map .swap, (chooseStep side acc member).2) := by
  obtain ⟨chosen, consistent⟩ := acc
  cases own : side member with
  | none => simp [chooseStep, own]
  | some own' =>
    cases chosen with
    | none => simp [chooseStep, own]
    | some previous =>
      simp [chooseStep, own, BundleConflictResolution.swap_injective.eq_iff]

theorem foldl_chooseStep_swap (side : ObjectNode → Option BundleConflictResolution)
    (component : List ObjectNode) (acc : Option BundleConflictResolution × Bool) :
    component.foldl (chooseStep fun n => (side n).map .swap) (acc.1.map .swap, acc.2) =
      ((component.foldl (chooseStep side) acc).1.map .swap,
        (component.foldl (chooseStep side) acc).2) := by
  induction component generalizing acc with
  | nil => rfl
  | cons member component ih => rw [List.foldl_cons, chooseStep_swap, ih, List.foldl_cons]

theorem chooseComponent_swap (component : List ObjectNode) :
    chooseComponent (memberSide bundles.swap policies.swap now) component =
      ((chooseComponent (memberSide bundles policies now) component).1.map .swap,
        (chooseComponent (memberSide bundles policies now) component).2) := by
  rw [funext (memberSide_swap bundles policies now)]
  exact foldl_chooseStep_swap _ component (none, true)

theorem ResolvedSides.swap_extend (sides : ResolvedSides) (nodes : List ObjectNode)
    (side : BundleConflictResolution) :
    ResolvedSides.swap (sides.extend (nodes.map (·, side))) =
      sides.swap.extend (nodes.map (·, side.swap)) := by
  ext n : 1
  simp only [ResolvedSides.swap, BTreeMap.get?_mapValues, BTreeMap.get?_extend_const]
  split_ifs <;> rfl

theorem resolveComponents_swap (conflicts : BTreeSet ObjectNode) (fuel : Nat)
    (remaining : BTreeSet ObjectNode) (sides : ResolvedSides) (unresolved : Nat) :
    resolveComponents bundles.swap policies.swap now conflicts fuel remaining sides.swap
        unresolved =
      (resolveComponents bundles policies now conflicts fuel remaining sides unresolved).map
        (Prod.map ResolvedSides.swap id) := by
  induction fuel generalizing remaining sides unresolved with
  | zero => rfl
  | succ fuel ih =>
    simp only [resolveComponents, expandConflictClosure_perm bundles.toList_swap_perm,
      chooseComponent_swap]
    cases remaining.toList.head? with
    | none => rfl
    | some node =>
      dsimp only
      split_ifs
      · cases (chooseComponent (memberSide bundles policies now) _).1 with
        | none => rfl
        | some side =>
          dsimp only [Option.map_some]
          rw [← ResolvedSides.swap_extend, ih]
      · exact ih _ _ _

theorem resolveToSide_swap (conflicts : BTreeSet ObjectNode) (side : BundleConflictResolution) :
    resolveToSide bundles.swap conflicts side.swap =
      (resolveToSide bundles conflicts side).swap := by
  have clocks : bundles.swap.toList.all (·.schema.supportsUpdateTimes) =
      bundles.toList.all (·.schema.supportsUpdateTimes) := by
    rw [Bool.eq_iff_iff]
    simp only [List.all_eq_true, bundles.toList_swap_perm.mem_iff]
  unfold resolveToSide
  rw [clocks, expandConflictClosure_perm bundles.toList_swap_perm]
  exact (ResolvedSides.swap_extend .empty _ side).symm

theorem resolveConflicts_swap (conflicts : BTreeSet ObjectNode) :
    resolveConflicts bundles.swap conflicts policies.swap now =
      (resolveConflicts bundles conflicts policies now).map (Prod.map ResolvedSides.swap id) := by
  have components := resolveComponents_swap bundles policies now conflicts conflicts.size
    conflicts .empty 0
  have toLocal := resolveToSide_swap bundles conflicts .useRemote
  have toRemote := resolveToSide_swap bundles conflicts .keepLocal
  obtain ⟨conflict, deletion⟩ := policies
  unfold resolveConflicts
  split_ifs
  · rfl
  · cases conflict with
    | none => cases deletion with
      | none => rfl
      | some b => cases b <;> exact components
    | some a => cases deletion with
      | none => cases a <;> exact components
      | some b =>
        cases a <;> cases b <;> first
          | exact components
          | exact congrArg (fun sides => Except.ok (sides, 0)) toLocal
          | exact congrArg (fun sides => Except.ok (sides, 0)) toRemote

end

section

variable {bundles : ThreeSides PortableBundleV1}
  (resolution : Option BundleConflictResolution) (now : Int)

theorem mergePreferenceGroup_swap (group : String) (locValue remoteValue : JsonValue) :
    (mergePreferenceGroup bundles.swap (resolution.map .swap) now group remoteValue locValue).2 =
        (mergePreferenceGroup bundles resolution now group locValue remoteValue).2 ∧
      ((mergePreferenceGroup bundles resolution now group locValue remoteValue).2 = false →
        (mergePreferenceGroup bundles.swap (resolution.map .swap) now group remoteValue
            locValue).1 =
          (mergePreferenceGroup bundles resolution now group locValue remoteValue).1) := by
  obtain ⟨baseValue, baseEq⟩ :
      ∃ value, (bundles.base.preferences.bind fun p => p.groups.get? group) = value := ⟨_, rfl⟩
  simp only [mergePreferenceGroup, ThreeSides.swap, baseEq]
  by_cases same : locValue = remoteValue
  · simp [same]
  by_cases remoteKept : baseValue = some remoteValue
  · simp [same, Ne.symm same, remoteKept]
  by_cases locKept : baseValue = some locValue
  · simp [same, Ne.symm same, locKept]
  simp only [same, Ne.symm same, remoteKept, locKept, or_self, if_false]
  cases resolution with
  | none => simp
  | some policy => cases policy with
    | keepLocal => simp [BundleConflictResolution.swap]
    | useRemote => simp [BundleConflictResolution.swap]
    | newest =>
      simp only [Option.map_some, BundleConflictResolution.swap,
        newestSide_swap now (bundles.loc.preferenceUpdateTimes.get? group)]
      cases newestSide (bundles.loc.preferenceUpdateTimes.get? group)
        (bundles.remote.preferenceUpdateTimes.get? group) now with
      | none => simp
      | some side => cases side <;> simp [BundleConflictResolution.swap]

variable {loc remote : PortablePreferencesV1}

theorem groupChoice_swap (group : String) :
    (groupChoice bundles.swap (resolution.map .swap) now remote loc group).any Prod.snd =
        (groupChoice bundles resolution now loc remote group).any Prod.snd ∧
      ((groupChoice bundles resolution now loc remote group).any Prod.snd = false →
        (groupChoice bundles.swap (resolution.map .swap) now remote loc group).map Prod.fst =
          (groupChoice bundles resolution now loc remote group).map Prod.fst) := by
  unfold groupChoice
  cases loc.groups.get? group with
  | none => cases remote.groups.get? group <;> simp
  | some locValue => cases remote.groups.get? group with
    | none => simp
    | some remoteValue =>
      simpa using mergePreferenceGroup_swap resolution now group locValue remoteValue

theorem mergePreferences_swap (hloc : bundles.loc.Valid) (hremote : bundles.remote.Valid) :
    ∃ merged merged' count, mergePreferences bundles resolution now = .ok (merged, count) ∧
      mergePreferences bundles.swap (resolution.map .swap) now = .ok (merged', count) ∧
      (count = 0 → merged' = merged) := by
  have swapped := mergePreferences_cases (show bundles.swap.loc.Valid from hremote) hloc
    (resolution.map .swap) now
  rcases mergePreferences_cases hloc hremote resolution now with
    ⟨absent, run⟩ | ⟨loc, remote, groups, locEq, remoteEq, run, get⟩
  · rcases swapped with ⟨-, run'⟩ | ⟨_, _, _, some, some', -⟩
    · refine ⟨_, _, _, run, run', fun _ => ?_⟩
      rcases absent with eq | eq <;> simp [ThreeSides.swap, eq]
    · rcases absent with eq | eq <;> simp_all [ThreeSides.swap]
  · rcases swapped with ⟨absent, -⟩ | ⟨_, _, groups', some, some', run', get'⟩
    · rcases absent with eq | eq <;> simp_all [ThreeSides.swap]
    · cases Option.some.inj (remoteEq.symm.trans some)
      cases Option.some.inj (locEq.symm.trans some')
      have locValid := hloc.preferences_valid locEq
      have remoteValid := hremote.preferences_valid remoteEq
      have count : (conflictGroups bundles.swap (resolution.map .swap) now remote loc).length =
          (conflictGroups bundles resolution now loc remote).length := by
        have perm : remote.groups.keys.Perm loc.groups.keys :=
          (List.perm_ext_iff_of_nodup remote.groups.keys_nodup loc.groups.keys_nodup).mpr
            fun group => by rw [PortablePreferencesV1.mem_keys_iff locValid,
              PortablePreferencesV1.mem_keys_iff remoteValid]
        unfold conflictGroups
        simp only [(groupChoice_swap resolution now _).1]
        exact (perm.filter _).length_eq
      refine ⟨_, _, _, run, count ▸ run', fun zero => ?_⟩
      have calm (group : String) :
          (groupChoice bundles resolution now loc remote group).any Prod.snd = false := by
        by_cases mem : group ∈ loc.groups.keys
        · have none := List.filter_eq_nil_iff.mp (List.eq_nil_of_length_eq_zero zero) group mem
          exact Bool.eq_false_iff.mpr none
        · have missing : loc.groups.get? group = .none := by
            by_contra found
            obtain ⟨value, found⟩ := Option.ne_none_iff_exists'.mp found
            exact mem (BTreeMap.mem_keys.mpr ⟨value, found⟩)
          simp [groupChoice, missing]
      have same : groups' = groups := by
        ext group : 1
        rw [get, get']
        exact (groupChoice_swap resolution now group).2 (calm group)
      obtain ⟨product, version, -⟩ := PortablePreferencesV1.validate_header locValid
      obtain ⟨product', version', -⟩ := PortablePreferencesV1.validate_header remoteValid
      simp only [same, product, product', version, version']

end

section

variable {κ : Type} [LinearOrder κ]

theorem noteTimes_perm (times : BTreeMap κ Int) (key : κ) {known known' : List (Option Int)}
    (perm : known.Perm known') : noteTimes times key known = noteTimes times key known' := by
  apply perm.foldl_eq'
  intro a _ b _ times
  cases a with
  | none => rfl
  | some a => cases b with
    | none => rfl
    | some b =>
      ext k : 1
      simp only [BTreeMap.get?_upsert, if_true]
      split_ifs
      · cases times.get? key with
        | none => simp [max_comm]
        | some time => simp [max_right_comm]
      · rfl

variable (bundles : ThreeSides PortableBundleV1)

theorem noteTimes_swap (times : BTreeMap κ Int) (key : κ) (time : PortableBundleV1 → Option Int) :
    noteTimes times key (bundles.swap.toList.map time) =
      noteTimes times key (bundles.toList.map time) :=
  noteTimes_perm times key (bundles.toList_swap_perm.map time)

theorem allV6_swap : allV6 bundles.swap = allV6 bundles := by
  rw [Bool.eq_iff_iff, allV6_iff, allV6_iff]
  simp only [bundles.toList_swap_perm.mem_iff]

theorem mergedBundle_swap
    (skipped : bundles.loc.skippedMachineBound = bundles.remote.skippedMachineBound)
    (revision : Nat) (preferences : Option PortablePreferencesV1) (output : MergeOutput) :
    mergedBundle bundles.swap revision preferences output =
      mergedBundle bundles revision preferences output := by
  have scope : normalizedScope bundles.swap.base = normalizedScope bundles.base := rfl
  have kept : bundles.swap.loc.skippedMachineBound = bundles.loc.skippedMachineBound :=
    skipped.symm
  simp only [mergedBundle, allV6_swap, scope, kept, mergeUpdateTimes, mergePreferenceTimes,
    noteTimes_swap]

end

section

variable {bundles : ThreeSides PortableBundleV1}

theorem mergeGate_swap (hbase : bundles.base.Valid) (hloc : bundles.loc.Valid)
    (hremote : bundles.remote.Valid) : mergeGate bundles.swap = mergeGate bundles := by
  have some : bundles.swap.toList.any (·.schema = .v6) = bundles.toList.any (·.schema = .v6) := by
    rw [Bool.eq_iff_iff]
    simp only [List.any_eq_true, bundles.toList_swap_perm.mem_iff]
  have scopes : (normalizedScope bundles.remote ≠ normalizedScope bundles.base ∨
        normalizedScope bundles.loc ≠ normalizedScope bundles.base) =
      (normalizedScope bundles.loc ≠ normalizedScope bundles.base ∨
        normalizedScope bundles.remote ≠ normalizedScope bundles.base) :=
    propext or_comm
  simp only [mergeGate, some, allV6_swap]
  simp only [ThreeSides.swap, PortableBundleV1.validate_eq_ok.mpr hbase,
    PortableBundleV1.validate_eq_ok.mpr hloc, PortableBundleV1.validate_eq_ok.mpr hremote, scopes]

theorem Mergeable.swap (h : Mergeable bundles) : Mergeable bundles.swap := by
  rw [← mergeGate_eq_ok, mergeGate_swap h.base h.loc h.remote]
  exact mergeGate_eq_ok.mpr h

theorem mergedState_swap (k : PortableObjectKind) (id : PortableObjectId) :
    mergedState bundles.swap k id = mergedState bundles k id :=
  State.merge_comm ..

theorem collectConflictNodes_swap (h : Mergeable bundles) :
    collectConflictNodes bundles.swap = collectConflictNodes bundles := by
  ext n
  rw [h.swap.mem_conflictNodes, h.mem_conflictNodes, mergedState_swap]

theorem mergeKinds_swap (sides : ResolvedSides) :
    mergeKinds bundles.swap sides.swap = mergeKinds bundles sides := by
  unfold mergeKinds
  congr 1
  funext output kind
  simp only [mergeKind, ThreeSides.map_swap, mergeValues_swap]

theorem mergeFinish_swap (policies : MergePolicies) (merged : PortableBundleV1) :
    mergeFinish policies.swap merged = mergeFinish policies merged := by
  simp only [mergeFinish, MergePolicies.swap, Option.isSome_map]

theorem mergeCarriedPreferences_swap (h : Mergeable bundles)
    (resolution : Option BundleConflictResolution) (now : Int) :
    ∃ merged merged' count, mergeCarriedPreferences bundles resolution now = .ok (merged, count) ∧
      mergeCarriedPreferences bundles.swap (resolution.map .swap) now = .ok (merged', count) ∧
      (count = 0 → merged' = merged) := by
  simp only [mergeCarriedPreferences, allV6_swap]
  split_ifs
  · exact ⟨none, none, 0, rfl, rfl, fun _ => rfl⟩
  · exact mergePreferences_swap resolution now h.loc h.remote

theorem mergeGated_swap (h : Mergeable bundles)
    (skipped : bundles.loc.skippedMachineBound = bundles.remote.skippedMachineBound)
    (revision : Nat) (policies : MergePolicies) (now : Int) :
    mergeGated bundles.swap revision policies.swap now =
      mergeGated bundles revision policies now := by
  obtain ⟨merged, merged', count, carried, carried', same⟩ :=
    mergeCarriedPreferences_swap h policies.conflict now
  simp only [mergeGated, collectConflictNodes_swap h, resolveConflicts_swap]
  cases resolveConflicts bundles (collectConflictNodes bundles) policies now with
  | error panic => rfl
  | ok resolved =>
    change (mergeCarriedPreferences bundles.swap (policies.conflict.map .swap) now >>= _) =
      (mergeCarriedPreferences bundles policies.conflict now >>= _)
    rw [carried, carried']
    change mergeResolved bundles.swap revision policies.swap (resolved.1.swap, resolved.2)
      (merged', count) = mergeResolved bundles revision policies resolved (merged, count)
    unfold mergeResolved
    by_cases pending : resolved.2 > 0 ∨ count > 0
    · rw [if_pos pending, if_pos pending]
    · -- Without an open conflict both ends carry the same preferences.
      rw [if_neg pending, if_neg pending, same (by omega), mergeKinds_swap]
      simp only [mergeFinish_swap, mergedBundle_swap bundles skipped]

/-- Two devices that merge the same pair from opposite ends get the same
outcome: the same error, the same conflict count or the same bundle. -/
theorem merge_swap (base : bundles.base.validate = .ok ()) (loc : bundles.loc.validate = .ok ())
    (remote : bundles.remote.validate = .ok ())
    (skipped : bundles.loc.skippedMachineBound = bundles.remote.skippedMachineBound)
    (revision : Nat) (policies : MergePolicies) (now : Int) :
    mergeBundlesThreeWayWithPolicies bundles.swap revision policies.swap now =
      mergeBundlesThreeWayWithPolicies bundles revision policies now := by
  have gates := mergeGate_swap (PortableBundleV1.validate_eq_ok.mp base)
    (PortableBundleV1.validate_eq_ok.mp loc) (PortableBundleV1.validate_eq_ok.mp remote)
  unfold mergeBundlesThreeWayWithPolicies
  rw [gates]
  cases gate : mergeGate bundles with
  | error e => rfl
  | ok => exact mergeGated_swap (mergeGate_eq_ok.mp gate) skipped revision policies now

def racingLabels : ThreeSides PortableBundleV1 where
  base := { emptyBundle with objects := { identities := [⟨1, "work", none, []⟩] } }
  loc := { emptyBundle with
    objects := { identities := [⟨1, "home", none, []⟩] }
    updateTimes := [⟨.identity, 1, 5⟩] }
  remote := { emptyBundle with
    objects := { identities := [⟨1, "office", none, []⟩] }
    updateTimes := [⟨.identity, 1, 6⟩] }

theorem merge_swap_racingLabels :
    mergeBundlesThreeWayWithPolicies racingLabels 2 ⟨some .newest, some .keepLocal⟩ 0 =
        .ok (.ok (.merged { racingLabels.remote with revision := 2 })) ∧
      mergeBundlesThreeWayWithPolicies racingLabels.swap 2 ⟨some .newest, some .useRemote⟩ 0 =
        mergeBundlesThreeWayWithPolicies racingLabels 2 ⟨some .newest, some .keepLocal⟩ 0 :=
  ⟨by decide +kernel, merge_swap (by decide +kernel) (by decide +kernel) (by decide +kernel) rfl 2
    ⟨some .newest, some .keepLocal⟩ 0⟩

end

end NoriShell.Sync

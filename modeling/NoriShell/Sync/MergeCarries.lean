import NoriShell.Sync.MergeTimes

/-! What a merged bundle carries over besides the objects: the times of their updates, and the
preferences. -/

namespace NoriShell.Sync

open Collections

/-- The checks of validation on the update times, which follow those on the counts. -/
def PortableBundleV1.TimesPass (b : PortableBundleV1) : Prop :=
  b.schema.supportsUpdateTimes ∧ validateUpdateTimes b.allNodes [] b.updateTimes = .ok () ∧
    ((∀ k, (b.items k).length ≤ maxObjectsPerKind) → b.tombstones.length ≤ maxObjectsPerKind →
      b.updateTimes.length ≤ 12 * maxObjectsPerKind)

section

variable {bundles : ThreeSides PortableBundleV1} {revision : Nat} {policies : MergePolicies}
  {now : Int} {m : PortableBundleV1}

theorem mergeFinish_eq_merged {merged : PortableBundleV1}
    (run : mergeFinish policies merged = .ok (.merged m)) : merged = m ∧ merged.Valid := by
  simp only [mergeFinish] at run
  split at run
  · cases run
  · simp only [Check.bind_unit_eq_ok, PortableBundleV1.validate_eq_ok] at run
    obtain ⟨⟨valid, -⟩, eq⟩ := run
    cases eq
    exact ⟨rfl, valid⟩

theorem Mergeable.of_merged (h : Mergeable bundles)
    (run : mergeBundlesThreeWayWithPolicies bundles revision policies now = .ok (.ok (.merged m))) :
    ∃ preferences output,
      mergeCarriedPreferences bundles policies.conflict now = .ok (preferences, 0) ∧
        m = mergedBundle bundles revision preferences output ∧ m.Valid := by
  rw [h.merge_eq_gated] at run
  simp only [mergeGated, Check.bind_eq_ok] at run
  obtain ⟨⟨sides, unresolved⟩, -, ⟨preferences, count⟩, carried, run⟩ := run
  unfold mergeResolved at run
  split_ifs at run with conflicts
  · cases run
  · rw [not_or, not_lt, not_lt] at conflicts
    cases kinds : mergeKinds bundles sides with
    | error panic =>
      rw [kinds] at run
      cases run
    | ok output =>
      rw [kinds] at run
      obtain ⟨rfl, valid⟩ := mergeFinish_eq_merged (Except.ok.inj run)
      exact ⟨preferences, output, Nat.le_zero.mp conflicts.2 ▸ carried, rfl, valid⟩

theorem Mergeable.mergedBundle_times (h : Mergeable bundles) (revision : Nat)
    (preferences : Option PortablePreferencesV1) (output : MergeOutput) :
    let merged := mergedBundle bundles revision preferences output
    (∀ t ∈ merged.updateTimes, 0 < t.updateTimeUnixMs ∧ t.node ∈ merged.allNodes) ∧
      (merged.updateTimes.map PortableItemUpdateTime.node).Nodup := by
  apply mergeUpdateTimes_times h
  · intro k v mem
    apply List.mem_append_left
    rw [PortableBundleV1.mem_liveNodes]
    refine ⟨v, ?_, rfl⟩
    rwa [← mergedBundle_items bundles revision preferences output k] at mem
  · intro t mem
    exact List.mem_append_right _ (List.mem_map_of_mem mem)

/-- The merged times are the latest ones known for what was merged, and their checks never
reject a merge. -/
theorem merged_times_exact (h : Mergeable bundles) (v6 : allV6 bundles) :
    (∀ preferences output, (mergedBundle bundles revision preferences output).TimesPass) ∧
      ∀ m, mergeBundlesThreeWayWithPolicies bundles revision policies now = .ok (.ok (.merged m)) →
        (∀ n t, ⟨n.kind, n.id, t⟩ ∈ m.updateTimes ↔
          IsGreatest (knownTimes bundles m.items m.tombstones n) t) ∧
        (∀ t ∈ m.updateTimes, t.node ∈ m.allNodes) ∧
        (m.updateTimes.map PortableItemUpdateTime.node).Nodup := by
  constructor
  · intro preferences output
    obtain ⟨proper, unique⟩ := h.mergedBundle_times revision preferences output
    refine ⟨by simp [mergedBundle, v6, BundleSchema.supportsUpdateTimes], ?_, fun items dead => ?_⟩
    · exact PortableBundleV1.validateUpdateTimes_eq_ok.mpr ⟨fun t mem => (proper t mem).1,
        fun t mem => (proper t mem).2, unique, fun _ _ => List.not_mem_nil⟩
    · exact (length_times_le (fun t mem => (proper t mem).2) unique).trans
        (length_allNodes_le items dead)
  · intro m run
    obtain ⟨preferences, output, -, rfl, valid⟩ := h.of_merged run
    refine ⟨fun n t => ?_, valid.timePresent, valid.timeUnique⟩
    have items : (mergedBundle bundles revision preferences output).items = output.items :=
      funext fun k => mergedBundle_items bundles revision preferences output k
    rw [items]
    exact mem_mergeUpdateTimes

def timedIdentity : ThreeSides PortableBundleV1 where
  base := relabelledIdentity.base
  loc := { relabelledIdentity.loc with updateTimes := [⟨.identity, 1, 7⟩] }
  remote := { relabelledIdentity.remote with updateTimes := [⟨.identity, 1, 5⟩] }

theorem merged_times_exact_timedIdentity : Mergeable timedIdentity ∧ allV6 timedIdentity ∧
    ∀ m, mergeBundlesThreeWayWithPolicies timedIdentity 2 ⟨none, none⟩ 0 = .ok (.ok (.merged m)) →
      (m.updateTimes.map PortableItemUpdateTime.node).Nodup :=
  have mergeable : Mergeable timedIdentity := mergeGate_eq_ok.mp (by decide +kernel)
  ⟨mergeable, by decide, fun m run => ((merged_times_exact mergeable (by decide)).2 m run).2.2⟩

/-- The side that left a group as it was yields to the other one; a bundle without preferences
has no opinion. -/
def GroupKept (base loc remote : Option JsonValue) (chosen : JsonValue) : Prop :=
  match loc, remote with
  | some locValue, some remoteValue =>
    (locValue = remoteValue ∨ base = some remoteValue → chosen = locValue) ∧
      (base = some locValue → chosen = remoteValue) ∧
      (chosen = locValue ∨ chosen = remoteValue)
  | loc, remote => (loc.or remote).or base = some chosen

def KeepsPreferences (bundles : ThreeSides PortableBundleV1) (m : PortableBundleV1) : Prop :=
  m.preferences.isSome ∧ ∀ group chosen, m.preferenceValue group = some chosen →
    GroupKept (bundles.base.preferenceValue group) (bundles.loc.preferenceValue group)
      (bundles.remote.preferenceValue group) chosen

theorem mergePreferenceGroup_kept {resolution : Option BundleConflictResolution} {group : String}
    {locValue remoteValue : JsonValue} :
    GroupKept (bundles.base.preferenceValue group) (some locValue) (some remoteValue)
      (mergePreferenceGroup bundles resolution now group locValue remoteValue).1 := by
  simp only [GroupKept, PortableBundleV1.preferenceValue, mergePreferenceGroup]
  split_ifs with kept changed
  · refine ⟨fun _ => rfl, fun same => ?_, .inl rfl⟩
    rcases kept with kept | kept
    · exact kept
    · exact Option.some.inj (same.symm.trans kept)
  · exact ⟨fun other => absurd other kept, fun _ => rfl, .inr rfl⟩
  · refine ⟨fun other => absurd other kept, fun same => absurd same changed, ?_⟩
    repeat' split
    all_goals simp

theorem Mergeable.mergePreferences_kept (h : Mergeable bundles) {count : Nat}
    {resolution : Option BundleConflictResolution} {preferences : Option PortablePreferencesV1}
    (run : mergePreferences bundles resolution now = .ok (preferences, count)) :
    preferences.isSome = (bundles.loc.preferences.isSome || bundles.remote.preferences.isSome) ∧
      ∀ group chosen, preferences.bind (·.groups.get? group) = some chosen →
        GroupKept (bundles.base.preferenceValue group) (bundles.loc.preferenceValue group)
          (bundles.remote.preferenceValue group) chosen := by
  rcases mergePreferences_cases h.loc h.remote resolution now with
    ⟨absent, eq⟩ | ⟨loc, remote, groups, hloc, hremote, eq, get⟩
  · cases eq.symm.trans run
    refine ⟨Option.isSome_or, fun group chosen found => ?_⟩
    rcases absent with absent | absent <;>
      simp_all [PortableBundleV1.preferenceValue, GroupKept]
  · cases eq.symm.trans run
    refine ⟨by simp [hloc], fun group chosen found => ?_⟩
    rw [Option.bind_some, get, Option.map_eq_some_iff] at found
    obtain ⟨choice, found, rfl⟩ := found
    unfold groupChoice at found
    split at found
    · next locValue remoteValue here there =>
      cases found
      simp only [PortableBundleV1.preferenceValue, hloc, hremote, Option.bind_some, here, there]
      exact mergePreferenceGroup_kept
    · cases found

theorem PortableBundleV1.Valid.no_times {b : PortableBundleV1} (h : b.Valid)
    (below : b.schema ≠ .v6) (none : b.preferences = none) : b.updateTimes = [] := by
  have checked := h.preferences
  have times := h.timeSchema
  unfold PortableBundleV1.validatePreferences at checked
  rw [none] at checked
  cases schema : b.schema with
  | v1 | v2 | v3 =>
    rw [schema] at times
    exact (times rfl).1
  | v4 | v5 =>
    rw [schema] at checked
    cases checked
  | v6 => exact absurd schema below

theorem mergeUpdateTimes_eq_nil (none : ∀ b ∈ bundles.toList, b.updateTimes = [])
    (items : (k : PortableObjectKind) → List k.Value) (tombstones : List PortableTombstone) :
    mergeUpdateTimes items tombstones bundles = [] := by
  refine List.eq_nil_iff_forall_not_mem.mpr fun t mem => ?_
  obtain ⟨b, hb, -, time⟩ := (mem_mergeUpdateTimes (n := t.node).mp mem).1
  rw [itemTime, none b hb] at time
  cases time

/-- Preferences survive a merge below version six exactly if a side of it has some; and unless
the base alone has some, the schema of the result admits its times. -/
theorem merge_keeps_preferences_iff (valid : ∀ b ∈ bundles.toList, b.validate = .ok ())
    (below : ∀ b ∈ bundles.toList, b.schema ≠ .v6) :
    (∀ m, mergeBundlesThreeWayWithPolicies bundles revision policies now = .ok (.ok (.merged m)) →
      (KeepsPreferences bundles m ↔
        bundles.loc.preferences.isSome ∨ bundles.remote.preferences.isSome)) ∧
    ((bundles.base.preferences.isSome →
        bundles.loc.preferences.isSome ∨ bundles.remote.preferences.isSome) →
      ∀ preferences count output,
        mergeCarriedPreferences bundles policies.conflict now = .ok (preferences, count) →
        let merged := mergedBundle bundles revision preferences output
        merged.schema.supportsUpdateTimes = false →
          merged.updateTimes = [] ∧ merged.preferenceUpdateTimes.toList = []) := by
  have mem : bundles.base ∈ bundles.toList := List.mem_cons_self
  have h : Mergeable bundles := by
    simp only [ThreeSides.toList, List.forall_mem_cons, PortableBundleV1.validate_eq_ok] at valid
    exact ⟨valid.1, valid.2.1, valid.2.2.1, .inl below, fun v6 => absurd (v6 _ mem) (below _ mem)⟩
  have old : allV6 bundles = false := by
    rw [Bool.eq_false_iff, ne_eq, allV6_iff]
    exact fun v6 => below _ mem (v6 _ mem)
  constructor
  · intro m run
    obtain ⟨preferences, output, carried, rfl, -⟩ := h.of_merged run
    rw [mergeCarriedPreferences, old] at carried
    obtain ⟨some, kept⟩ := h.mergePreferences_kept carried
    rw [KeepsPreferences, ← Bool.or_eq_true, ← some]
    exact and_iff_left kept
  · intro base preferences count output carried merged schema
    rw [mergeCarriedPreferences, old] at carried
    obtain ⟨some, -⟩ := h.mergePreferences_kept carried
    cases preferences with
    | some preferences =>
      simp [merged, mergedBundle, old, BundleSchema.supportsUpdateTimes] at schema
    | none =>
      rw [← Bool.or_eq_true, ← some] at base
      obtain ⟨loc, remote⟩ := Bool.or_eq_false_iff.mp some.symm
      have absent : ∀ b ∈ bundles.toList, b.preferences = none := by
        have base : bundles.base.preferences.isSome = false := Bool.eq_false_iff.mpr fun carried =>
          Bool.false_ne_true (base carried)
        simp_all [ThreeSides.toList]
      exact ⟨mergeUpdateTimes_eq_nil (fun b hb =>
        (h.valid_of_mem hb).no_times (below b hb) (absent b hb)) _ _, rfl⟩

end

/-- A newer client has written the base; the devices that merge know nothing of preferences. -/
def legacyDevices (times : List PortableItemUpdateTime) : ThreeSides PortableBundleV1 where
  base := { relabelledIdentity.base with
    schema := .v5, preferences := some (uniformPreferences .null), updateTimes := times }
  loc := { relabelledIdentity.base with schema := .v3 }
  remote := { relabelledIdentity.base with schema := .v3 }

theorem merge_keeps_preferences_iff_divergingPreferences :
    let bundles := divergingPreferences.map fun b => { b with schema := .v5 }
    (∀ b ∈ bundles.toList, b.validate = .ok ()) ∧ (∀ b ∈ bundles.toList, b.schema ≠ .v6) ∧
      ∀ m, mergeBundlesThreeWayWithPolicies bundles 2 ⟨some .keepLocal, none⟩ 0 =
        .ok (.ok (.merged m)) → KeepsPreferences bundles m := by
  intro bundles
  have valid : ∀ b ∈ bundles.toList, b.validate = .ok () := by decide +kernel
  refine ⟨valid, by decide, fun m run => ?_⟩
  exact ((merge_keeps_preferences_iff valid (by decide)).1 m run).mpr (.inl rfl)

/-- The preferences are lost, or the times that were taken from the base make the merge fail. -/
theorem legacy_merge_drops_preferences :
    (∀ times ∈ [[], [⟨.identity, 1, 7⟩]], ∀ b ∈ (legacyDevices times).toList,
      b.validate = .ok () ∧ b.schema ≠ .v6) ∧
    (legacyDevices []).base.preferences.isSome ∧
    mergeBundlesThreeWayWithPolicies (legacyDevices []) 2 ⟨none, none⟩ 0 = .ok (.ok (.merged
      { (legacyDevices []).loc with revision := 2 })) ∧
    mergeBundlesThreeWayWithPolicies (legacyDevices [⟨.identity, 1, 7⟩]) 2 ⟨none, none⟩ 0 =
      .ok (.error (.invalidBundle "update times require bundle v5")) := by
  refine ⟨by decide +kernel, rfl, by decide +kernel, by decide +kernel⟩

end NoriShell.Sync

import NoriShell.Sync.Validate

/-! What an accepted bundle satisfies, as a structure with one field for each
check.  Later proofs use these fields and never unfold the checks. -/

namespace NoriShell.Sync

open Collections Collections.Check

@[simp] theorem validateCount_eq_ok {count : Nat} {name : String} {u : Unit} :
    validateCount count name = .ok u ↔ count ≤ maxObjectsPerKind := by
  simp [validateCount]

namespace PortableBundleV1

structure ScopeValid (b : PortableBundleV1) (selected : List PortableDataCategory) : Prop where
  schema : b.schema = .v6
  nonempty : selected ≠ []
  bounded : selected.length ≤ 3
  sorted : selected.Pairwise (· < ·)
  nodes : ∀ n ∈ b.allNodes, PortableDataCategory.forKind n.kind ∈ selected
  skipped : .credentials ∉ selected → b.skippedMachineBound = []

structure Valid (b : PortableBundleV1) : Prop where
  scope : ∀ selected, b.selectedCategories = some selected → b.ScopeValid selected
  revision : b.revision ≠ 0
  skippedCount : b.skippedMachineBound.length ≤ maxObjectsPerKind
  tombstoneCount : b.tombstones.length ≤ maxObjectsPerKind
  itemCount : ∀ k, (b.items k).length ≤ maxObjectsPerKind
  tombstoneSchema : b.schema = .v1 → b.tombstones = []
  modeSchema : b.schema ≠ .v6 → ∀ d ∈ b.objects.desktopProfiles, d.requiresModeSchema = false
  desktopSchema : b.schema.supportsDesktopProfiles = false → b.objects.desktopProfiles = []
  desktopTombstoneSchema : b.schema.supportsDesktopProfiles = false →
    ∀ t ∈ b.tombstones, t.kind ≠ .desktopProfile
  preferences : b.validatePreferences = .ok ()
  values : ∀ k, ∀ v ∈ b.items k, k.validateValue v = .ok ()
  timeSchema : b.schema.supportsUpdateTimes = false →
    b.updateTimes = [] ∧ b.preferenceUpdateTimes.toList = []
  timeCount : b.updateTimes.length ≤ 12 * maxObjectsPerKind
  timePositive : ∀ t ∈ b.updateTimes, 0 < t.updateTimeUnixMs
  timePresent : ∀ t ∈ b.updateTimes, t.node ∈ b.allNodes
  timeUnique : (b.updateTimes.map PortableItemUpdateTime.node).Nodup
  preferenceTimes : ∀ e ∈ b.preferenceUpdateTimes.toList, 0 < e.2 ∧ b.hasPreferenceGroup e.1
  idsProper : ∀ id ∈ b.allIds, id ≠ PortableObjectId.nil
  idsUnique : b.allIds.Nodup
  secretsSelected : ∀ s ∈ b.secrets, s.selectedByUser
  references : ∀ k, ∀ v ∈ b.items k, b.dangling k v = false

theorem zip_tail_any_ge {l : List PortableDataCategory} :
    (l.zip l.tail).any (fun pair => decide (pair.1 ≥ pair.2)) = false ↔ l.Pairwise (· < ·) := by
  rw [← List.isChain_iff_pairwise]
  induction l with
  | nil => simp
  | cons a l ih =>
    cases l with
    | nil => simp
    | cons b l =>
      simp only [List.tail_cons, List.zip_cons_cons, List.any_cons, Bool.or_eq_false_iff,
        decide_eq_false_iff_not, not_le, List.isChain_cons_cons]
      exact and_congr_right fun _ => ih

variable {b : PortableBundleV1}

theorem validateSelectedCategories_eq_ok
    {selected : List PortableDataCategory} :
    b.validateSelectedCategories selected = .ok () ↔ b.ScopeValid selected := by
  simp only [validateSelectedCategories, bind_unit_eq_ok, reject_eq_ok, not_or, not_not,
    Bool.not_eq_true, zip_tail_any_ge]
  constructor
  · rintro ⟨⟨schema, nonempty, bounded, sorted⟩, nodes, skipped⟩
    exact ⟨schema, nonempty, not_lt.mp bounded, sorted, by simpa using nodes, by simpa using skipped⟩
  · rintro ⟨schema, nonempty, bounded, sorted, nodes, skipped⟩
    exact ⟨⟨schema, nonempty, not_lt.mpr bounded, sorted⟩, by simpa using nodes,
      by simpa using skipped⟩

theorem validateUpdateTimes_eq_ok {present timed : List ObjectNode}
    {l : List PortableItemUpdateTime} :
    validateUpdateTimes present timed l = .ok () ↔
      (∀ t ∈ l, 0 < t.updateTimeUnixMs) ∧ (∀ t ∈ l, t.node ∈ present) ∧
        (l.map PortableItemUpdateTime.node).Nodup ∧ ∀ t ∈ l, t.node ∉ timed := by
  induction l generalizing timed with
  | nil => simp [validateUpdateTimes]
  | cons t l ih =>
    simp only [validateUpdateTimes, bind_unit_eq_ok, reject_eq_ok, ih, List.forall_mem_cons,
      List.map_cons, List.nodup_cons]
    simp only [List.mem_map, List.mem_cons]
    push Not
    constructor
    · rintro ⟨⟨pos, mem, new⟩, poss, mems, nodup, news⟩
      exact ⟨⟨pos, poss⟩, ⟨mem, mems⟩, ⟨fun t ht => (news t ht).1, nodup⟩, new,
        fun t ht => (news t ht).2⟩
    · rintro ⟨⟨pos, poss⟩, ⟨mem, mems⟩, ⟨ne, nodup⟩, new, news⟩
      exact ⟨⟨pos, mem, new⟩, poss, mems, nodup, fun t ht => ⟨ne t ht, news t ht⟩⟩

theorem validateIds_eq_ok {seen l : List PortableObjectId} : validateIds seen l = .ok () ↔
      (∀ id ∈ l, id ≠ PortableObjectId.nil) ∧ l.Nodup ∧ ∀ id ∈ l, id ∉ seen := by
  induction l generalizing seen with
  | nil => simp [validateIds]
  | cons id l ih =>
    simp only [validateIds, bind_unit_eq_ok, reject_eq_ok, ih, List.forall_mem_cons,
      List.nodup_cons]
    simp only [List.mem_cons, not_or]
    constructor
    · rintro ⟨proper, new, propers, nodup, news⟩
      exact ⟨⟨proper, propers⟩, ⟨fun h => (news id h).1 rfl, nodup⟩, new, fun i h => (news i h).2⟩
    · rintro ⟨⟨proper, propers⟩, ⟨notMem, nodup⟩, new, news⟩
      exact ⟨proper, new, propers, nodup, fun i h => ⟨fun eq => notMem (eq ▸ h), news i h⟩⟩

theorem validateObjects_eq_ok : b.validateObjects = .ok () ↔
      (∀ k, k ≠ .secret → (b.items k).length ≤ maxObjectsPerKind) ∧
        ∀ k, ∀ v ∈ b.items k, k.validateValue v = .ok () := by
  simp only [validateObjects, bind_unit_eq_ok, each_eq_ok, validateCount_eq_ok,
    PortableObjectKind.mem_objectKinds]
  refine and_congr_right fun _ => ⟨fun h k => ?_, fun h k _ => h k⟩
  by_cases secret : k = .secret
  · subst secret
    intro v _
    rfl
  · exact h k secret

theorem validateReferences_eq_ok :
    b.validateReferences = .ok () ↔ ∀ k, ∀ v ∈ b.items k, b.dangling k v = false := by
  simp [validateReferences, PortableObjectKind.mem_all]

theorem validateScope_eq_ok : b.validateScope = .ok () ↔
      ∀ selected, b.selectedCategories = some selected → b.ScopeValid selected := by
  unfold validateScope
  cases b.selectedCategories with
  | none => simp
  | some selected => simp [validateSelectedCategories_eq_ok]

theorem validate_eq_ok : b.validate = .ok () ↔ b.Valid := by
  simp only [validate, bind_unit_eq_ok, reject_eq_ok, validateScope_eq_ok, validateCount_eq_ok,
    validateObjects_eq_ok, validateUpdateTimes_eq_ok, validateIds_eq_ok, validateReferences_eq_ok,
    each_eq_ok]
  constructor
  · rintro ⟨scope, revision, secretCount, skippedCount, tombstoneCount, tombstoneSchema, modeSchema,
      desktopSchema, desktopTombstoneSchema, preferences, ⟨counts, values⟩, timeSchema, timeCount,
      ⟨timePositive, timePresent, timeUnique, -⟩, preferenceTimes, ⟨idsProper, idsUnique, -⟩,
      secretsSelected, references⟩
    refine ⟨scope, revision, skippedCount, tombstoneCount, ?_, ?_, ?_, ?_, ?_, preferences, values,
      ?_, ?_, timePositive, timePresent, timeUnique, ?_, idsProper, idsUnique, ?_, references⟩
    · intro k
      by_cases secret : k = .secret
      · subst secret
        exact secretCount
      · exact counts k secret
    · simpa using tombstoneSchema
    · simpa [requiresDesktopModeSchema] using modeSchema
    · simpa using desktopSchema
    · simpa using desktopTombstoneSchema
    · simpa using timeSchema
    · simpa using timeCount
    · simpa using preferenceTimes
    · simpa using secretsSelected
  · rintro h
    refine ⟨h.scope, h.revision, h.itemCount .secret, h.skippedCount, h.tombstoneCount, ?_, ?_, ?_,
      ?_, h.preferences, ⟨fun k _ => h.itemCount k, h.values⟩, ?_, ?_,
      ⟨h.timePositive, h.timePresent, h.timeUnique, by simp⟩, ?_,
      ⟨h.idsProper, h.idsUnique, by simp⟩, ?_, h.references⟩
    · simpa using h.tombstoneSchema
    · simpa [requiresDesktopModeSchema] using h.modeSchema
    · simpa using h.desktopSchema
    · simpa using h.desktopTombstoneSchema
    · simpa using h.timeSchema
    · simpa using h.timeCount
    · simpa using h.preferenceTimes
    · simpa using h.secretsSelected

end PortableBundleV1

end NoriShell.Sync

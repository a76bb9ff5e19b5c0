import NoriShell.Sync.MergeLaws

namespace NoriShell.Sync

open Collections

namespace PortablePreferencesV1

def groupNames : List String :=
  groupShapes.map Prod.fst

theorem nodup_groupNames : groupNames.Nodup := by
  decide

variable {p : PortablePreferencesV1}

theorem validate_header (h : p.validate = .ok ()) :
    p.product = "NoriShell" ∧ p.version = 1 ∧ p.groups.size = groupNames.length := by
  simp only [validate, Check.bind_unit_eq_ok, Check.reject_eq_ok, not_or, not_not] at h
  exact ⟨h.1.1, h.1.2.1, h.1.2.2.trans (List.length_map _).symm⟩

theorem validate_groups (h : p.validate = .ok ()) {group : String} (mem : group ∈ groupNames) :
    group ∈ p.groups.keys := by
  simp only [validate, Check.bind_unit_eq_ok, Check.each_eq_ok] at h
  obtain ⟨⟨group, keys⟩, entry, rfl⟩ := List.mem_map.mp mem
  have checked := h.2.2 _ entry
  simp only [validateGroup] at checked
  rw [BTreeMap.mem_keys]
  cases found : p.groups.get? group with
  | none => simp [found] at checked
  | some value => exact ⟨value, rfl⟩

theorem mem_keys_iff (h : p.validate = .ok ()) {group : String} :
    group ∈ p.groups.keys ↔ group ∈ groupNames := by
  have sub : groupNames ⊆ p.groups.keys := fun _ mem => validate_groups h mem
  have perm : groupNames.Perm p.groups.keys := by
    refine (nodup_groupNames.subperm sub).perm_of_length_le ?_
    rw [BTreeMap.length_keys, (validate_header h).2.2]
  exact perm.mem_iff.symm

end PortablePreferencesV1

theorem PortableBundleV1.Valid.preferences_valid {b : PortableBundleV1} (h : b.Valid)
    {p : PortablePreferencesV1} (eq : b.preferences = some p) : p.validate = .ok () := by
  have checked := h.preferences
  unfold PortableBundleV1.validatePreferences at checked
  rw [eq] at checked
  cases schema : b.schema <;> simp_all

section

variable {bundles : ThreeSides PortableBundleV1} {loc remote : PortablePreferencesV1}

/-- The choice for a group that both sides have; a group that one side lacks is
never asked for. -/
def groupChoice (bundles : ThreeSides PortableBundleV1)
    (resolution : Option BundleConflictResolution) (now : Int) (loc remote : PortablePreferencesV1)
    (group : String) : Option (JsonValue × Bool) :=
  match loc.groups.get? group, remote.groups.get? group with
  | some locValue, some remoteValue =>
    some (mergePreferenceGroup bundles resolution now group locValue remoteValue)
  | _, _ => none

def conflictGroups (bundles : ThreeSides PortableBundleV1)
    (resolution : Option BundleConflictResolution) (now : Int)
    (loc remote : PortablePreferencesV1) : List String :=
  loc.groups.keys.filter fun group =>
    (groupChoice bundles resolution now loc remote group).any Prod.snd

theorem foldl_groupChoice (choice : String × JsonValue → JsonValue × Bool)
    (entries : List (String × JsonValue)) (groups : BTreeMap String JsonValue) (count : Nat) :
    entries.foldl (fun (acc : BTreeMap String JsonValue × Nat) entry =>
      (acc.1.insert entry.1 (choice entry).1, if (choice entry).2 then acc.2 + 1 else acc.2))
      (groups, count) =
    (groups.extend (entries.map fun entry => (entry.1, (choice entry).1)),
      count + (entries.filter fun entry => (choice entry).2).length) := by
  induction entries generalizing groups count with
  | nil => rfl
  | cons entry entries ih =>
    rw [List.foldl_cons, ih]
    cases conflict : (choice entry).2 with
    | false => simp [BTreeMap.extend, conflict]
    | true =>
      simp only [BTreeMap.extend, List.map_cons, List.foldl_cons, List.filter_cons, conflict,
        if_true, List.length_cons, Prod.mk.injEq, true_and]
      omega

theorem mergePreferences_eq (resolution : Option BundleConflictResolution) (now : Int)
    (hloc : bundles.loc.preferences = some loc)
    (hremote : bundles.remote.preferences = some remote)
    (keys : ∀ group, group ∈ loc.groups.keys → group ∈ remote.groups.keys) :
    ∃ groups, mergePreferences bundles resolution now = .ok (some { loc with groups := groups },
          (conflictGroups bundles resolution now loc remote).length) ∧
      ∀ group, groups.get? group =
        (groupChoice bundles resolution now loc remote group).map Prod.fst := by
  let choice (entry : String × JsonValue) : JsonValue × Bool :=
    (groupChoice bundles resolution now loc remote entry.1).getD (entry.2, false)
  have chosen (entry) (mem : entry ∈ loc.groups.toList) :
      ∃ remoteValue, remote.groups.get? entry.1 = some remoteValue ∧
        groupChoice bundles resolution now loc remote entry.1 =
          some (mergePreferenceGroup bundles resolution now entry.1 entry.2 remoteValue) := by
    have here := BTreeMap.mem_toList.mp (show (entry.1, entry.2) ∈ loc.groups.toList from mem)
    obtain ⟨remoteValue, there⟩ :=
      BTreeMap.mem_keys.mp (keys entry.1 (BTreeMap.mem_keys.mpr ⟨_, here⟩))
    exact ⟨remoteValue, there, by simp [groupChoice, here, there]⟩
  have run : mergePreferences bundles resolution now = .ok (some { loc with
      groups := loc.groups.extend (loc.groups.toList.map fun entry => (entry.1, (choice entry).1)) },
      (loc.groups.toList.filter fun entry => (choice entry).2).length) := by
    simp only [mergePreferences, hloc, hremote]
    rw [Check.foldlM_eq_ok (g := fun acc entry =>
      (acc.1.insert entry.1 (choice entry).1, if (choice entry).2 then acc.2 + 1 else acc.2)),
      foldl_groupChoice, Nat.zero_add]
    · rfl
    · intro acc entry mem
      obtain ⟨remoteValue, there, eq⟩ := chosen entry mem
      simp [there, choice, eq]
  have count : (loc.groups.toList.filter fun entry => (choice entry).2).length =
      (conflictGroups bundles resolution now loc remote).length := by
    rw [conflictGroups, BTreeMap.keys, List.filter_map, List.length_map]
    congr 1
    refine List.filter_congr fun entry mem => ?_
    obtain ⟨remoteValue, -, eq⟩ := chosen entry mem
    simp [choice, eq]
  refine ⟨_, count ▸ run, fun group => ?_⟩
  have fst : (loc.groups.toList.map fun entry => (entry.1, (choice entry).1)).map Prod.fst =
      loc.groups.keys := by
    simp [BTreeMap.keys]
  cases here : loc.groups.get? group with
  | none =>
    have notMem : group ∉ loc.groups.keys := by simp [BTreeMap.mem_keys, here]
    rw [BTreeMap.get?_extend_of_notMem (fst ▸ notMem), here]
    simp [groupChoice, here]
  | some value =>
    have mem := BTreeMap.mem_toList.mpr here
    obtain ⟨remoteValue, -, eq⟩ := chosen (group, value) mem
    have entry : (group, (choice (group, value)).1) ∈
        loc.groups.toList.map fun entry => (entry.1, (choice entry).1) :=
      List.mem_map.mpr ⟨(group, value), mem, rfl⟩
    rw [BTreeMap.get?_extend_of_mem (fst ▸ loc.groups.keys_nodup) entry]
    simp [choice, eq]

theorem mergePreferences_cases (hloc : bundles.loc.Valid) (hremote : bundles.remote.Valid)
    (resolution : Option BundleConflictResolution) (now : Int) :
    (bundles.loc.preferences = none ∨ bundles.remote.preferences = none) ∧
        mergePreferences bundles resolution now =
          .ok (bundles.loc.preferences.or bundles.remote.preferences, 0) ∨
      ∃ loc remote groups, bundles.loc.preferences = some loc ∧
        bundles.remote.preferences = some remote ∧
        mergePreferences bundles resolution now = .ok (some { loc with groups := groups },
          (conflictGroups bundles resolution now loc remote).length) ∧
        ∀ group, groups.get? group =
          (groupChoice bundles resolution now loc remote group).map Prod.fst := by
  cases locEq : bundles.loc.preferences with
  | none => exact .inl ⟨.inl rfl, by rw [mergePreferences, locEq]; rfl⟩
  | some loc =>
    cases remoteEq : bundles.remote.preferences with
    | none => exact .inl ⟨.inr rfl, by rw [mergePreferences, locEq, remoteEq]; rfl⟩
    | some remote =>
      obtain ⟨groups, run, get⟩ := mergePreferences_eq resolution now locEq remoteEq
          fun group mem => by
        rwa [PortablePreferencesV1.mem_keys_iff (hremote.preferences_valid remoteEq),
          ← PortablePreferencesV1.mem_keys_iff (hloc.preferences_valid locEq)]
      exact .inr ⟨loc, remote, groups, rfl, rfl, run, get⟩

end

end NoriShell.Sync

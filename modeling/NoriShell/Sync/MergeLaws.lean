import NoriShell.Sync.NodeLaws

namespace NoriShell.Sync

open Collections ThreeWay

section

variable {T : Type}

theorem mem_nodeIds {kind : PortableObjectKind}
    {values : ThreeSides (BTreeMap PortableObjectId T)}
    {tombstones : ThreeSides (BTreeSet ObjectNode)} {id : PortableObjectId} :
    id ∈ nodeIds kind values tombstones ↔ (∃ m ∈ values.toList, ∃ v, m.get? id = some v) ∨
        ∃ t ∈ tombstones.toList, (⟨kind, id⟩ : ObjectNode) ∈ t := by
  simp only [nodeIds, BTreeSet.mem_ofList, List.mem_append, List.mem_flatMap, BTreeMap.mem_keys,
    List.mem_filterMap, BTreeSet.mem_toList, Option.ite_none_right_eq_some, Option.some.injEq]
  refine or_congr_right (exists_congr fun t => and_congr_right fun _ => ?_)
  constructor
  · rintro ⟨⟨k, i⟩, mem, rfl, rfl⟩
    exact mem
  · exact fun mem => ⟨_, mem, rfl, rfl⟩

theorem foldl_recordSelected (a : PortableObjectId → Applied T) (ids : List PortableObjectId)
    (output : List T × List PortableObjectId) :
    ids.foldl (fun output id => recordSelected output id (a id)) output =
      (output.1 ++ ids.filterMap fun id => (a id).value,
        output.2 ++ ids.filter fun id => (a id).value.isNone && (a id).tombstone) := by
  induction ids generalizing output with
  | nil => simp
  | cons id ids ih =>
    rw [List.foldl_cons, ih]
    cases value : (a id).value with
    | some v => simp [recordSelected, value]
    | none => cases tombstone : (a id).tombstone <;> simp [recordSelected, value, tombstone]

variable [DecidableEq T]

theorem mergeValues_eq {kind : PortableObjectKind} {values : ThreeSides (List T)}
    {tombstones : ThreeSides (BTreeSet ObjectNode)} {id : T → PortableObjectId}
    {resolvedSides : ResolvedSides} {a : PortableObjectId → Applied T}
    (h : ∀ i, selectAt kind values tombstones id resolvedSides i = .ok (a i)) :
    mergeValues kind values tombstones id resolvedSides =
      .ok ((nodeIds kind (values.map (valueMap · id)) tombstones).toList.filterMap
          fun i => (a i).value,
        (nodeIds kind (values.map (valueMap · id)) tombstones).toList.filter
          fun i => (a i).value.isNone && (a i).tombstone) := by
  rw [mergeValues, Check.foldlM_eq_ok (g := fun output i => recordSelected output i (a i)),
    foldl_recordSelected]
  · simp
  · intro output i _
    rw [h i]
    rfl

end

section

variable {bundles : ThreeSides PortableBundleV1} {resolvedSides : ResolvedSides}
  {values : (k : PortableObjectKind) → List k.Value}
  {deleted : PortableObjectKind → List PortableObjectId}

theorem mergeKind_eq
    (h : ∀ k, mergeValues k (bundles.map (·.items k)) (bundles.map tombstoneSet) k.valueId
      resolvedSides = .ok (values k, deleted k)) (output : MergeOutput)
    (kind : PortableObjectKind) :
    mergeKind bundles resolvedSides output kind =
      .ok (output.record kind (values kind, deleted kind)) := by
  rw [mergeKind, h kind]
  rfl

variable {output : MergeOutput}

theorem mem_record_tombstones {kind : PortableObjectKind}
    (empty : output.items kind = []) {n : ObjectNode} :
    n ∈ (output.record kind (values kind, deleted kind)).tombstones ↔
      if n.kind = kind then
        (n ∈ output.tombstones ∨ n.id ∈ deleted n.kind) ∧ n.id ∉ (values n.kind).map n.kind.valueId
      else n ∈ output.tombstones := by
  obtain ⟨k, i⟩ := n
  simp only [MergeOutput.record, empty, List.nil_append, BTreeSet.mem_eraseAll, BTreeSet.mem_extend,
    List.mem_map, PortableObjectKind.node, ObjectNode.mk.injEq]
  by_cases eq : k = kind
  · subst eq
    simp
  · simp [eq, Ne.symm eq]

theorem foldl_record (values : (k : PortableObjectKind) → List k.Value)
    (deleted : PortableObjectKind → List PortableObjectId) (output : MergeOutput)
    {kinds : List PortableObjectKind} (nodup : kinds.Nodup)
    (empty : ∀ k ∈ kinds, output.items k = []) :
    let recorded := kinds.foldl (fun output k => output.record k (values k, deleted k)) output
    (∀ k, recorded.items k = if k ∈ kinds then values k else output.items k) ∧
      ∀ n, n ∈ recorded.tombstones ↔
        if n.kind ∈ kinds then
          (n ∈ output.tombstones ∨ n.id ∈ deleted n.kind) ∧
            n.id ∉ (values n.kind).map n.kind.valueId
        else n ∈ output.tombstones := by
  induction kinds generalizing output with
  | nil => simp
  | cons kind kinds ih =>
    obtain ⟨notMem, nodup⟩ := List.nodup_cons.mp nodup
    obtain ⟨items, tombstones⟩ := ih _ nodup (fun k mem => by
      have ne : k ≠ kind := fun eq => notMem (eq ▸ mem)
      simp [MergeOutput.record, ne, empty k (List.mem_cons_of_mem _ mem)] :
        ∀ k ∈ kinds, (output.record kind (values kind, deleted kind)).items k = [])
    refine ⟨fun k => (items k).trans ?_, fun n => (tombstones n).trans ?_⟩
    · by_cases eq : k = kind
      · subst eq
        simp [MergeOutput.record, notMem, empty k List.mem_cons_self]
      · simp [MergeOutput.record, eq]
    · rw [mem_record_tombstones (empty kind List.mem_cons_self)]
      by_cases eq : n.kind = kind
      · have off : n.kind ∉ kinds := fun mem => notMem (eq ▸ mem)
        simp only [eq, if_neg (eq ▸ off), if_true, List.mem_cons_self]
      · simp [eq]

theorem mergeKinds_eq
    (h : ∀ k, mergeValues k (bundles.map (·.items k)) (bundles.map tombstoneSet) k.valueId
      resolvedSides = .ok (values k, deleted k)) :
    ∃ output, mergeKinds bundles resolvedSides = .ok output ∧ output.items = values ∧
      ∀ n, n ∈ output.tombstones ↔ (n ∈ bundles.base.tombstoneNodes ∨ n.id ∈ deleted n.kind) ∧
          n.id ∉ (output.items n.kind).map n.kind.valueId := by
  obtain ⟨items, tombstones⟩ := foldl_record values deleted
    ⟨fun _ => [], tombstoneSet bundles.base⟩ PortableObjectKind.nodup_all fun _ _ => rfl
  have all (k) := (items k).trans (if_pos k.mem_all)
  refine ⟨_, Check.foldlM_eq_ok (fun output kind _ => mergeKind_eq h output kind) _,
    funext all, fun n => (tombstones n).trans ?_⟩
  rw [if_pos n.kind.mem_all, all, tombstoneSet, BTreeSet.mem_ofList]

end

/-- The inputs that pass the gate: valid bundles that are either all before
version six, or all of version six with one category scope. -/
structure Mergeable (bundles : ThreeSides PortableBundleV1) : Prop where
  base : bundles.base.Valid
  loc : bundles.loc.Valid
  remote : bundles.remote.Valid
  schemas : (∀ b ∈ bundles.toList, b.schema ≠ .v6) ∨ ∀ b ∈ bundles.toList, b.schema = .v6
  scopes : (∀ b ∈ bundles.toList, b.schema = .v6) →
    ∀ b ∈ bundles.toList, normalizedScope b = normalizedScope bundles.base

theorem allV6_iff {bundles : ThreeSides PortableBundleV1} :
    allV6 bundles ↔ ∀ b ∈ bundles.toList, b.schema = .v6 := by
  simp [allV6]

theorem mergeGate_eq_ok {bundles : ThreeSides PortableBundleV1} :
    mergeGate bundles = .ok () ↔ Mergeable bundles := by
  simp only [mergeGate, Check.bind_unit_eq_ok, Check.reject_eq_ok,
    PortableBundleV1.validate_eq_ok, allV6_iff, not_and, List.any_eq_true, decide_eq_true_eq,
    not_exists]
  constructor
  · rintro ⟨base, loc, remote, schemas, scopes⟩
    refine ⟨base, loc, remote, ?_, fun v6 => ?_⟩
    · by_cases v6 : ∀ b ∈ bundles.toList, b.schema = .v6
      · exact .inr v6
      · exact .inl (schemas v6)
    · have same := scopes v6
      simp only [not_or, not_not] at same
      simp [ThreeSides.toList, same]
  · intro h
    refine ⟨h.base, h.loc, h.remote, fun v6 => h.schemas.resolve_right v6, fun v6 => ?_⟩
    have same := h.scopes v6
    simp only [ThreeSides.toList, List.forall_mem_cons] at same
    simp [same]

def mergedState (bundles : ThreeSides PortableBundleV1) (k : PortableObjectKind)
    (id : PortableObjectId) : Option (State k.Value) :=
  State.merge (bundles.base.nodeState k id) (bundles.loc.nodeState k id)
    (bundles.remote.nodeState k id)

namespace Mergeable

variable {bundles : ThreeSides PortableBundleV1}

theorem valid_of_mem (h : Mergeable bundles) {b : PortableBundleV1} (mem : b ∈ bundles.toList) :
    b.Valid := by
  simp only [ThreeSides.toList, List.mem_cons, List.not_mem_nil, or_false] at mem
  rcases mem with rfl | rfl | rfl
  · exact h.base
  · exact h.loc
  · exact h.remote

theorem selectAt_eq (h : Mergeable bundles) {k : PortableObjectKind} {id : PortableObjectId}
    {resolvedSides : ResolvedSides} :
    selectAt k (bundles.map (·.items k)) (bundles.map tombstoneSet) k.valueId resolvedSides id =
      selectNode (resolvedSides.get? ⟨k, id⟩) (Held.ofState (bundles.base.nodeState k id))
        (Held.ofState (bundles.loc.nodeState k id))
        (Held.ofState (bundles.remote.nodeState k id)) := by
  rw [← held_eq_ofState h.base, ← held_eq_ofState h.loc, ← held_eq_ofState h.remote]
  rfl

theorem mem_nodeIds_iff (h : Mergeable bundles) {k : PortableObjectKind} {id : PortableObjectId} :
    id ∈ nodeIds k ((bundles.map (·.items k)).map (valueMap · k.valueId))
        (bundles.map tombstoneSet) ↔
      ∃ b ∈ bundles.toList, b.nodeState k id ≠ .absent := by
  have known : ∀ b ∈ bundles.toList, b.nodeState k id ≠ .absent ↔
      (∃ v, (valueMap (b.items k) k.valueId).get? id = some v) ∨
        (⟨k, id⟩ : ObjectNode) ∈ tombstoneSet b := by
    intro b mem
    have eq := held_eq_ofState (h.valid_of_mem mem) k id
    simp only [held] at eq
    cases state : b.nodeState k id <;> simp_all [Held.ofState]
  rw [mem_nodeIds]
  simp only [ThreeSides.toList, ThreeSides.map, List.mem_cons, List.not_mem_nil, or_false,
    exists_eq_or_imp, exists_eq_left] at known ⊢
  rw [known _ (.inl rfl), known _ (.inr (.inl rfl)), known _ (.inr (.inr rfl))]
  tauto

theorem mem_conflictNodes (h : Mergeable bundles) {n : ObjectNode} :
    n ∈ collectConflictNodes bundles ↔ mergedState bundles n.kind n.id = none := by
  obtain ⟨k, id⟩ := n
  have conflict : conflicting
      (held k (valueMap (bundles.base.items k) k.valueId) (tombstoneSet bundles.base) id)
      (held k (valueMap (bundles.loc.items k) k.valueId) (tombstoneSet bundles.loc) id)
      (held k (valueMap (bundles.remote.items k) k.valueId) (tombstoneSet bundles.remote) id) ↔
      mergedState bundles k id = none := by
    rw [held_eq_ofState h.base, held_eq_ofState h.loc, held_eq_ofState h.remote,
      conflicting_ofState, decide_eq_true_eq, mergedState]
  have known (none : mergedState bundles k id = none) :
      id ∈ nodeIds k ((bundles.map (·.items k)).map (valueMap · k.valueId))
        (bundles.map tombstoneSet) := by
    rw [h.mem_nodeIds_iff]
    by_contra unknown
    push Not at unknown
    have absent := fun b mem => unknown b mem
    simp only [ThreeSides.toList, List.forall_mem_cons] at absent
    simp [mergedState, absent, State.merge_same] at none
  simp only [collectConflictNodes, BTreeSet.mem_ofList, List.mem_flatMap, conflictIds,
    List.mem_map, List.mem_filter, BTreeSet.mem_toList, ObjectNode.mk.injEq]
  constructor
  · rintro ⟨k', -, i, ⟨-, conf⟩, rfl, rfl⟩
    exact conflict.mp conf
  · intro none
    exact ⟨k, k.mem_all, id, ⟨known none, conflict.mpr none⟩, rfl, rfl⟩

end Mergeable

end NoriShell.Sync

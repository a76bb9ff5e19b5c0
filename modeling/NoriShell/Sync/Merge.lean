import NoriShell.Sync.Graph

/-! The three-way merge of bundles.  A panic of the source is an outer error, a
rejected input an inner one. -/

namespace NoriShell.Sync

open Collections

inductive BundleMergeOutcome
  | merged (bundle : PortableBundleV1)
  | conflicts (count : Nat)
  deriving DecidableEq

inductive BundleConflictResolution
  | keepLocal
  | useRemote
  | newest
  deriving DecidableEq

/-- The places where the merge would abort the process. -/
inductive MergePanic
  | newestSide
  | unresolvedConflict
  | emptyComponent
  | missingPreferenceGroup
  deriving DecidableEq

abbrev ResolvedSides := BTreeMap ObjectNode BundleConflictResolution

def maxFutureClockSkewMs : Int := 5 * 60 * 1000

def saturatingAdd (a b : Int) : Int :=
  max (-2 ^ 63) (min (2 ^ 63 - 1) (a + b))

inductive Edit (T : Type)
  | noOpinion
  | value (v : T)
  | omitted
  | delete

structure Applied (T : Type) where
  value : Option T
  tombstone : Bool
  deriving DecidableEq

namespace Edit

variable {T : Type}

def isOpinion : Edit T → Bool
  | .noOpinion => false
  | _ => true

end Edit

section

variable {T : Type}

def editFor (basePresent : Bool) (value : Option T) (deleted : Bool) : Edit T :=
  match value, deleted, basePresent with
  | some value, false, _ => .value value
  | none, true, _ => .delete
  | none, false, true => .omitted
  | _, _, _ => .noOpinion

def applyEdit (base : Option T) : Edit T → Applied T
  | .noOpinion => ⟨base, false⟩
  | .value v => ⟨some v, false⟩
  | .omitted => ⟨none, false⟩
  | .delete => ⟨none, true⟩

def changed [DecidableEq T] (base : Option T) (baseDeleted : Bool) (edit : Edit T)
    (result : Applied T) : Bool :=
  edit.isOpinion && (result.value ≠ base || result.tombstone ≠ baseDeleted)

structure Held (T : Type) where
  value : Option T
  deleted : Bool

def Held.result (base side : Held T) : Applied T :=
  applyEdit base.value (editFor base.value.isSome side.value side.deleted)

def Held.changed [DecidableEq T] (base side : Held T) : Bool :=
  Sync.changed base.value base.deleted (editFor base.value.isSome side.value side.deleted)
    (base.result side)

def conflicting [DecidableEq T] (base loc remote : Held T) : Bool :=
  base.changed loc && base.changed remote &&
    ((base.result loc).value ≠ (base.result remote).value ||
      (base.result loc).tombstone ≠ (base.result remote).tombstone)

def selectNode [DecidableEq T] (side : Option BundleConflictResolution)
    (base loc remote : Held T) : Except MergePanic (Applied T) :=
  match side with
  | some .keepLocal => .ok (base.result loc)
  | some .useRemote => .ok (base.result remote)
  | some .newest => .error .newestSide
  | none =>
    match base.changed loc, base.changed remote with
    | false, false => .ok ⟨base.value, base.deleted⟩
    | true, false => .ok (base.result loc)
    | false, true => .ok (base.result remote)
    | true, true =>
      if (base.result loc).value = (base.result remote).value then
        .ok ⟨(base.result loc).value, (base.result loc).tombstone || (base.result remote).tombstone⟩
      else .error .unresolvedConflict

end

structure ThreeSides (α : Type) where
  base : α
  loc : α
  remote : α

namespace ThreeSides

variable {α β : Type}

def map (f : α → β) (s : ThreeSides α) : ThreeSides β :=
  ⟨f s.base, f s.loc, f s.remote⟩

def toList (s : ThreeSides α) : List α :=
  [s.base, s.loc, s.remote]

def swap (s : ThreeSides α) : ThreeSides α :=
  ⟨s.base, s.remote, s.loc⟩

end ThreeSides

def tombstoneSet (b : PortableBundleV1) : BTreeSet ObjectNode :=
  .ofList b.tombstoneNodes

section

variable {T : Type}

def valueMap (values : List T) (id : T → PortableObjectId) : BTreeMap PortableObjectId T :=
  .ofList (values.map fun v => (id v, v))

def nodeIds (kind : PortableObjectKind) (values : ThreeSides (BTreeMap PortableObjectId T))
    (tombstones : ThreeSides (BTreeSet ObjectNode)) : BTreeSet PortableObjectId :=
  .ofList ((values.toList.flatMap BTreeMap.keys) ++ (tombstones.toList.flatMap fun set =>
      set.toList.filterMap fun node => if node.kind = kind then some node.id else none))

def held (kind : PortableObjectKind) (values : BTreeMap PortableObjectId T)
    (tombstones : BTreeSet ObjectNode) (id : PortableObjectId) : Held T :=
  ⟨values.get? id, decide (⟨kind, id⟩ ∈ tombstones)⟩

variable [DecidableEq T]

def selectAt (kind : PortableObjectKind) (values : ThreeSides (List T))
    (tombstones : ThreeSides (BTreeSet ObjectNode)) (id : T → PortableObjectId)
    (resolvedSides : ResolvedSides) (valueId : PortableObjectId) :
    Except MergePanic (Applied T) :=
  selectNode (resolvedSides.get? ⟨kind, valueId⟩)
    (held kind (valueMap values.base id) tombstones.base valueId)
    (held kind (valueMap values.loc id) tombstones.loc valueId)
    (held kind (valueMap values.remote id) tombstones.remote valueId)

def recordSelected (output : List T × List PortableObjectId) (valueId : PortableObjectId)
    (selected : Applied T) : List T × List PortableObjectId :=
  match selected.value with
  | some value => (output.1 ++ [value], output.2)
  | none => (output.1, if selected.tombstone then output.2 ++ [valueId] else output.2)

def mergeValues (kind : PortableObjectKind) (values : ThreeSides (List T))
    (tombstones : ThreeSides (BTreeSet ObjectNode)) (id : T → PortableObjectId)
    (resolvedSides : ResolvedSides) : Except MergePanic (List T × List PortableObjectId) :=
  (nodeIds kind (values.map (valueMap · id)) tombstones).toList.foldlM (fun output valueId =>
    (selectAt kind values tombstones id resolvedSides valueId).map
      (recordSelected output valueId)) ([], [])

def conflictIds (kind : PortableObjectKind) (values : ThreeSides (List T))
    (tombstones : ThreeSides (BTreeSet ObjectNode)) (id : T → PortableObjectId) :
    List ObjectNode :=
  let maps := values.map (valueMap · id)
  ((nodeIds kind maps tombstones).toList.filter fun valueId =>
    conflicting (held kind maps.base tombstones.base valueId)
      (held kind maps.loc tombstones.loc valueId)
      (held kind maps.remote tombstones.remote valueId)).map (ObjectNode.mk kind)

end

def collectConflictNodes (bundles : ThreeSides PortableBundleV1) : BTreeSet ObjectNode :=
  .ofList (PortableObjectKind.all.flatMap fun k =>
    conflictIds k (bundles.map (·.items k)) (bundles.map tombstoneSet) k.valueId)

def newestSide (loc remote : Option Int) (now : Int) : Option BundleConflictResolution :=
  match loc, remote with
  | some loc, some remote =>
    if loc ≤ 0 ∨ remote ≤ 0 ∨ loc > saturatingAdd now maxFutureClockSkewMs ∨
        remote > saturatingAdd now maxFutureClockSkewMs then none
    else if loc > remote then some .keepLocal
    else if loc < remote then some .useRemote
    else none
  | _, _ => none

def itemTime (b : PortableBundleV1) (node : ObjectNode) : Option Int :=
  (b.updateTimes.find? fun item => item.node = node).map (·.updateTimeUnixMs)

structure MergePolicies where
  conflict : Option BundleConflictResolution
  deletion : Option BundleConflictResolution

def memberSide (bundles : ThreeSides PortableBundleV1) (policies : MergePolicies) (now : Int)
    (member : ObjectNode) : Option BundleConflictResolution :=
  let newest := newestSide (itemTime bundles.loc member) (itemTime bundles.remote member) now
  let chosenIsDeletion := match newest with
    | some .keepLocal => bundles.loc.tombstones.any (·.node = member)
    | some .useRemote => bundles.remote.tombstones.any (·.node = member)
    | some .newest | none => false
  let policy := if chosenIsDeletion then policies.deletion else policies.conflict
  match policy with
  | some .newest => newest
  | some .keepLocal | some .useRemote => policy
  | none => none

/-- Takes the side of one more member; the choice stays consistent while each
member has a side and it is the side chosen before. -/
def chooseStep (side : ObjectNode → Option BundleConflictResolution)
    (acc : Option BundleConflictResolution × Bool) (member : ObjectNode) :
    Option BundleConflictResolution × Bool :=
  ((side member).or acc.1,
    if (side member).isNone || acc.1.any (fun previous => some previous ≠ side member) then false
    else acc.2)

def chooseComponent (side : ObjectNode → Option BundleConflictResolution)
    (component : List ObjectNode) : Option BundleConflictResolution × Bool :=
  component.foldl (chooseStep side) (none, true)

/-- The components of the conflict graph, decided one at a time.  Each round
removes at least the node it starts from, which bounds the fuel. -/
def resolveComponents (bundles : ThreeSides PortableBundleV1) (policies : MergePolicies)
    (now : Int) (conflicts : BTreeSet ObjectNode) :
    Nat → BTreeSet ObjectNode → ResolvedSides → Nat → Except MergePanic (ResolvedSides × Nat)
  | 0, _, sides, unresolved => .ok (sides, unresolved)
  | fuel + 1, remaining, sides, unresolved =>
    match remaining.toList.head? with
    | none => .ok (sides, unresolved)
    | some node =>
      let closure := expandConflictClosure bundles.toList (.ofList [node])
      let component := closure.toList.filter (· ∈ conflicts)
      let remaining := remaining.eraseAll component
      let (chosen, consistent) := chooseComponent (memberSide bundles policies now) component
      if consistent then
        match chosen with
        | none => .error .emptyComponent
        | some side =>
          resolveComponents bundles policies now conflicts fuel remaining
            (sides.extend (component.map (·, side))) unresolved
      else
        resolveComponents bundles policies now conflicts fuel remaining sides
          (unresolved + component.length)

/-- Every conflict on one side; bundles without update times take the whole
dependency closure to that side. -/
def resolveToSide (bundles : ThreeSides PortableBundleV1) (conflicts : BTreeSet ObjectNode)
    (side : BundleConflictResolution) : ResolvedSides :=
  let selected :=
    if bundles.toList.all (·.schema.supportsUpdateTimes) then conflicts
    else expandConflictClosure bundles.toList conflicts
  .ofList (selected.toList.map (·, side))

def resolveConflicts (bundles : ThreeSides PortableBundleV1) (conflicts : BTreeSet ObjectNode)
    (policies : MergePolicies) (now : Int) : Except MergePanic (ResolvedSides × Nat) :=
  if conflicts.toList = [] then .ok (.empty, 0)
  else
    match policies.conflict, policies.deletion with
    | none, none => .ok (.empty, conflicts.size)
    | some .keepLocal, some .keepLocal => .ok (resolveToSide bundles conflicts .keepLocal, 0)
    | some .useRemote, some .useRemote => .ok (resolveToSide bundles conflicts .useRemote, 0)
    | _, _ => resolveComponents bundles policies now conflicts conflicts.size conflicts .empty 0

/-- The value kept for one preference group, and whether it is in conflict. -/
def mergePreferenceGroup (bundles : ThreeSides PortableBundleV1)
    (resolution : Option BundleConflictResolution) (now : Int) (group : String)
    (locValue remoteValue : JsonValue) : JsonValue × Bool :=
  let baseValue := bundles.base.preferences.bind fun p => p.groups.get? group
  if locValue = remoteValue ∨ baseValue = some remoteValue then (locValue, false)
  else if baseValue = some locValue then (remoteValue, false)
  else
    match resolution with
    | some .useRemote => (remoteValue, false)
    | some .newest =>
      match newestSide (bundles.loc.preferenceUpdateTimes.get? group)
        (bundles.remote.preferenceUpdateTimes.get? group) now with
      | some .useRemote => (remoteValue, false)
      | some .keepLocal => (locValue, false)
      | _ => (locValue, true)
    | some .keepLocal => (locValue, false)
    | none => (locValue, true)

def mergePreferences (bundles : ThreeSides PortableBundleV1)
    (resolution : Option BundleConflictResolution) (now : Int) :
    Except MergePanic (Option PortablePreferencesV1 × Nat) :=
  match bundles.loc.preferences, bundles.remote.preferences with
  | some locPreferences, some remotePreferences => do
    let (merged, conflicts) ← locPreferences.groups.toList.foldlM
      (fun ((merged, conflicts) : BTreeMap String JsonValue × Nat) (group, locValue) =>
        match remotePreferences.groups.get? group with
        | none => .error .missingPreferenceGroup
        | some remoteValue =>
          let (chosen, conflict) :=
            mergePreferenceGroup bundles resolution now group locValue remoteValue
          .ok (merged.insert group chosen, if conflict then conflicts + 1 else conflicts))
      (locPreferences.groups, 0)
    pure (some { locPreferences with groups := merged }, conflicts)
  | locPreferences, remotePreferences => pure (locPreferences.or remotePreferences, 0)

structure MergeOutput where
  items : (k : PortableObjectKind) → List k.Value
  tombstones : BTreeSet ObjectNode

/-- Appends the values of one kind, and updates its tombstones: deletions are
added, the nodes of values removed. -/
def MergeOutput.record (output : MergeOutput) (kind : PortableObjectKind)
    (merged : List kind.Value × List PortableObjectId) : MergeOutput :=
  let values := output.items kind ++ merged.1
  { items := Function.update output.items kind values
    tombstones := (output.tombstones.extend (merged.2.map (ObjectNode.mk kind))).eraseAll
      (values.map kind.node) }

def mergeKind (bundles : ThreeSides PortableBundleV1) (resolvedSides : ResolvedSides)
    (output : MergeOutput) (kind : PortableObjectKind) : Except MergePanic MergeOutput :=
  (mergeValues kind (bundles.map (·.items kind)) (bundles.map tombstoneSet) kind.valueId
    resolvedSides).map (output.record kind)

def mergeKinds (bundles : ThreeSides PortableBundleV1) (resolvedSides : ResolvedSides) :
    Except MergePanic MergeOutput :=
  PortableObjectKind.all.foldlM (mergeKind bundles resolvedSides)
    ⟨fun _ => [], tombstoneSet bundles.base⟩

section

variable {κ : Type} [LinearOrder κ]

def noteTimes (times : BTreeMap κ Int) (key : κ) (known : List (Option Int)) : BTreeMap κ Int :=
  known.foldl (fun times time =>
    match time with
    | none => times
    | some time => times.upsert key (max · time) time) times

end

def mergeUpdateTimes (items : (k : PortableObjectKind) → List k.Value)
    (tombstones : List PortableTombstone) (bundles : ThreeSides PortableBundleV1) :
    List PortableItemUpdateTime :=
  let times := PortableObjectKind.all.foldl (fun times kind =>
    (items kind).foldl (fun times value =>
      noteTimes times (kind.node value) (bundles.toList.map fun bundle =>
        if value ∈ bundle.items kind then itemTime bundle (kind.node value) else none)) times)
    BTreeMap.empty
  let times := tombstones.foldl (fun times value =>
    noteTimes times value.node (bundles.toList.map fun bundle =>
      if value ∈ bundle.tombstones then itemTime bundle value.node else none)) times
  times.toList.map fun (node, time) => ⟨node.kind, node.id, time⟩

def mergePreferenceTimes (preferences : Option PortablePreferencesV1)
    (bundles : ThreeSides PortableBundleV1) : BTreeMap String Int :=
  match preferences with
  | none => .empty
  | some preferences =>
    preferences.groups.toList.foldl (fun times (group, selected) =>
      noteTimes times group (bundles.toList.map fun bundle =>
        if (bundle.preferences.bind fun p => p.groups.get? group) = some selected then
          bundle.preferenceUpdateTimes.get? group
        else none)) .empty

def normalizedScope (b : PortableBundleV1) : List PortableDataCategory :=
  b.selectedCategories.getD PortableDataCategory.all

def allV6 (bundles : ThreeSides PortableBundleV1) : Bool :=
  bundles.toList.all (·.schema = .v6)

/-- The checks before any merging: three valid bundles, and for version six the
same category scope. -/
def mergeGate (bundles : ThreeSides PortableBundleV1) : Except SyncCodecError Unit := do
  bundles.base.validate
  bundles.loc.validate
  bundles.remote.validate
  reject (¬allV6 bundles ∧ bundles.toList.any (·.schema = .v6))
    (.invalidBundle "mixed bundle v6 merge requires projection")
  reject (allV6 bundles ∧ (normalizedScope bundles.loc ≠ normalizedScope bundles.base ∨
      normalizedScope bundles.remote ≠ normalizedScope bundles.base))
    (.invalidBundle "bundle category scopes differ")

def mergedBundle (bundles : ThreeSides PortableBundleV1) (revision : Nat)
    (preferences : Option PortablePreferencesV1) (output : MergeOutput) : PortableBundleV1 :=
  let tombstones := output.tombstones.toList.map fun node => ⟨node.kind, node.id⟩
  let scope := normalizedScope bundles.base
  { schema := if allV6 bundles then .v6 else if preferences.isSome then .v5 else .v3
    selectedCategories := if allV6 bundles ∧ scope.length ≠ 3 then some scope else none
    revision := revision
    objects := .ofItems output.items
    preferences := preferences
    secrets := output.items .secret
    skippedMachineBound := bundles.loc.skippedMachineBound
    tombstones := tombstones
    updateTimes := mergeUpdateTimes output.items tombstones bundles
    preferenceUpdateTimes := mergePreferenceTimes preferences bundles }

/-- With a policy an unusable result is reported as one conflict, without one as
the error of its check. -/
def mergeFinish (policies : MergePolicies) (merged : PortableBundleV1) :
    Except SyncCodecError BundleMergeOutcome :=
  let checked : Except SyncCodecError Unit := do
    merged.validate
    merged.validateReverseReachability
  if (policies.conflict.isSome ∨ policies.deletion.isSome) ∧ checked ≠ .ok () then
    .ok (.conflicts 1)
  else do
    checked
    .ok (.merged merged)

/-- Version six carries no preferences through a merge. -/
def mergeCarriedPreferences (bundles : ThreeSides PortableBundleV1)
    (resolution : Option BundleConflictResolution) (now : Int) :
    Except MergePanic (Option PortablePreferencesV1 × Nat) :=
  if allV6 bundles then .ok (none, 0) else mergePreferences bundles resolution now

def mergeResolved (bundles : ThreeSides PortableBundleV1) (revision : Nat)
    (policies : MergePolicies) (resolved : ResolvedSides × Nat)
    (preferences : Option PortablePreferencesV1 × Nat) :
    Except MergePanic (Except SyncCodecError BundleMergeOutcome) :=
  if resolved.2 > 0 ∨ preferences.2 > 0 then
    .ok (.ok (.conflicts (min (resolved.2 + preferences.2) (2 ^ 32 - 1))))
  else
    (mergeKinds bundles resolved.1).map fun output =>
      mergeFinish policies (mergedBundle bundles revision preferences.1 output)

def mergeGated (bundles : ThreeSides PortableBundleV1) (revision : Nat)
    (policies : MergePolicies) (now : Int) :
    Except MergePanic (Except SyncCodecError BundleMergeOutcome) := do
  let resolved ← resolveConflicts bundles (collectConflictNodes bundles) policies now
  let preferences ← mergeCarriedPreferences bundles policies.conflict now
  mergeResolved bundles revision policies resolved preferences

/-- The merge at a wall-clock reading in milliseconds. -/
def mergeBundlesThreeWayWithPolicies (bundles : ThreeSides PortableBundleV1) (revision : Nat)
    (policies : MergePolicies) (now : Int) :
    Except MergePanic (Except SyncCodecError BundleMergeOutcome) :=
  match mergeGate bundles with
  | .error e => .ok (.error e)
  | .ok () => mergeGated bundles revision policies now

end NoriShell.Sync

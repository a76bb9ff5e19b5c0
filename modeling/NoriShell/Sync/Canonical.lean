import NoriShell.Collections.SortByKey
import NoriShell.Sync.PartLaws

/-! Canonical bundle bytes.  The JSON library is a parameter; the model adds the
sorting, the checks and the size bounds around it. -/

namespace NoriShell.Sync

open Collections

def maxBundlePlaintextBytes : Nat := 64 * 1024 * 1024

def PortableObjects.sortById (o : PortableObjects) : PortableObjects where
  hosts := sortByKey PortableHost.id o.hosts
  desktopProfiles := sortByKey PortableDesktopProfile.id o.desktopProfiles
  identities := sortByKey PortableIdentity.id o.identities
  credentials := sortByKey PortableCredential.id o.credentials
  routes := sortByKey PortableRoute.id o.routes
  authenticationPlans := sortByKey PortableAuthenticationPlan.id o.authenticationPlans
  algorithmPolicies := sortByKey PortableAlgorithmPolicy.id o.algorithmPolicies
  heartbeatPolicies := sortByKey PortableHeartbeatPolicy.id o.heartbeatPolicies
  monitoringPolicies := sortByKey PortableMonitoringPolicy.id o.monitoringPolicies
  loginAutomations := sortByKey PortableLoginAutomation.id o.loginAutomations

namespace PortableBundleV1

def sorted (b : PortableBundleV1) : PortableBundleV1 :=
  { b with
    objects := b.objects.sortById
    secrets := sortByKey PortableSecret.id b.secrets
    skippedMachineBound := sortByKey SkippedMachineBoundObject.id b.skippedMachineBound
    tombstones := sortByKey PortableTombstone.node b.tombstones
    updateTimes := sortByKey PortableItemUpdateTime.node b.updateTimes }

def canonicalized (b : PortableBundleV1) : Except SyncCodecError PortableBundleV1 := do
  b.validate
  pure b.sorted

end PortableBundleV1

structure BundleCodec where
  toVec : PortableBundleV1 → Except SyncCodecError (List UInt8)
  fromSlice : List UInt8 → Except SyncCodecError PortableBundleV1

namespace BundleCodec

/-- Decoding gives back every valid bundle that was encoded; in particular no two
of them share their encoding. -/
def Inverts (codec : BundleCodec) : Prop :=
  ∀ b bytes, b.validate = .ok () → codec.toVec b = .ok bytes → codec.fromSlice bytes = .ok b

def canonicalBundleBytes (codec : BundleCodec) (b : PortableBundleV1) :
    Except SyncCodecError (List UInt8) := do
  let canonical ← b.canonicalized
  let bytes ← codec.toVec canonical
  reject (bytes.length > maxBundlePlaintextBytes) (.boundExceeded "canonical bundle plaintext")
  pure bytes

def decodeBundle (codec : BundleCodec) (bytes : List UInt8) :
    Except SyncCodecError PortableBundleV1 := do
  reject (bytes.length > maxBundlePlaintextBytes) (.boundExceeded "bundle plaintext")
  let b ← codec.fromSlice bytes
  b.validate
  pure b

end BundleCodec

namespace PortableBundleV1

/-- The same content, with the order-irrelevant lists rearranged. -/
structure Reordered (a b : PortableBundleV1) : Prop where
  schema : a.schema = b.schema
  selectedCategories : a.selectedCategories = b.selectedCategories
  revision : a.revision = b.revision
  preferences : a.preferences = b.preferences
  preferenceUpdateTimes : a.preferenceUpdateTimes = b.preferenceUpdateTimes
  items : ∀ k, (a.items k).Perm (b.items k)
  skipped : a.skippedMachineBound.Perm b.skippedMachineBound
  tombstones : a.tombstones.Perm b.tombstones
  updateTimes : a.updateTimes.Perm b.updateTimes

namespace Reordered

variable {a b c : PortableBundleV1}

protected theorem rfl : Reordered a a :=
  ⟨rfl, rfl, rfl, rfl, rfl, fun _ => .rfl, .rfl, .rfl, .rfl⟩

theorem symm (r : Reordered a b) : Reordered b a :=
  ⟨r.schema.symm, r.selectedCategories.symm, r.revision.symm, r.preferences.symm,
    r.preferenceUpdateTimes.symm, fun k => (r.items k).symm, r.skipped.symm, r.tombstones.symm,
    r.updateTimes.symm⟩

theorem trans (r : Reordered a b) (r' : Reordered b c) : Reordered a c :=
  ⟨r.schema.trans r'.schema, r.selectedCategories.trans r'.selectedCategories,
    r.revision.trans r'.revision, r.preferences.trans r'.preferences,
    r.preferenceUpdateTimes.trans r'.preferenceUpdateTimes,
    fun k => (r.items k).trans (r'.items k), r.skipped.trans r'.skipped,
    r.tombstones.trans r'.tombstones, r.updateTimes.trans r'.updateTimes⟩

theorem part (r : Reordered a b) : Part b a where
  items k := (r.items k).symm.subperm
  skipped := r.skipped.symm.subperm
  tombstones := r.tombstones.symm.subperm
  updateTimes := r.updateTimes.symm.subperm
  closed _ _ _ n _ _ mem _ := (r.items n.kind).mem_iff.mp mem

theorem mem_allNodes (r : Reordered a b) {n : ObjectNode} : n ∈ a.allNodes ↔ n ∈ b.allNodes :=
  ⟨fun mem => r.symm.part.allNodes.subset mem, fun mem => r.part.allNodes.subset mem⟩

theorem schemaValid (r : Reordered a b) (h : a.SchemaValid) : b.SchemaValid where
  tombstones old := by
    have none := h.tombstones (r.schema.trans old)
    exact (none ▸ r.tombstones).nil_eq.symm
  modes old d mem := h.modes (r.schema ▸ old) d ((r.items .desktopProfile).mem_iff.mpr mem)
  desktops old := by
    have none : a.items .desktopProfile = [] := h.desktops (r.schema ▸ old)
    exact (none ▸ r.items .desktopProfile).nil_eq.symm
  desktopTombstones old t mem :=
    h.desktopTombstones (r.schema ▸ old) t (r.tombstones.mem_iff.mpr mem)
  preferences := by
    unfold validatePreferences
    rw [← r.schema, ← r.preferences]
    exact h.preferences
  times old := by
    have none := h.times (r.schema ▸ old)
    exact ⟨(none.1 ▸ r.updateTimes).nil_eq.symm, r.preferenceUpdateTimes ▸ none.2⟩
  preferenceTimes e mem := by
    have sound := h.preferenceTimes e (r.preferenceUpdateTimes ▸ mem)
    rwa [hasPreferenceGroup, r.preferences] at sound

theorem valid (r : Reordered a b) (h : a.Valid) : b.Valid := by
  refine r.part.valid h (r.schemaValid h.schemaValid) (r.revision ▸ h.revision) ?_ ?_
  · intro selected eq
    have scope := h.scope selected (r.selectedCategories.trans eq)
    exact ⟨r.schema ▸ scope.schema, scope.nonempty, scope.bounded, scope.sorted,
      fun n mem => scope.nodes n (r.mem_allNodes.mpr mem),
      fun missing => (scope.skipped missing ▸ r.skipped).nil_eq.symm⟩
  · intro t mem
    exact r.mem_allNodes.mp (h.timePresent t (r.updateTimes.mem_iff.mpr mem))

end Reordered

@[simp] theorem items_sorted (b : PortableBundleV1) (k : PortableObjectKind) :
    b.sorted.items k = sortByKey k.valueId (b.items k) := by
  cases k <;> rfl

theorem reordered_sorted (b : PortableBundleV1) : Reordered b b.sorted where
  schema := rfl
  selectedCategories := rfl
  revision := rfl
  preferences := rfl
  preferenceUpdateTimes := rfl
  items k := by
    rw [items_sorted]
    exact (sortByKey_perm _ _).symm
  skipped := (sortByKey_perm _ _).symm
  tombstones := (sortByKey_perm _ _).symm
  updateTimes := (sortByKey_perm _ _).symm

theorem sorted_sorted (b : PortableBundleV1) : b.sorted.sorted = b.sorted := by
  simp only [sorted, PortableObjects.sortById, sortByKey_idem]

theorem Valid.nodup_skippedIds {b : PortableBundleV1} (h : b.Valid) :
    (b.skippedMachineBound.map SkippedMachineBoundObject.id).Nodup :=
  (List.nodup_append.mp (List.nodup_append.mp h.idsUnique).1).2.1

/-- Bundles with the same content have one sorted form, since validation makes
every sort key unique. -/
theorem Reordered.sorted_eq {a b : PortableBundleV1} (r : Reordered a b) (h : a.Valid) :
    a.sorted = b.sorted := by
  apply eq_of_items
  · exact r.schema
  · exact r.selectedCategories
  · exact r.revision
  · intro k
    rw [items_sorted, items_sorted]
    exact sortByKey_eq_of_perm (h.nodup_valueIds k) (r.items k)
  · exact r.preferences
  · exact sortByKey_eq_of_perm h.nodup_skippedIds r.skipped
  · exact sortByKey_eq_of_perm h.nodup_tombstoneNodes r.tombstones
  · exact sortByKey_eq_of_perm h.timeUnique r.updateTimes
  · exact r.preferenceUpdateTimes

theorem canonicalized_eq {b : PortableBundleV1} (h : b.Valid) : b.canonicalized = .ok b.sorted := by
  rw [canonicalized, validate_eq_ok.mpr h]
  rfl

end PortableBundleV1

namespace BundleCodec

variable {codec : BundleCodec} {a b : PortableBundleV1} {bytes : List UInt8}

theorem canonicalBundleBytes_eq (r : a.Reordered b) (h : a.Valid) :
    codec.canonicalBundleBytes a = codec.canonicalBundleBytes b := by
  rw [canonicalBundleBytes, canonicalBundleBytes, PortableBundleV1.canonicalized_eq h,
    PortableBundleV1.canonicalized_eq (r.valid h), r.sorted_eq h]

theorem canonicalBundleBytes_eq_ok (h : a.Valid) : codec.canonicalBundleBytes a = .ok bytes ↔
      codec.toVec a.sorted = .ok bytes ∧ bytes.length ≤ maxBundlePlaintextBytes := by
  simp only [canonicalBundleBytes, PortableBundleV1.canonicalized_eq h, Check.bind_eq_ok,
    Check.reject_eq_ok, Except.ok.injEq, exists_eq_left', not_lt, gt_iff_lt, exists_const, pure,
    Except.pure]
  constructor
  · rintro ⟨found, encoded, small, rfl⟩
    exact ⟨encoded, small⟩
  · rintro ⟨encoded, small⟩
    exact ⟨bytes, encoded, small, rfl⟩

theorem decodeBundle_canonical (inverts : codec.Inverts) (h : a.Valid)
    (encoded : codec.toVec a.sorted = .ok bytes)
    (small : bytes.length ≤ maxBundlePlaintextBytes) : codec.decodeBundle bytes = .ok a.sorted := by
  have valid := PortableBundleV1.validate_eq_ok.mpr (a.reordered_sorted.valid h)
  simp [decodeBundle, reject, not_lt.mpr small, inverts _ _ valid encoded, valid, bind,
    Except.bind, pure, Except.pure]

end BundleCodec

/-- Canonical bytes identify the content of a bundle: they are shared exactly by
its reorderings, and decode to its canonical form, which is valid and fixed. -/
theorem canonicalBundleBytes_identify {codec : BundleCodec} (inverts : codec.Inverts)
    {a b : PortableBundleV1} (validA : a.validate = .ok ()) (validB : b.validate = .ok ()) :
    (∀ x y, codec.canonicalBundleBytes a = .ok x → codec.canonicalBundleBytes b = .ok y →
      (x = y ↔ a.Reordered b)) ∧
    (a.Reordered b → codec.canonicalBundleBytes a = codec.canonicalBundleBytes b) ∧
    ∃ canonical, a.canonicalized = .ok canonical ∧ canonical.validate = .ok () ∧
      canonical.canonicalized = .ok canonical ∧
      ∀ bytes, codec.toVec canonical = .ok bytes → bytes.length ≤ maxBundlePlaintextBytes →
        codec.canonicalBundleBytes a = .ok bytes ∧ codec.decodeBundle bytes = .ok canonical := by
  have ha := PortableBundleV1.validate_eq_ok.mp validA
  have hb := PortableBundleV1.validate_eq_ok.mp validB
  have same (r : a.Reordered b) : codec.canonicalBundleBytes a = codec.canonicalBundleBytes b :=
    BundleCodec.canonicalBundleBytes_eq r ha
  refine ⟨fun x y hx hy => ⟨?_, fun r => ?_⟩, same, a.sorted, ?_, ?_, ?_, ?_⟩
  · rintro rfl
    obtain ⟨encodedA, small⟩ := (BundleCodec.canonicalBundleBytes_eq_ok ha).mp hx
    obtain ⟨encodedB, -⟩ := (BundleCodec.canonicalBundleBytes_eq_ok hb).mp hy
    have decoded := BundleCodec.decodeBundle_canonical inverts ha encodedA small
    rw [BundleCodec.decodeBundle_canonical inverts hb encodedB small] at decoded
    have sortedEq : b.sorted = a.sorted := Except.ok.inj decoded
    exact a.reordered_sorted.trans (sortedEq ▸ b.reordered_sorted.symm)
  · exact Except.ok.inj (hx.symm.trans ((same r).trans hy))
  · exact PortableBundleV1.canonicalized_eq ha
  · exact PortableBundleV1.validate_eq_ok.mpr (a.reordered_sorted.valid ha)
  · rw [PortableBundleV1.canonicalized_eq (a.reordered_sorted.valid ha), a.sorted_sorted]
  · intro bytes encoded small
    exact ⟨(BundleCodec.canonicalBundleBytes_eq_ok ha).mpr ⟨encoded, small⟩,
      BundleCodec.decodeBundle_canonical inverts ha encoded small⟩

def identityPair : PortableBundleV1 where
  schema := .v6
  selectedCategories := none
  revision := 1
  objects := { identities := [⟨2, "home", none, []⟩, ⟨1, "work", none, []⟩] }
  preferences := none
  secrets := []
  skippedMachineBound := []
  tombstones := []
  updateTimes := []
  preferenceUpdateTimes := .empty

def identityPairCodec : BundleCodec where
  toVec b := if b = identityPair.sorted then .ok [123, 125] else .error .serialization
  fromSlice _ := .ok identityPair.sorted

theorem identityPairCodec_inverts : identityPairCodec.Inverts := by
  intro b bytes _ encoded
  by_cases same : b = identityPair.sorted
  · rw [same]
    rfl
  · simp [identityPairCodec, same] at encoded

theorem canonicalBundleBytes_identityPair : identityPairCodec.canonicalBundleBytes identityPair =
        identityPairCodec.canonicalBundleBytes identityPair.sorted ∧
      identityPairCodec.canonicalBundleBytes identityPair = .ok [123, 125] :=
  ⟨(canonicalBundleBytes_identify identityPairCodec_inverts (by decide +kernel)
      (by decide +kernel)).2.1 identityPair.reordered_sorted, by decide +kernel⟩

end NoriShell.Sync

import NoriShell.Sync.NodeLaws

namespace NoriShell.Sync

open Collections

theorem subperm_map {α β : Type} (f : α → β) {l l' : List α} (h : l.Subperm l') :
    (l.map f).Subperm (l'.map f) := by
  obtain ⟨m, perm, sub⟩ := h
  exact ⟨m.map f, perm.map f, sub.map f⟩

theorem nodup_of_subperm {α : Type} {l l' : List α} (h : l.Subperm l') (nodup : l'.Nodup) :
    l.Nodup := by
  obtain ⟨m, perm, sub⟩ := h
  exact perm.nodup_iff.mp (nodup.sublist sub)

namespace PortableBundleV1

/-- The objects of `b` come from `s`, and with each object the ones it names. -/
structure Part (b s : PortableBundleV1) : Prop where
  items : ∀ k, (b.items k).Subperm (s.items k)
  skipped : b.skippedMachineBound.Subperm s.skippedMachineBound
  tombstones : b.tombstones.Subperm s.tombstones
  updateTimes : b.updateTimes.Subperm s.updateTimes
  closed : ∀ k, ∀ v ∈ b.items k, ∀ n ∈ k.references v, ∀ w ∈ s.items n.kind,
    n.kind.valueId w = n.id → w ∈ b.items n.kind

section

variable {b : PortableBundleV1}

variable {id : PortableObjectId}

theorem mem_idsOf {k : PortableObjectKind} : id ∈ b.idsOf k ↔ ∃ v ∈ b.items k, k.valueId v = id :=
  List.mem_map

theorem credentialById_eq_some (unique : (b.idsOf .credential).Nodup)
    {c : PortableCredential} :
    b.credentialById id = some c ↔ c ∈ b.objects.credentials ∧ c.id = id := by
  have keys : (b.objects.credentials.map fun c => (c.id, c)).map Prod.fst =
      b.idsOf .credential := by
    rw [List.map_map]
    rfl
  rw [credentialById, BTreeMap.get?_ofList (keys ▸ unique), List.mem_map]
  constructor
  · rintro ⟨c, mem, ⟨⟩⟩
    exact ⟨mem, rfl⟩
  · rintro ⟨mem, rfl⟩
    exact ⟨c, mem, rfl⟩

theorem identityCredentialIds_eq_some (unique : (b.idsOf .identity).Nodup)
    {ids : List PortableObjectId} :
    b.identityCredentialIds id = some ids ↔
      ∃ i ∈ b.objects.identities, i.id = id ∧ i.credentialIds = ids := by
  have keys : (b.objects.identities.map fun i => (i.id, i.credentialIds)).map Prod.fst =
      b.idsOf .identity := by
    rw [List.map_map]
    rfl
  rw [identityCredentialIds, BTreeMap.get?_ofList (keys ▸ unique), List.mem_map]
  simp only [Prod.mk.injEq]

theorem secretKindById_eq_some (unique : (b.idsOf .secret).Nodup)
    {kind : PortableSecretKind} :
    b.secretKindById id = some kind ↔ ∃ s ∈ b.secrets, s.id = id ∧ s.kind = kind := by
  have keys : (b.secrets.map fun s => (s.id, s.kind)).map Prod.fst = b.idsOf .secret := by
    rw [List.map_map]
    rfl
  rw [secretKindById, BTreeMap.get?_ofList (keys ▸ unique), List.mem_map]
  simp only [Prod.mk.injEq]

end

namespace Part

variable {b s : PortableBundleV1} {k : PortableObjectKind} {id : PortableObjectId} (p : Part b s)

include p

theorem subset {v : k.Value} (mem : v ∈ b.items k) : v ∈ s.items k :=
  (p.items k).subset mem

theorem liveNodes : b.liveNodes.Subperm s.liveNodes := by
  have step (kinds : List PortableObjectKind) :
      (kinds.flatMap fun k => (b.items k).map k.node).Subperm
        (kinds.flatMap fun k => (s.items k).map k.node) := by
    induction kinds with
    | nil => exact .refl _
    | cons k kinds ih => exact List.Subperm.append (subperm_map _ (p.items k)) ih
  exact step _

theorem allNodes : b.allNodes.Subperm s.allNodes :=
  List.Subperm.append p.liveNodes (subperm_map _ p.tombstones)

theorem allIds : b.allIds.Subperm s.allIds :=
  List.Subperm.append (List.Subperm.append (subperm_map _ p.liveNodes) (subperm_map _ p.skipped))
    (subperm_map _ p.tombstones)

theorem nodup_idsOf (h : s.Valid) (k : PortableObjectKind) : (b.idsOf k).Nodup :=
  nodup_of_subperm (subperm_map k.valueId (p.items k)) (h.nodup_valueIds k)

theorem mem_idsOf_of_reference {v : k.Value} (mem : v ∈ b.items k) {j : PortableObjectKind}
    (named : ⟨j, id⟩ ∈ k.references v) (held : id ∈ s.idsOf j) : id ∈ b.idsOf j := by
  obtain ⟨w, hw, eq⟩ := mem_idsOf.mp held
  exact mem_idsOf.mpr ⟨w, p.closed k v mem ⟨j, id⟩ named w hw eq, eq⟩

theorem credentialById (h : s.Valid) {v : k.Value} (mem : v ∈ b.items k)
    (named : ⟨.credential, id⟩ ∈ k.references v) {c : PortableCredential}
    (held : s.credentialById id = some c) : b.credentialById id = some c := by
  obtain ⟨hc, eq⟩ := (credentialById_eq_some (h.nodup_valueIds .credential)).mp held
  exact (credentialById_eq_some (p.nodup_idsOf h .credential)).mpr
    ⟨p.closed k v mem ⟨.credential, id⟩ named c hc eq, eq⟩

theorem secretKindById (h : s.Valid) {v : k.Value} (mem : v ∈ b.items k)
    (named : ⟨.secret, id⟩ ∈ k.references v) {kind : PortableSecretKind}
    (held : s.secretKindById id = some kind) :
    b.secretKindById id = some kind := by
  obtain ⟨w, hw, eq, kindEq⟩ := (secretKindById_eq_some (h.nodup_valueIds .secret)).mp held
  exact (secretKindById_eq_some (p.nodup_idsOf h .secret)).mpr
    ⟨w, p.closed k v mem ⟨.secret, id⟩ named w hw eq, eq, kindEq⟩

theorem identityCredentialIds (h : s.Valid) {v : k.Value} (mem : v ∈ b.items k)
    (named : ⟨.identity, id⟩ ∈ k.references v) {ids : List PortableObjectId}
    (held : s.identityCredentialIds id = some ids) :
    b.identityCredentialIds id = some ids := by
  obtain ⟨i, hi, eq, idsEq⟩ := (identityCredentialIds_eq_some (h.nodup_valueIds .identity)).mp held
  exact (identityCredentialIds_eq_some (p.nodup_idsOf h .identity)).mpr
    ⟨i, p.closed k v mem ⟨.identity, id⟩ named i hi eq, eq, idsEq⟩

theorem hostDangling {host : PortableHost} (mem : host ∈ b.items .host)
    (sound : s.hostDangling host = false) : b.hostDangling host = false := by
  have keep {j : PortableObjectKind} {id : PortableObjectId}
      (named : ⟨j, id⟩ ∈ host.references) (held : id ∈ s.idsOf j) : id ∈ b.idsOf j :=
    p.mem_idsOf_of_reference mem named held
  simp only [PortableBundleV1.hostDangling, Bool.or_eq_false_iff, Bool.not_eq_false',
    List.contains_iff_mem, Option.any_eq_false] at sound ⊢
  obtain ⟨⟨⟨⟨⟨⟨route, plan⟩, algorithm⟩, heartbeat⟩, monitoring⟩, identity⟩, automation⟩ := sound
  refine ⟨⟨⟨⟨⟨⟨keep ?_ route, keep ?_ plan⟩, keep ?_ algorithm⟩, keep ?_ heartbeat⟩,
    keep ?_ monitoring⟩, fun id eq => ?_⟩, fun id eq => ?_⟩
  · simp
  · simp
  · simp
  · simp
  · simp
  · exact keep (by simp [eq]) (identity id eq)
  · exact keep (by simp [eq]) (automation id eq)

theorem desktopDangling (h : s.Valid) {desktop : PortableDesktopProfile}
    (mem : desktop ∈ b.items .desktopProfile) (sound : s.desktopDangling desktop = false) :
    b.desktopDangling desktop = false := by
  simp only [PortableBundleV1.desktopDangling, Bool.or_eq_false_iff, Bool.not_eq_false',
    List.contains_iff_mem, Option.any_eq_false] at sound ⊢
  obtain ⟨⟨host, gateway⟩, credential⟩ := sound
  refine ⟨⟨fun id eq => ?_, fun id eq => ?_⟩, fun id eq => ?_⟩
  · refine p.mem_idsOf_of_reference mem ?_ (host id eq)
    simp [PortableObjectKind.references, eq]
  · refine p.mem_idsOf_of_reference mem ?_ (gateway id eq)
    simp [PortableObjectKind.references, eq]
  · have sound := credential id eq
    cases held : s.credentialById id with
    | none => simp [held] at sound
    | some c =>
      have named : ⟨.credential, id⟩ ∈ PortableObjectKind.references .desktopProfile desktop := by
        simp [PortableObjectKind.references, eq]
      have kept := p.credentialById h mem named held
      have credentialMem : c ∈ b.items .credential :=
        ((credentialById_eq_some (p.nodup_idsOf h .credential)).mp kept).1
      simp only [held, kept, Bool.or_eq_false_iff, Bool.not_eq_false'] at sound ⊢
      refine ⟨sound.1, ?_⟩
      cases listed : s.identityCredentialIds c.identityId with
      | none => simp [listed] at sound
      | some ids =>
        have owner : ⟨.identity, c.identityId⟩ ∈ PortableObjectKind.references .credential c :=
          List.mem_cons_self
        rw [p.identityCredentialIds h credentialMem owner listed]
        simpa [listed] using sound.2

theorem identityDangling {identity : PortableIdentity}
    (mem : identity ∈ b.items .identity) (sound : s.identityDangling identity = false) :
    b.identityDangling identity = false := by
  simp only [PortableBundleV1.identityDangling, List.any_eq_false, Bool.not_eq_true,
    Bool.not_eq_false', List.contains_iff_mem] at sound ⊢
  intro id listed
  exact p.mem_idsOf_of_reference mem (List.mem_map_of_mem listed) (sound id listed)

theorem planDangling {plan : PortableAuthenticationPlan}
    (mem : plan ∈ b.items .authenticationPlan) (sound : s.planDangling plan = false) :
    b.planDangling plan = false := by
  simp only [PortableBundleV1.planDangling, List.any_eq_false, Bool.not_eq_true,
    Bool.not_eq_false', List.contains_iff_mem] at sound ⊢
  intro id listed
  exact p.mem_idsOf_of_reference mem (List.mem_map_of_mem listed) (sound id listed)

theorem credentialDangling (h : s.Valid) {credential : PortableCredential}
    (mem : credential ∈ b.items .credential) (sound : s.credentialDangling credential = false) :
    b.credentialDangling credential = false := by
  simp only [PortableBundleV1.credentialDangling, Bool.or_eq_false_iff, Bool.not_eq_false',
    List.contains_iff_mem, List.any_eq_false, decide_eq_true_eq, not_not] at sound ⊢
  refine ⟨p.mem_idsOf_of_reference mem List.mem_cons_self sound.1, fun secret needed => ?_⟩
  refine p.secretKindById h mem ?_ (sound.2 secret needed)
  exact List.mem_cons_of_mem _ (List.mem_map_of_mem (List.mem_map_of_mem needed))

theorem routeDangling (h : s.Valid) {route : PortableRoute}
    (mem : route ∈ b.items .route) (sound : s.routeDangling route = false) :
    b.routeDangling route = false := by
  simp only [PortableBundleV1.routeDangling, Bool.or_eq_false_iff, List.any_eq_false,
    Bool.not_eq_true, Bool.not_eq_false', List.contains_iff_mem, Option.any_eq_false] at sound ⊢
  refine ⟨fun hop used => ?_, fun id eq => ?_⟩
  · refine p.mem_idsOf_of_reference mem ?_ (sound.1 hop used)
    exact List.mem_append_left _ (List.mem_map_of_mem used)
  · have sound := sound.2 id eq
    cases held : s.credentialById id with
    | none => simp [held] at sound
    | some c =>
      have named : ⟨.credential, id⟩ ∈ PortableObjectKind.references .route route :=
        List.mem_append_right _ (by simp [eq])
      rwa [p.credentialById h mem named held, ← held]

theorem automationDangling (h : s.Valid) {automation : PortableLoginAutomation}
    (mem : automation ∈ b.items .loginAutomation)
    (sound : s.automationDangling automation = false) : b.automationDangling automation = false := by
  simp only [PortableBundleV1.automationDangling, List.any_eq_false, Option.any_eq_true,
    decide_eq_true_eq, not_exists, not_and, not_not] at sound ⊢
  intro step used id eq
  refine p.secretKindById h mem ?_ (sound step used id eq)
  exact List.mem_map_of_mem (List.mem_filterMap.mpr ⟨step, used, eq⟩)

theorem references (h : s.Valid) (k : PortableObjectKind) (v : k.Value)
    (mem : v ∈ b.items k) : b.dangling k v = false := by
  have sound := h.references k v (p.subset mem)
  cases k with
  | host => exact p.hostDangling mem sound
  | desktopProfile => exact p.desktopDangling h mem sound
  | identity => exact p.identityDangling mem sound
  | credential => exact p.credentialDangling h mem sound
  | route => exact p.routeDangling h mem sound
  | authenticationPlan => exact p.planDangling mem sound
  | loginAutomation => exact p.automationDangling h mem sound
  | algorithmPolicy | heartbeatPolicy | monitoringPolicy | secret => rfl

end Part

structure SchemaValid (b : PortableBundleV1) : Prop where
  tombstones : b.schema = .v1 → b.tombstones = []
  modes : b.schema ≠ .v6 → ∀ d ∈ b.objects.desktopProfiles, d.requiresModeSchema = false
  desktops : b.schema.supportsDesktopProfiles = false → b.objects.desktopProfiles = []
  desktopTombstones : b.schema.supportsDesktopProfiles = false →
    ∀ t ∈ b.tombstones, t.kind ≠ .desktopProfile
  preferences : b.validatePreferences = .ok ()
  times : b.schema.supportsUpdateTimes = false →
    b.updateTimes = [] ∧ b.preferenceUpdateTimes.toList = []
  preferenceTimes : ∀ e ∈ b.preferenceUpdateTimes.toList, 0 < e.2 ∧ b.hasPreferenceGroup e.1

variable {b : PortableBundleV1}

theorem Valid.schemaValid (h : b.Valid) : b.SchemaValid :=
  ⟨h.tombstoneSchema, h.modeSchema, h.desktopSchema, h.desktopTombstoneSchema, h.preferences,
    h.timeSchema, h.preferenceTimes⟩

theorem SchemaValid.of_v6 (v6 : b.schema = .v6)
    (preferences : b.preferences = none) (times : b.preferenceUpdateTimes = .empty) :
    b.SchemaValid where
  tombstones old := by simp [v6] at old
  modes old := absurd v6 old
  desktops old := by simp [v6, BundleSchema.supportsDesktopProfiles] at old
  desktopTombstones old := by simp [v6, BundleSchema.supportsDesktopProfiles] at old
  preferences := by simp [validatePreferences, v6, preferences]
  times old := by simp [v6, BundleSchema.supportsUpdateTimes] at old
  preferenceTimes := by simp [times, BTreeMap.empty]

theorem Part.valid {s : PortableBundleV1} (p : Part b s) (h : s.Valid)
    (schema : b.SchemaValid) (revision : b.revision ≠ 0)
    (scope : ∀ selected, b.selectedCategories = some selected → b.ScopeValid selected)
    (present : ∀ t ∈ b.updateTimes, t.node ∈ b.allNodes) : b.Valid where
  scope := scope
  revision := revision
  skippedCount := p.skipped.length_le.trans h.skippedCount
  tombstoneCount := p.tombstones.length_le.trans h.tombstoneCount
  itemCount k := (p.items k).length_le.trans (h.itemCount k)
  tombstoneSchema := schema.tombstones
  modeSchema := schema.modes
  desktopSchema := schema.desktops
  desktopTombstoneSchema := schema.desktopTombstones
  preferences := schema.preferences
  values k v mem := h.values k v (p.subset mem)
  timeSchema := schema.times
  timeCount := p.updateTimes.length_le.trans h.timeCount
  timePositive t mem := h.timePositive t (p.updateTimes.subset mem)
  timePresent := present
  timeUnique := nodup_of_subperm (subperm_map _ p.updateTimes) h.timeUnique
  preferenceTimes := schema.preferenceTimes
  idsProper id mem := h.idsProper id (p.allIds.subset mem)
  idsUnique := nodup_of_subperm p.allIds h.idsUnique
  secretsSelected v mem := h.secretsSelected v (p.subset (k := .secret) mem)
  references := p.references h

end PortableBundleV1

end NoriShell.Sync

import NoriShell.Restore.Plan

/-! The owned delta: creates, updates and deletes of one profile's objects, applied
to the metadata together with the references that it gives up. -/

namespace NoriShell.Restore

open Collections Vault

structure OwnedIdentityUpdate where
  portableObjectId : Uuid
  identityId : Uuid
  expectedStateVersion : Nat
  label : String
  username : Option String

structure OwnedIdentityDelete where
  portableObjectId : Uuid
  identityId : Uuid
  expectedStateVersion : Nat

structure OwnedCredentialUpdate where
  portableObjectId : Uuid
  credentialRefId : Uuid
  expectedStateVersion : Nat
  identityId : Uuid
  priority : Nat
  label : String
  material : CredentialMaterial

structure OwnedCredentialDelete where
  portableObjectId : Uuid
  credentialRefId : Uuid
  expectedStateVersion : Nat

structure OwnedHostUpdate where
  portableObjectId : Uuid
  hostId : Uuid
  expected : HostBaseVersions
  desired : HostConfiguration
  tagLabels : List String
  loginAutomation : LoginAutomation

structure OwnedHostDelete where
  portableObjectId : Uuid
  hostId : Uuid
  expected : HostBaseVersions

structure OwnedDesktopProfileUpdate where
  portableObjectId : Uuid
  profile : DesktopProfile
  expectedRevision : Nat

structure OwnedDesktopProfileDelete where
  portableObjectId : Uuid
  profileId : Uuid
  expectedRevision : Nat

structure OwnedSecretReplacement where
  portableObjectId : Uuid
  expectedSecretRefId : SecretRefId
  newSecretRefId : SecretRefId

structure OwnedSecretDelete where
  portableObjectId : Uuid
  secretRefId : SecretRefId

structure OwnedCreateBatch where
  plan : RestorePlan
  mappings : List ObjectMappingInput

structure OwnedMetadataDelta where
  owner : ProfileKey
  attemptId : Uuid
  deltaSha256 : String
  creates : Option OwnedCreateBatch
  identityUpdates : List OwnedIdentityUpdate := []
  identityDeletes : List OwnedIdentityDelete := []
  credentialUpdates : List OwnedCredentialUpdate := []
  credentialDeletes : List OwnedCredentialDelete := []
  hostUpdates : List OwnedHostUpdate := []
  hostDeletes : List OwnedHostDelete := []
  desktopProfileUpdates : List OwnedDesktopProfileUpdate := []
  desktopProfileDeletes : List OwnedDesktopProfileDelete := []
  secretReplacements : List OwnedSecretReplacement := []
  secretDeletes : List OwnedSecretDelete := []

def maxOwnedDeltaObjects : Nat := 8192

namespace RestorePlan

variable (plan : RestorePlan)

def objectCount : Nat :=
  plan.identities.length + plan.credentials.length + plan.hosts.length + plan.desktopProfiles.length

def secretRefs : List SecretRefId :=
  plan.credentials.flatMap (·.material.secretRefs) ++
    plan.hosts.flatMap (·.loginAutomation.secretRefs)

end RestorePlan

def LocalObjectId.secretRef? : LocalObjectId → Option SecretRefId
  | .secret id => some id
  | _ => none

namespace OwnedMetadataDelta

variable (delta : OwnedMetadataDelta)

def updatedCount : Nat :=
  delta.identityUpdates.length + delta.credentialUpdates.length + delta.hostUpdates.length +
    delta.desktopProfileUpdates.length + delta.secretReplacements.length

def deletedCount : Nat :=
  delta.identityDeletes.length + delta.credentialDeletes.length + delta.hostDeletes.length +
    delta.desktopProfileDeletes.length + delta.secretDeletes.length

def updatedSecretRefs : List SecretRefId :=
  delta.credentialUpdates.flatMap (·.material.secretRefs) ++
    delta.hostUpdates.flatMap (·.loginAutomation.secretRefs)

/-- The objects that the delta updates, deletes or replaces, under both of their ids. -/
def touchedObjects : List (Uuid × LocalObjectId) :=
  List.flatten [delta.identityUpdates.map fun u => (u.portableObjectId, .identity u.identityId),
    delta.identityDeletes.map fun u => (u.portableObjectId, .identity u.identityId),
    delta.credentialUpdates.map fun u => (u.portableObjectId, .credential u.credentialRefId),
    delta.credentialDeletes.map fun u => (u.portableObjectId, .credential u.credentialRefId),
    delta.hostUpdates.map fun u => (u.portableObjectId, .host u.hostId),
    delta.hostDeletes.map fun u => (u.portableObjectId, .host u.hostId),
    delta.desktopProfileUpdates.map fun u => (u.portableObjectId, .desktopProfile u.profile.id),
    delta.desktopProfileDeletes.map fun u => (u.portableObjectId, .desktopProfile u.profileId),
    delta.secretDeletes.map fun u => (u.portableObjectId, .secret u.secretRefId),
    delta.secretReplacements.map fun u => (u.portableObjectId, .secret u.expectedSecretRefId)]

end OwnedMetadataDelta

def validateSecretReplacement (delta : OwnedMetadataDelta) (replacement : OwnedSecretReplacement) :
    Except PersistenceError Unit := do
  reject (replacement.expectedSecretRefId = replacement.newSecretRefId)
    (.invalidInput "SSH sync Secret replacement must use a new Vault ref")
  reject (replacement.newSecretRefId ∉ delta.updatedSecretRefs)
    (.invalidInput "new SSH sync Secret ref must be used by the delta")

def validateOwnedDelta (delta : OwnedMetadataDelta) : Except PersistenceError Unit := do
  let total := (delta.creates.map (·.plan.objectCount)).getD 0 + delta.updatedCount +
    delta.deletedCount
  reject (total = 0 ∨ total > maxOwnedDeltaObjects)
    (.invalidInput "SSH sync owned delta is empty or too large")
  reject (¬(delta.touchedObjects.map fun object => (object.2.objectKind, object.1)).Nodup ∨
      ¬(delta.touchedObjects.map Prod.snd).Nodup)
    (.invalidInput "SSH sync owned delta contains duplicate objects")
  each delta.secretReplacements (validateSecretReplacement delta)

section

variable (m : Metadata) (owner : ProfileKey)

def lookupObjectMapping (input : ObjectMappingInput) : List ObjectMapping :=
  m.mappings.filter fun mapping =>
    mapping.owner = owner ∧ mapping.localObjectId.objectKind = input.localObjectId.objectKind ∧
      (mapping.portableObjectId = input.portableObjectId ∨
        mapping.localObjectId = input.localObjectId)

def requireOwnedMapping (portableObjectId : Uuid) (localObjectId : LocalObjectId) :
    Except PersistenceError Unit :=
  reject (⟨owner, portableObjectId, localObjectId⟩ ∉ m.mappings) .conflict

def requireExclusiveOwnedMapping (portableObjectId : Uuid) (localObjectId : LocalObjectId) :
    Except PersistenceError Unit := do
  requireOwnedMapping m owner portableObjectId localObjectId
  reject (m.mappings.any fun mapping =>
    mapping.localObjectId = localObjectId ∧ mapping.owner ≠ owner) .conflict

end

section

variable (m : Metadata) (owner : ProfileKey) (delta : OwnedMetadataDelta)

def requireIdentityVersion (id : Uuid) (expected : Nat) : Except PersistenceError Unit :=
  reject ((m.identities.find? (·.identityId = id)).map (·.stateVersion) ≠ some expected) .conflict

def requireCredentialVersion (id : Uuid) (expected : Nat) : Except PersistenceError Unit :=
  reject ((m.credentials.find? (·.credentialRefId = id)).map (·.stateVersion) ≠ some expected)
    .conflict

def requireHostVersions (id : Uuid) (expected : HostBaseVersions) : Except PersistenceError Unit :=
  reject ((m.hosts.find? (·.hostId = id)).map (·.versions) ≠ some expected) .conflict

def requireDesktopProfileRevision (id : Uuid) (expected : Nat) : Except PersistenceError Unit :=
  reject ((m.desktopProfiles.find? (·.id = id)).map (·.revision) ≠ some expected) .conflict

def hostSecretRefs (id : Uuid) : List SecretRefId :=
  (m.hosts.filter (·.hostId = id)).flatMap (·.loginAutomation.secretRefs)

def preflightHostUpdate (update : OwnedHostUpdate) : Except PersistenceError Unit := do
  requireOwnedMapping m owner update.portableObjectId (.host update.hostId)
  requireHostVersions m update.hostId update.expected
  reject (update.loginAutomation.secretRefs.any fun secretRef =>
      secretRef ∉ hostSecretRefs m update.hostId ∧
        !delta.secretReplacements.any (·.newSecretRefId = secretRef))
    (.invalidInput "new SSH sync automation Secret ref requires an owned replacement")

/-- Every owned user of the old reference has to move to the new one. -/
def preflightSecretReplacement (replacement : OwnedSecretReplacement) :
    Except PersistenceError Unit := do
  requireOwnedMapping m owner replacement.portableObjectId
    (.secret replacement.expectedSecretRefId)
  reject (m.secretRefIsReferenced replacement.newSecretRefId) .conflict
  reject (m.credentials.any fun credential =>
      replacement.expectedSecretRefId ∈ credential.details.secretRefs ∧
        m.mappings.any (fun mapping => mapping.owner = owner ∧
          mapping.localObjectId = .credential credential.credentialRefId) ∧
        !delta.credentialUpdates.any fun update =>
          update.credentialRefId = credential.credentialRefId ∧
            replacement.newSecretRefId ∈ update.material.secretRefs) .conflict
  reject (m.hosts.any fun host =>
      replacement.expectedSecretRefId ∈ host.loginAutomation.secretRefs ∧
        m.mappings.any (fun mapping => mapping.owner = owner ∧
          mapping.localObjectId = .host host.hostId) ∧
        !delta.hostUpdates.any fun update =>
          update.hostId = host.hostId ∧
            replacement.newSecretRefId ∈ update.loginAutomation.secretRefs) .conflict

def preflightOwnedDelta : Except PersistenceError Unit := do
  each delta.identityUpdates fun u => do
    requireOwnedMapping m owner u.portableObjectId (.identity u.identityId)
    requireIdentityVersion m u.identityId u.expectedStateVersion
  each delta.identityDeletes fun u => do
    requireExclusiveOwnedMapping m owner u.portableObjectId (.identity u.identityId)
    requireIdentityVersion m u.identityId u.expectedStateVersion
  each delta.credentialUpdates fun u => do
    requireOwnedMapping m owner u.portableObjectId (.credential u.credentialRefId)
    requireCredentialVersion m u.credentialRefId u.expectedStateVersion
  each delta.credentialDeletes fun u => do
    requireExclusiveOwnedMapping m owner u.portableObjectId (.credential u.credentialRefId)
    requireCredentialVersion m u.credentialRefId u.expectedStateVersion
  each delta.hostUpdates (preflightHostUpdate m owner delta)
  each delta.hostDeletes fun u => do
    requireExclusiveOwnedMapping m owner u.portableObjectId (.host u.hostId)
    requireHostVersions m u.hostId u.expected
  each delta.desktopProfileUpdates fun u => do
    requireOwnedMapping m owner u.portableObjectId (.desktopProfile u.profile.id)
    requireDesktopProfileRevision m u.profile.id u.expectedRevision
  each delta.desktopProfileDeletes fun u => do
    requireExclusiveOwnedMapping m owner u.portableObjectId (.desktopProfile u.profileId)
    requireDesktopProfileRevision m u.profileId u.expectedRevision
  each delta.secretDeletes fun u =>
    requireExclusiveOwnedMapping m owner u.portableObjectId (.secret u.secretRefId)
  each delta.secretReplacements (preflightSecretReplacement m owner delta)

/-- The local objects that the plan's mappings have to name, and no others. -/
def requiredMappings (plan : RestorePlan) : List LocalObjectId :=
  List.flatten [plan.identities.map fun identity => .identity identity.identityId,
    plan.credentials.map fun credential => .credential credential.credentialRefId,
    plan.hosts.map fun host => .host host.hostId,
    plan.secretRefs.map .secret,
    plan.desktopProfiles.map fun desktop => .desktopProfile desktop.profile.id]

def preflightOwnedCreateMappings (batch : OwnedCreateBatch) : Except PersistenceError Unit := do
  let provided := batch.mappings.map (·.localObjectId)
  reject (¬(requiredMappings batch.plan ⊆ provided ∧ provided ⊆ requiredMappings batch.plan))
    (.invalidInput "SSH sync create mappings do not exactly cover the create plan")
  reject (batch.plan.desktopProfiles.any fun desktop =>
      ⟨desktop.portableObjectId, .desktopProfile desktop.profile.id⟩ ∉ batch.mappings)
    (.invalidInput "SSH sync desktop create mapping does not match the restore plan")
  reject (batch.mappings.any fun input =>
      lookupObjectMapping m owner input ≠ [] ∧ lookupObjectMapping m owner input ≠
          [⟨owner, input.portableObjectId, input.localObjectId⟩]) .conflict

end

end NoriShell.Restore

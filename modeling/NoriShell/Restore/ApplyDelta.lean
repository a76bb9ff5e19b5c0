import NoriShell.Restore.Delta

/-! Applying an owned delta, object by object, in the order of the source. -/

namespace NoriShell.Restore

open Collections Vault

inductive VaultGcReason
  | credentialReplaced
  | hostUpdated
  | secretReplaced
  | credentialDeleted
  | secretDeleted
  deriving DecidableEq

abbrev GcCandidates := BTreeMap SecretRefId VaultGcReason

section

variable {α : Type} (rows : List α) (here : α → Bool)

def updateRow (change : α → α) : Except PersistenceError (List α) :=
  if rows.countP here = 1 then .ok (rows.map fun row => if here row then change row else row)
  else .error .conflict

def deleteRow : Except PersistenceError (List α) :=
  if rows.countP here = 1 then .ok (rows.filter (!here ·)) else .error .conflict

end

section

variable (m : Metadata)

def applyOwnedIdentityUpdate (update : OwnedIdentityUpdate) : Except PersistenceError Metadata := do
  let identities ← updateRow m.identities
    (fun row => row.identityId = update.identityId ∧ row.stateVersion = update.expectedStateVersion)
    fun row => { row with
      label := update.label
      username := update.username
      stateVersion := update.expectedStateVersion + 1 }
  pure { m with identities }

def getCredentialRecord (credentialRefId : Uuid) : Except PersistenceError CredentialRecord :=
  match m.credentials.find? (·.credentialRefId = credentialRefId) with
  | some record => .ok record
  | none => .error .conflict

/-- A host proxy or a desktop profile needs the credential to be a password. -/
def requiresPassword (credentialRefId : Uuid) : Bool :=
  m.hosts.any (·.configuration.proxyAuthCredentialRefId = some credentialRefId) ||
    m.desktopProfiles.any (·.credentialRefId = some credentialRefId)

def credentialUpdateConflicts (update : OwnedCredentialUpdate) : Bool :=
  !m.identityExists update.identityId ||
    m.credentials.any (fun other => other.identityId = update.identityId ∧
      other.priority = update.priority ∧ other.credentialRefId ≠ update.credentialRefId) ||
    m.hosts.any (fun host => update.credentialRefId ∈ host.configuration.credentialRefIds ∧
      host.configuration.identityId.any (· ≠ update.identityId)) ||
    requiresPassword m update.credentialRefId && !update.material.isPassword

def applyOwnedCredentialUpdate (update : OwnedCredentialUpdate) :
    Except PersistenceError (List SecretRefId × Metadata) := do
  let existing ← getCredentialRecord m update.credentialRefId
  reject (existing.stateVersion ≠ update.expectedStateVersion) .conflict
  reject (credentialUpdateConflicts m update) .conflict
  let credentials ← updateRow m.credentials
    (fun row => row.credentialRefId = update.credentialRefId ∧
      row.stateVersion = update.expectedStateVersion)
    fun row => { row with
      identityId := update.identityId
      priority := update.priority
      label := update.label
      stateVersion := update.expectedStateVersion + 1
      importReady := true
      details := .material update.material }
  pure (existing.details.secretRefs.filter (· ∉ update.material.secretRefs), { m with credentials })

def applyOwnedHostUpdate (update : OwnedHostUpdate) :
    Except PersistenceError (List SecretRefId × Metadata) := do
  let (tagLabels, hostTags) := resolveSyncTagLabels m.hostTags update.tagLabels
  reject (update.desired.identityId.any fun id => !m.identityExists id) .conflict
  reject (update.desired.groupId.any (· ∉ m.hostGroups)) .notFound
  let hosts ← updateRow m.hosts
    (fun row => row.hostId = update.hostId ∧ row.versions.host = update.expected.host)
    fun row => { row with
      configuration := update.desired
      tagLabels
      loginAutomation := update.loginAutomation
      versions := update.expected.next }
  pure (hostSecretRefs m update.hostId, { m with hosts, hostTags })

def desktopProfileReferencesValid (profile : DesktopProfile) : Bool :=
  (profile.hostId.toList ++ profile.gatewayHostId.toList).all m.hostExists &&
    profile.credentialRefId.all fun id => m.credentials.any fun credential =>
      credential.credentialRefId = id ∧ credential.details.isPassword ∧ credential.importReady

def applyOwnedDesktopProfileUpdate (update : OwnedDesktopProfileUpdate) :
    Except PersistenceError Metadata := do
  reject (!desktopProfileReferencesValid m update.profile) .conflict
  let desktopProfiles ← updateRow m.desktopProfiles
    (fun row => row.id = update.profile.id ∧ row.revision = update.expectedRevision)
    fun _ => { update.profile with revision := update.expectedRevision + 1 }
  pure { m with desktopProfiles }

def applyOwnedSecretReplacement (owner : ProfileKey) (replacement : OwnedSecretReplacement) :
    Except PersistenceError Metadata := do
  let mappings ← updateRow m.mappings
    (· = ⟨owner, replacement.portableObjectId, .secret replacement.expectedSecretRefId⟩)
    fun row => { row with localObjectId := .secret replacement.newSecretRefId }
  pure { m with mappings }

end

section

variable (m : Metadata) (owner : ProfileKey)

def deleteOwnedMapping (portableObjectId : Uuid) (localObjectId : LocalObjectId) :
    Except PersistenceError Metadata := do
  let mappings ← deleteRow m.mappings (· = ⟨owner, portableObjectId, localObjectId⟩)
  pure { m with mappings }

def deleteOwnedDesktopProfile (delete : OwnedDesktopProfileDelete) :
    Except PersistenceError Metadata := do
  let desktopProfiles ← deleteRow m.desktopProfiles
    fun row => row.id = delete.profileId ∧ row.revision = delete.expectedRevision
  deleteOwnedMapping { m with desktopProfiles } owner delete.portableObjectId
    (.desktopProfile delete.profileId)

/-- The first host that no route passes through, and the others; a host that a
desktop profile needs stops the scan. -/
def takeUnreferencedHost :
    List OwnedHostDelete → Except PersistenceError (OwnedHostDelete × List OwnedHostDelete)
  | [] => .error .conflict
  | delete :: deletes =>
    if m.desktopProfiles.any fun profile =>
        profile.hostId = some delete.hostId ∨ profile.gatewayHostId = some delete.hostId then
      .error .conflict
    else if m.hosts.all (delete.hostId ∉ ·.configuration.jumpHostIds) then .ok (delete, deletes)
    else do
      let (next, others) ← takeUnreferencedHost deletes
      pure (next, delete :: others)

def deleteOwnedHost (delete : OwnedHostDelete) : Except PersistenceError Metadata := do
  let hosts ← deleteRow m.hosts
    fun row => row.hostId = delete.hostId ∧ row.versions.host = delete.expected.host
  deleteOwnedMapping { m with hosts } owner delete.portableObjectId (.host delete.hostId)

/-- Deletes as many hosts as the fuel says, each once nothing passes through it. -/
def deleteOwnedHosts : Nat → Metadata → List OwnedHostDelete → Except PersistenceError Metadata
  | 0, m, _ => .ok m
  | fuel + 1, m, deletes => do
    let (next, others) ← takeUnreferencedHost m deletes
    let m ← deleteOwnedHost m owner next
    deleteOwnedHosts fuel m others

def deleteOwnedCredential (delete : OwnedCredentialDelete) :
    Except PersistenceError (List SecretRefId × Metadata) := do
  reject (m.hosts.any (delete.credentialRefId ∈ ·.configuration.credentialRefIds) ∨
    requiresPassword m delete.credentialRefId) .conflict
  let record ← getCredentialRecord m delete.credentialRefId
  let credentials ← deleteRow m.credentials fun row =>
    row.credentialRefId = delete.credentialRefId ∧ row.stateVersion = delete.expectedStateVersion
  let m ← deleteOwnedMapping { m with credentials } owner delete.portableObjectId
    (.credential delete.credentialRefId)
  pure (record.details.secretRefs, m)

def deleteOwnedIdentity (delete : OwnedIdentityDelete) : Except PersistenceError Metadata := do
  reject (m.hosts.any (·.configuration.identityId = some delete.identityId) ∨
    m.credentials.any (·.identityId = delete.identityId)) .conflict
  let identities ← deleteRow m.identities fun row =>
    row.identityId = delete.identityId ∧ row.stateVersion = delete.expectedStateVersion
  deleteOwnedMapping { m with identities } owner delete.portableObjectId
    (.identity delete.identityId)

def deleteOwnedSecretMapping (delete : OwnedSecretDelete) : Except PersistenceError Metadata := do
  reject (m.secretRefIsUsedByLocalMetadata delete.secretRefId) .conflict
  deleteOwnedMapping m owner delete.portableObjectId (.secret delete.secretRefId)

end

/-- A mapping that is there already stays as it is. -/
def applyOwnedCreateMappings (m : Metadata) (owner : ProfileKey)
    (inputs : List ObjectMappingInput) : Metadata :=
  inputs.foldl (fun m input =>
    if lookupObjectMapping m owner input = [] then
      { m with mappings := m.mappings ++ [⟨owner, input.portableObjectId, input.localObjectId⟩] }
    else m) m

section

variable (owner : ProfileKey)

abbrev Change := Metadata × GcCandidates

def Change.then (change : Change) (step : Metadata → Except PersistenceError Metadata) :
    Except PersistenceError Change := do
  let m ← step change.1
  pure (m, change.2)

def Change.giveUp (change : Change) (reason : VaultGcReason)
    (step : Metadata → Except PersistenceError (List SecretRefId × Metadata)) :
    Except PersistenceError Change := do
  let (refs, m) ← step change.1
  pure (m, change.2.extend (refs.map (·, reason)))

def applyOwnedUpdates (delta : OwnedMetadataDelta) (change : Change) :
    Except PersistenceError Change := do
  let change ← delta.desktopProfileUpdates.foldlM
    (fun change u => change.then (applyOwnedDesktopProfileUpdate · u)) change
  let change ← delta.identityUpdates.foldlM
    (fun change u => change.then (applyOwnedIdentityUpdate · u)) change
  let change ← delta.credentialUpdates.foldlM
    (fun change u => change.giveUp .credentialReplaced (applyOwnedCredentialUpdate · u)) change
  let change ← delta.hostUpdates.foldlM
    (fun change u => change.giveUp .hostUpdated (applyOwnedHostUpdate · u)) change
  delta.secretReplacements.foldlM (fun change u => change.giveUp .secretReplaced fun m => do
    let m ← applyOwnedSecretReplacement m owner u
    pure ([u.expectedSecretRefId], m)) change

def applyOwnedDeletes (delta : OwnedMetadataDelta) (change : Change) :
    Except PersistenceError Change := do
  let change ← delta.desktopProfileDeletes.foldlM
    (fun change u => change.then (deleteOwnedDesktopProfile · owner u)) change
  let change ← change.then (deleteOwnedHosts owner delta.hostDeletes.length · delta.hostDeletes)
  let change ← delta.credentialDeletes.foldlM
    (fun change u => change.giveUp .credentialDeleted (deleteOwnedCredential · owner u)) change
  let change ← delta.identityDeletes.foldlM
    (fun change u => change.then (deleteOwnedIdentity · owner u)) change
  delta.secretDeletes.foldlM (fun change u => change.giveUp .secretDeleted fun m => do
    let m ← deleteOwnedSecretMapping m owner u
    pure ([u.secretRefId], m)) change

def applyOwnedCreates (m : Metadata) : Option OwnedCreateBatch → Metadata
  | none => m
  | some batch => applyOwnedCreateMappings (publishRestorePlan m batch.plan) owner batch.mappings

/-- The candidates to queue: those that nothing refers to.  A deleted secret that is
still in use is a conflict. -/
def collectGcCandidates (m : Metadata) (candidates : GcCandidates) :
    Except PersistenceError (List (SecretRefId × VaultGcReason)) := do
  reject (candidates.toList.any fun candidate =>
    m.secretRefIsReferenced candidate.1 ∧ candidate.2 = .secretDeleted) .conflict
  pure (candidates.toList.filter (!m.secretRefIsReferenced ·.1))

def applyOwnedDelta (delta : OwnedMetadataDelta) (m : Metadata) :
    Except PersistenceError (List (SecretRefId × VaultGcReason) × Metadata) := do
  let change ← applyOwnedUpdates owner delta (applyOwnedCreates owner m delta.creates, .empty)
  let change ← applyOwnedDeletes owner delta change
  let pending ← collectGcCandidates change.1 change.2
  pure (pending, change.1)

end

end NoriShell.Restore

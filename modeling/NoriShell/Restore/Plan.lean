import NoriShell.Restore.Metadata

/-! Restore plans: what a plan would create, and publishing it. -/

namespace NoriShell.Restore

open Collections Vault

structure RestoreIdentityInput where
  identityId : Uuid
  label : String
  username : Option String
  deriving DecidableEq

structure RestoreCredentialInput where
  credentialRefId : Uuid
  identityId : Uuid
  operationId : Uuid
  idempotencyKey : String
  priority : Nat
  label : String
  material : CredentialMaterial
  deriving DecidableEq

structure RestoreHostInput where
  hostId : Uuid
  operationId : Uuid
  idempotencyKey : String
  configuration : HostConfiguration
  tagLabels : List String
  loginAutomation : LoginAutomation
  deriving DecidableEq

def RestoreHostInput.request (host : RestoreHostInput) :
    HostConfiguration × List String × LoginAutomation :=
  (host.configuration, host.tagLabels, host.loginAutomation)

structure RestoreDesktopProfileInput where
  portableObjectId : Uuid
  profile : DesktopProfile
  deriving DecidableEq

/-- A normalised plan; an offline import has no plugin. -/
structure RestorePlan where
  attemptId : Uuid
  pluginId : Option String
  profileId : String
  bundleSha256 : String
  planSha256 : String
  identities : List RestoreIdentityInput
  credentials : List RestoreCredentialInput
  hosts : List RestoreHostInput
  desktopProfiles : List RestoreDesktopProfileInput
  deriving DecidableEq

inductive PersistenceError
  | invalidInput (message : String)
  | invalidStoredData
  | conflict
  | idempotencyConflict
  | notFound
  | restoreCommitUnknown
  | sqlite
  deriving DecidableEq

inductive RestoreObjectDisposition
  | create
  | alreadyApplied
  | conflict
  deriving DecidableEq

structure RestorePreview where
  createCount : Nat
  alreadyAppliedCount : Nat
  conflictCount : Nat
  newSecretRefIds : List SecretRefId
  deriving DecidableEq

section

variable (m : Metadata)

def restoreIdentityDisposition (input : RestoreIdentityInput) : RestoreObjectDisposition :=
  match m.identities.find? fun identity => identity.identityId = input.identityId with
  | none => .create
  | some identity =>
    if identity.stateVersion = 1 ∧ identity.label = input.label ∧
        identity.username = input.username then .alreadyApplied
    else .conflict

def sameRestoreCredential (existing : CredentialRecord) (input : RestoreCredentialInput) : Bool :=
  existing.credentialRefId = input.credentialRefId ∧ existing.identityId = input.identityId ∧
    existing.priority = input.priority ∧ existing.label = input.label ∧
    existing.stateVersion = 1 ∧ existing.importOperationId = some input.operationId ∧
    existing.importIdempotencyKey = some input.idempotencyKey ∧ existing.importReady ∧
    existing.details = .material input.material

def restoreCredentialDisposition (input : RestoreCredentialInput) : RestoreObjectDisposition :=
  match m.credentials.filter fun credential =>
      credential.credentialRefId = input.credentialRefId ∨
        credential.importOperationId = some input.operationId ∨
        credential.importIdempotencyKey = some input.idempotencyKey with
  | [] => .create
  | [existing] => if sameRestoreCredential existing input then .alreadyApplied else .conflict
  | _ => .conflict

def restoreHostRevisionsAreInitial (hostId : Uuid) : Bool :=
  match m.hosts.find? fun host => host.hostId = hostId with
  | none => false
  | some host => host.versions = .initial

def restoreHostDisposition (input : RestoreHostInput) : RestoreObjectDisposition :=
  match m.hostCreateOperations.filter fun operation =>
      operation.operationId = input.operationId ∨
        operation.idempotencyKey = input.idempotencyKey with
  | [] => if m.hostExists input.hostId then .conflict else .create
  | [existing] =>
    if existing.operationId = input.operationId ∧ existing.idempotencyKey = input.idempotencyKey ∧
        existing.request = input.request ∧ existing.hostId = input.hostId ∧
        restoreHostRevisionsAreInitial m input.hostId then .alreadyApplied
    else .conflict
  | _ => .conflict

def restoreDesktopProfileDisposition (input : RestoreDesktopProfileInput) :
    RestoreObjectDisposition :=
  match m.desktopProfiles.find? fun profile => profile.id = input.profile.id with
  | none => .create
  | some stored =>
    if stored.revision = 1 ∧ stored = input.profile then .alreadyApplied else .conflict

end

section

variable (m : Metadata) (plan : RestorePlan)

def restoreCredentialCreateReferencesValid (credential : RestoreCredentialInput) : Bool :=
  (plan.identities.any (·.identityId = credential.identityId) ||
      m.identityExists credential.identityId) &&
    !m.credentials.any (fun existing =>
      existing.identityId = credential.identityId ∧ existing.priority = credential.priority) &&
    !credential.material.secretRefs.any m.isSyncKey

def restoreHostCredentialValid (identityId : Option Uuid) (credentialRefId : Uuid) : Bool :=
  match plan.credentials.find? fun planned => planned.credentialRefId = credentialRefId with
  | some planned => some planned.identityId = identityId
  | none => m.credentials.any fun existing =>
    existing.credentialRefId = credentialRefId ∧ some existing.identityId = identityId ∧
      existing.importReady

def restorePasswordValid (credentialRefId : Uuid) : Bool :=
  match plan.credentials.find? fun planned => planned.credentialRefId = credentialRefId with
  | some planned => planned.material.isPassword
  | none => m.credentials.any fun existing =>
    existing.credentialRefId = credentialRefId ∧ existing.details.isPassword ∧ existing.importReady

def restoreHostIdValid (hostId : Uuid) : Bool :=
  plan.hosts.any (·.hostId = hostId) || m.hostExists hostId

def restoreHostCreateReferencesValid (host : RestoreHostInput) : Bool :=
  !host.loginAutomation.secretRefs.any m.isSyncKey &&
    host.configuration.identityId.all (fun id =>
      plan.identities.any (·.identityId = id) || m.identityExists id) &&
    host.configuration.groupId.all (· ∈ m.hostGroups) &&
    host.configuration.jumpHostIds.all (restoreHostIdValid m plan) &&
    host.configuration.credentialRefIds.all
      (restoreHostCredentialValid m plan host.configuration.identityId) &&
    host.configuration.proxyAuthCredentialRefId.all (restorePasswordValid m plan)

def restoreDesktopProfileCreateReferencesValid (profile : DesktopProfile) : Bool :=
  (profile.hostId.toList ++ profile.gatewayHostId.toList).all (restoreHostIdValid m plan) &&
    profile.credentialRefId.all (restorePasswordValid m plan)

end

section

variable (m : Metadata) (plan : RestorePlan)

/-- A create whose references are invalid is a conflict. -/
def RestoreObjectDisposition.checked (disposition : RestoreObjectDisposition) (valid : Bool) :
    RestoreObjectDisposition :=
  if disposition = .create ∧ !valid then .conflict else disposition

def previewCredential (input : RestoreCredentialInput) : RestoreObjectDisposition :=
  (restoreCredentialDisposition m input).checked
    (restoreCredentialCreateReferencesValid m plan input)

def previewHost (input : RestoreHostInput) : RestoreObjectDisposition :=
  (restoreHostDisposition m input).checked (restoreHostCreateReferencesValid m plan input)

def previewDesktopProfile (input : RestoreDesktopProfileInput) : RestoreObjectDisposition :=
  (restoreDesktopProfileDisposition m input).checked
    (restoreDesktopProfileCreateReferencesValid m plan input.profile)

def previewDispositions : List RestoreObjectDisposition :=
  plan.identities.map (restoreIdentityDisposition m) ++
    plan.credentials.map (previewCredential m plan) ++
    plan.hosts.map (previewHost m plan) ++
    plan.desktopProfiles.map (previewDesktopProfile m plan)

def previewNewSecretRefs : List SecretRefId :=
  (plan.credentials.filter (previewCredential m plan · = .create)).flatMap
      (fun credential => credential.material.secretRefs.filter (!m.secretRefIsReferenced ·)) ++
    (plan.hosts.filter (previewHost m plan · = .create)).flatMap
      (fun host => host.loginAutomation.secretRefs.filter (!m.secretRefIsReferenced ·))

def sameLabels (actual expected : List String) : Bool :=
  actual.map String.toLower = expected.map String.toLower

def validateRestoreHostTagLabels (input : RestoreHostInput) : Except PersistenceError Unit :=
  match m.hosts.find? fun host => host.hostId = input.hostId with
  | none => reject (input.tagLabels ≠ []) .conflict
  | some host => reject (!sameLabels host.tagLabels input.tagLabels) .conflict

def previewRestorePlan : Except PersistenceError RestorePreview := do
  each (plan.hosts.filter (previewHost m plan · = .alreadyApplied)) (validateRestoreHostTagLabels m)
  pure {
    createCount := (previewDispositions m plan).count .create
    alreadyAppliedCount := (previewDispositions m plan).count .alreadyApplied
    conflictCount := (previewDispositions m plan).count .conflict
    newSecretRefIds := (BTreeSet.ofList (previewNewSecretRefs m plan)).toList }

end

def insertRestoreIdentity (m : Metadata) (input : RestoreIdentityInput) : Metadata :=
  { m with identities := m.identities ++ [⟨input.identityId, input.label, input.username, 1⟩] }

def insertRestoreCredential (m : Metadata) (input : RestoreCredentialInput) : Metadata :=
  { m with
    credentials := m.credentials ++ [⟨input.credentialRefId, input.identityId, input.priority,
      input.label, 1, some input.operationId, some input.idempotencyKey, true,
      .material input.material⟩] }

/-- Each label as the tags have it; a label that no tag has becomes a new tag. -/
def resolveSyncTagLabels (tags : List String) : List String → List String × List String
  | [] => ([], tags)
  | label :: labels =>
    match tags.find? fun tag => tag.toLower = label.toLower with
    | some tag => ((resolveSyncTagLabels tags labels).map (tag :: ·) id)
    | none => ((resolveSyncTagLabels (tags ++ [label]) labels).map (label :: ·) id)

def insertRestoreHost (m : Metadata) (input : RestoreHostInput) : Metadata :=
  let (tagLabels, hostTags) := resolveSyncTagLabels m.hostTags input.tagLabels
  { m with
    hostTags
    hosts := m.hosts ++
      [⟨input.hostId, input.configuration, tagLabels, input.loginAutomation, .initial⟩]
    hostCreateOperations := m.hostCreateOperations ++
      [⟨input.operationId, input.idempotencyKey, input.request, input.hostId⟩] }

def insertRestoreDesktopProfile (m : Metadata) (input : RestoreDesktopProfileInput) : Metadata :=
  { m with desktopProfiles := m.desktopProfiles ++ [input.profile] }

def publish {α : Type} (disposition : Metadata → α → RestoreObjectDisposition)
    (create : Metadata → α → Metadata) (m : Metadata) (inputs : List α) : Metadata :=
  inputs.foldl (fun m input => if disposition m input = .create then create m input else m) m

def publishRestorePlan (m : Metadata) (plan : RestorePlan) : Metadata :=
  let m := publish restoreIdentityDisposition insertRestoreIdentity m plan.identities
  let m := publish restoreCredentialDisposition insertRestoreCredential m plan.credentials
  let m := publish restoreHostDisposition insertRestoreHost m plan.hosts
  publish restoreDesktopProfileDisposition insertRestoreDesktopProfile m plan.desktopProfiles

end NoriShell.Restore

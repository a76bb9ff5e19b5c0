import NoriShell.Vault.Secrets

/-! The tables that a restore reads and publishes to, and which secrets they use. -/

namespace NoriShell.Restore

open Collections Vault

structure ProfileKey where
  pluginId : String
  signerFingerprintSha256 : String
  profileId : String
  deriving DecidableEq

inductive ObjectKind
  | host
  | identity
  | credential
  | secret
  | desktopProfile
  deriving DecidableEq

inductive LocalObjectId
  | host (id : Uuid)
  | identity (id : Uuid)
  | credential (id : Uuid)
  | secret (id : SecretRefId)
  | desktopProfile (id : Uuid)
  deriving DecidableEq

def LocalObjectId.objectKind : LocalObjectId → ObjectKind
  | .host _ => .host
  | .identity _ => .identity
  | .credential _ => .credential
  | .secret _ => .secret
  | .desktopProfile _ => .desktopProfile

structure ObjectMappingInput where
  portableObjectId : Uuid
  localObjectId : LocalObjectId
  deriving DecidableEq

structure ObjectMapping where
  owner : ProfileKey
  portableObjectId : Uuid
  localObjectId : LocalObjectId
  deriving DecidableEq

structure ProfileState where
  key : ProfileKey
  syncKeySecretRefId : Option SecretRefId
  deriving DecidableEq

structure IdentityRecord where
  identityId : Uuid
  label : String
  username : Option String
  stateVersion : Nat
  deriving DecidableEq

inductive CredentialMaterial
  | password (secretRefId : SecretRefId)
  | privateKey (secretRefId : SecretRefId) (passphraseSecretRefId : Option SecretRefId)
      (publicKeyAlgorithm publicKeyFingerprint : String)
  | keyboardInteractive (maxRounds : Nat)
  deriving DecidableEq

namespace CredentialMaterial

def secretRefs : CredentialMaterial → List SecretRefId
  | .password secretRefId => [secretRefId]
  | .privateKey secretRefId passphraseSecretRefId _ _ => secretRefId :: passphraseSecretRefId.toList
  | .keyboardInteractive _ => []

def isPassword : CredentialMaterial → Bool
  | .password _ => true
  | _ => false

end CredentialMaterial

/-- What a stored credential uses: material of its own, or a key held elsewhere
(an agent, a certificate or a hardware key), which needs no secret. -/
inductive CredentialDetails
  | material (value : CredentialMaterial)
  | external
  deriving DecidableEq

def CredentialDetails.secretRefs : CredentialDetails → List SecretRefId
  | .material value => value.secretRefs
  | .external => []

def CredentialDetails.isPassword : CredentialDetails → Bool
  | .material value => value.isPassword
  | .external => false

structure CredentialRecord where
  credentialRefId : Uuid
  identityId : Uuid
  priority : Nat
  label : String
  stateVersion : Nat
  importOperationId : Option Uuid
  importIdempotencyKey : Option String
  importReady : Bool
  details : CredentialDetails
  deriving DecidableEq

inductive LoginAutomationStep
  | expect (literalText : String) (timeoutSeconds : Nat)
  | sendText (text : String) (appendEnter : Bool) (timeoutSeconds : Nat)
  | sendSecret (secretRefId : SecretRefId) (secretLabel : String) (appendEnter : Bool)
      (timeoutSeconds : Nat)
  deriving DecidableEq

structure LoginAutomation where
  enabled : Bool
  confirmed : Bool
  steps : List LoginAutomationStep
  deriving DecidableEq

def LoginAutomation.secretRefs (automation : LoginAutomation) : List SecretRefId :=
  automation.steps.filterMap fun
    | .sendSecret secretRefId _ _ _ => some secretRefId
    | _ => none

/-- A configured host: the references that a restore checks, and its other settings. -/
structure HostConfiguration where
  identityId : Option Uuid
  groupId : Option Uuid
  jumpHostIds : List Uuid
  credentialRefIds : List Uuid
  proxyAuthCredentialRefId : Option Uuid
  settings : String
  deriving DecidableEq

structure HostBaseVersions where
  host : Nat
  route : Nat
  authentication : Nat
  algorithm : Nat
  heartbeat : Nat
  monitoring : Nat
  loginAutomation : Nat
  deriving DecidableEq

def HostBaseVersions.initial : HostBaseVersions := ⟨1, 1, 1, 1, 1, 1, 1⟩

def HostBaseVersions.next (v : HostBaseVersions) : HostBaseVersions :=
  ⟨v.host + 1, v.route + 1, v.authentication + 1, v.algorithm + 1, v.heartbeat + 1,
    v.monitoring + 1, v.loginAutomation + 1⟩

structure HostRecord where
  hostId : Uuid
  configuration : HostConfiguration
  tagLabels : List String
  loginAutomation : LoginAutomation
  versions : HostBaseVersions
  deriving DecidableEq

/-- The recorded request of a configured create; it outlives its host. -/
structure HostCreateOperation where
  operationId : Uuid
  idempotencyKey : String
  request : HostConfiguration × List String × LoginAutomation
  hostId : Uuid
  deriving DecidableEq

structure DesktopProfile where
  id : Uuid
  hostId : Option Uuid
  gatewayHostId : Option Uuid
  credentialRefId : Option Uuid
  settings : String
  revision : Nat
  deriving DecidableEq

structure Metadata where
  identities : List IdentityRecord
  credentials : List CredentialRecord
  hosts : List HostRecord
  hostCreateOperations : List HostCreateOperation
  desktopProfiles : List DesktopProfile
  hostGroups : List Uuid
  hostTags : List String
  mappings : List ObjectMapping
  profileStates : List ProfileState
  deriving DecidableEq

namespace Metadata

variable (m : Metadata)

def secretRefIsUsedByLocalMetadata (r : SecretRefId) : Bool :=
  m.credentials.any (r ∈ ·.details.secretRefs) || m.hosts.any (r ∈ ·.loginAutomation.secretRefs)

def secretRefIsReferenced (r : SecretRefId) : Bool :=
  m.secretRefIsUsedByLocalMetadata r || m.mappings.any (·.localObjectId = .secret r)

def identityExists (id : Uuid) : Bool :=
  m.identities.any (·.identityId = id)

def hostExists (id : Uuid) : Bool :=
  m.hosts.any (·.hostId = id)

def isSyncKey (r : SecretRefId) : Bool :=
  m.profileStates.any (·.syncKeySecretRefId = some r)

end Metadata

end NoriShell.Restore

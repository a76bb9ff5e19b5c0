import NoriShell.Collections.Base64
import NoriShell.Collections.JsonText
import NoriShell.Sync.Canonical

/-! The encrypted exchange that a sync plugin carries.  The cipher, the hash and the JSON
reader are parameters. -/

namespace NoriShell.Exchange

open Collections Sync

abbrev SyncKey := Vector UInt8 32

abbrev Nonce := Vector UInt8 24

def maxExchangeBytes : Nat := 96 * 1024 * 1024
def maxVaultKeyEnvelopeBytes : Nat := 64 * 1024
def maxOwnerTextBytes : Nat := 512
def maxEtagBytes : Nat := 1024

def exchangeFormat : String := "norishell-ssh-sync-exchange-v2"
def vaultExchangeFormat : String := "norishell-ssh-vault-exchange-v3"
def serviceSyncAlgorithm : String := "xchacha20poly1305-ietf"

def isIdentifierChar (c : Char) : Bool :=
  Text.isAsciiAlphanumeric c || c ∈ ['.', '-', '_', ':']

def validateIdentifier (value : String) (maximum : Nat) : Except SyncCodecError Unit :=
  reject (value = "" ∨ value.utf8ByteSize > maximum ∨ ¬value.toList.all isIdentifierChar)
    (.invalidBundle "invalid exchange identifier")

def isLowerHex (c : Char) : Bool :=
  Text.isAsciiDigit c || ('a' ≤ c ∧ c ≤ 'f')

def validSha256 (value : String) : Bool :=
  value.utf8ByteSize = 64 ∧ value.toList.all isLowerHex

def invalidEtag (etag : Option String) : Bool :=
  etag.any fun value =>
    value = "" ∨ value.utf8ByteSize > maxEtagBytes ∨ value.toList.any Text.isControl

def validateOwnerText (value field : String) : Except SyncCodecError Unit :=
  reject (value = "" ∨ value.utf8ByteSize > maxOwnerTextBytes ∨ value.toList.any Text.isControl)
    (.invalidBundle field)

def hexText (bytes : List UInt8) : String :=
  String.ofList (bytes.flatMap fun byte =>
    [Nat.digitChar (byte.toNat / 16), Nat.digitChar (byte.toNat % 16)])

structure ExchangeOwnerWire where
  pluginId : String
  signerFingerprintSha256 : String
  profileId : String
  deriving DecidableEq

structure PluginExchangeBinding where
  pluginId : String
  signerFingerprintSha256 : String
  profileId : String
  revision : UInt64
  baseRevision : Option UInt64
  baseEtag : Option String
  deriving DecidableEq

namespace PluginExchangeBinding

variable (binding : PluginExchangeBinding)

def validate : Except SyncCodecError Unit := do
  validateIdentifier binding.pluginId 160
  reject (!validSha256 binding.signerFingerprintSha256) (.invalidBundle "invalid signer fingerprint")
  validateIdentifier binding.profileId 160
  reject (binding.revision = 0 ∨ binding.baseRevision.any (binding.revision ≤ ·))
    (.invalidBundle "invalid exchange revision")
  reject (invalidEtag binding.baseEtag) (.invalidBundle "invalid exchange base etag")

def owner : ExchangeOwnerWire :=
  ⟨binding.pluginId, binding.signerFingerprintSha256, binding.profileId⟩

def ownerId : String :=
  "plugin:" ++ Nat.repr binding.pluginId.utf8ByteSize ++ ":" ++ binding.pluginId ++ ":signer:" ++
    binding.signerFingerprintSha256 ++ ":profile:" ++ Nat.repr binding.profileId.utf8ByteSize ++
    ":" ++ binding.profileId

end PluginExchangeBinding

inductive SyncObjectKind
  | sshProfileBundle
  deriving DecidableEq

structure SyncObjectBinding where
  applicationId : String
  accountId : String
  schema : BundleSchema
  objectKind : SyncObjectKind
  revision : UInt64
  baseRevision : Option UInt64
  baseEtag : Option String
  keyVersion : UInt32
  deriving DecidableEq

def SyncObjectBinding.validate (binding : SyncObjectBinding) : Except SyncCodecError Unit := do
  validateOwnerText binding.applicationId "application ID"
  validateOwnerText binding.accountId "account ID"
  reject (binding.revision = 0) (.invalidBundle "revision must be positive")
  reject (binding.baseRevision.any (binding.revision ≤ ·))
    (.invalidBundle "base revision must be positive and lower than revision")
  reject (binding.keyVersion = 0) (.invalidBundle "sync key version must be positive")
  reject (invalidEtag binding.baseEtag) (.invalidBundle "invalid base etag")

def objectBindingForSchema (binding : PluginExchangeBinding) (keyVersion : UInt32)
    (schema : BundleSchema) : SyncObjectBinding where
  applicationId := "norishell"
  accountId := binding.ownerId
  schema
  objectKind := .sshProfileBundle
  revision := binding.revision
  baseRevision := binding.baseRevision
  baseEtag := binding.baseEtag
  keyVersion

/-- Older schemas remain readable, except the first. -/
def authenticatedObjectBinding (binding : PluginExchangeBinding) (keyVersion : UInt32)
    (schema : BundleSchema) : Except SyncCodecError SyncObjectBinding :=
  match schema with
  | .v1 => .error .bindingMismatch
  | schema => .ok (objectBindingForSchema binding keyVersion schema)

section

structure RecoveryWire where
  envelope : String
  envelopeSha256 : String
  deriving DecidableEq

structure EncryptedWire where
  algorithm : String
  nonce : String
  ciphertext : String
  ciphertextSha256 : String
  deriving DecidableEq

structure ExchangeWire where
  format : String
  owner : ExchangeOwnerWire
  binding : SyncObjectBinding
  recovery : RecoveryWire
  encrypted : EncryptedWire
  deriving DecidableEq

def schemaName : BundleSchema → String
  | .v1 => "norishell-ssh-profile-bundle-v1"
  | .v2 => "norishell-ssh-profile-bundle-v2"
  | .v3 => "norishell-ssh-profile-bundle-v3"
  | .v4 => "norishell-ssh-profile-bundle-v4"
  | .v5 => "norishell-ssh-profile-bundle-v5"
  | .v6 => "norishell-ssh-profile-bundle-v6"

def SyncObjectKind.name : SyncObjectKind → String
  | .sshProfileBundle => "sshProfileBundle"

open JsonText

def ExchangeOwnerWire.text (owner : ExchangeOwnerWire) : List Char :=
  object [("pluginId", quote owner.pluginId),
    ("signerFingerprintSha256", quote owner.signerFingerprintSha256),
    ("profileId", quote owner.profileId)]

def SyncObjectBinding.text (binding : SyncObjectBinding) : List Char :=
  object [("applicationId", quote binding.applicationId), ("accountId", quote binding.accountId),
    ("schema", quote (schemaName binding.schema)),
    ("objectKind", quote binding.objectKind.name),
    ("revision", natural binding.revision.toNat),
    ("baseRevision", optional (natural ·.toNat) binding.baseRevision),
    ("baseEtag", optional quote binding.baseEtag),
    ("keyVersion", natural binding.keyVersion.toNat)]

def RecoveryWire.text (recovery : RecoveryWire) : List Char :=
  object [("envelope", quote recovery.envelope), ("envelopeSha256", quote recovery.envelopeSha256)]

def EncryptedWire.text (encrypted : EncryptedWire) : List Char :=
  object [("algorithm", quote encrypted.algorithm), ("nonce", quote encrypted.nonce),
    ("ciphertext", quote encrypted.ciphertext),
    ("ciphertextSha256", quote encrypted.ciphertextSha256)]

def ExchangeWire.text (wire : ExchangeWire) : List Char :=
  object [("format", quote wire.format), ("owner", wire.owner.text), ("binding", wire.binding.text),
    ("recovery", wire.recovery.text),
    ("encrypted", wire.encrypted.text)]

def utf8 (text : List Char) : List UInt8 :=
  (String.ofList text).toByteArray.data.toList

def ExchangeWire.toVec (wire : ExchangeWire) : List UInt8 :=
  utf8 wire.text

end

/-- The cipher gives back what it encrypted, sixteen bytes longer, under the same key, nonce
and associated data; reading gives back the wire that was written. -/
structure ExchangeLibraries where
  bundles : BundleCodec
  inverts : bundles.Inverts
  fromSlice : List UInt8 → Except SyncCodecError ExchangeWire
  fromSlice_toVec : ∀ wire, fromSlice wire.toVec = .ok wire
  sha256 : List UInt8 → Vector UInt8 32
  encrypt : SyncKey → Nonce → (associated message : List UInt8) → List UInt8
  decrypt : SyncKey → Nonce → (associated ciphertext : List UInt8) → Option (List UInt8)
  decrypt_encrypt : ∀ key nonce associated message,
    decrypt key nonce associated (encrypt key nonce associated message) = some message
  length_encrypt : ∀ key nonce associated message,
    (encrypt key nonce associated message).length = message.length + 16

def encodeBase64 (code : Base64) (bytes : List UInt8) : String :=
  String.ofList (code.encode bytes)

def canonicalBase64 (code : Base64) (value : String) : Bool :=
  match code.decode value.toList with
  | some decoded => encodeBase64 code decoded = value
  | none => false

def decodeBase64 (value : String) (maximum : Nat) : Except SyncCodecError (List UInt8) := do
  reject (value.utf8ByteSize > (maximum + 2) / 3 * 4 + 4) (.boundExceeded "exchange ciphertext")
  match Base64.standard.decode value.toList with
  | none => .error .authenticationFailed
  | some decoded =>
    reject (decoded.length > maximum ∨ encodeBase64 .standard decoded ≠ value) .authenticationFailed
    pure decoded

def decodeBase64urlFixed (n : Nat) (value field : String) :
    Except SyncCodecError (Vector UInt8 n) :=
  match Base64.urlSafeNoPad.decode value.toList with
  | none => .error (.invalidBundle field)
  | some decoded =>
    if encodeBase64 .urlSafeNoPad decoded ≠ value then .error (.invalidBundle field)
    else if h : decoded.length = n then .ok ⟨decoded.toArray, by simpa using h⟩
    else .error (.invalidBundle field)

structure EncryptedSyncObject where
  algorithm : String
  nonceBase64url : String
  ciphertext : List UInt8
  ciphertextSha256 : String

structure PluginExchangeSummary where
  schema : BundleSchema
  revision : UInt64
  baseRevision : Option UInt64
  baseEtag : Option String
  keyVersion : UInt32
  ciphertextSha256 : String
  exchangeSha256 : String
  deriving DecidableEq

namespace ExchangeLibraries

variable (libs : ExchangeLibraries)

def sha256Hex (bytes : List UInt8) : String :=
  hexText (libs.sha256 bytes).toList

def encryptBundleForService (bundle : PortableBundleV1) (key : SyncKey) (nonce : Nonce)
    (binding : SyncObjectBinding) : Except SyncCodecError EncryptedSyncObject := do
  binding.validate
  reject (binding.revision.toNat ≠ bundle.revision ∨ binding.schema ≠ bundle.schema)
    .bindingMismatch
  let plaintext ← libs.bundles.canonicalBundleBytes bundle
  let ciphertext := libs.encrypt key nonce (utf8 binding.text) plaintext
  pure {
    algorithm := serviceSyncAlgorithm
    nonceBase64url := encodeBase64 .urlSafeNoPad nonce.toList
    ciphertext
    ciphertextSha256 := libs.sha256Hex ciphertext }

def decryptBundleFromService (encrypted : EncryptedSyncObject) (key : SyncKey)
    (expectedBinding : SyncObjectBinding) : Except SyncCodecError PortableBundleV1 := do
  expectedBinding.validate
  reject (encrypted.algorithm ≠ serviceSyncAlgorithm ∨
    encrypted.ciphertext.length > maxBundlePlaintextBytes + 16 ∨
    libs.sha256Hex encrypted.ciphertext ≠ encrypted.ciphertextSha256) .authenticationFailed
  let nonce ← decodeBase64urlFixed 24 encrypted.nonceBase64url "sync nonce"
  match libs.decrypt key nonce (utf8 expectedBinding.text) encrypted.ciphertext with
  | none => .error .authenticationFailed
  | some plaintext =>
    let bundle ← libs.bundles.decodeBundle plaintext
    reject (bundle.revision ≠ expectedBinding.revision.toNat ∨
      bundle.schema ≠ expectedBinding.schema) .bindingMismatch
    pure bundle

def checkExchangeInputs (bundle : PortableBundleV1) (vaultKeyEnvelope : List UInt8)
    (binding : PluginExchangeBinding) : Except SyncCodecError Unit := do
  binding.validate
  reject (bundle.schema ∉ [.v3, .v4, .v5, .v6] ∨ bundle.revision ≠ binding.revision.toNat ∨
    vaultKeyEnvelope = [] ∨ vaultKeyEnvelope.length > maxVaultKeyEnvelopeBytes) .bindingMismatch

def exchangeWire (encrypted : EncryptedSyncObject) (vaultKeyEnvelope : List UInt8)
    (binding : PluginExchangeBinding) (schema : BundleSchema) : ExchangeWire where
  format := vaultExchangeFormat
  owner := binding.owner
  binding := objectBindingForSchema binding 1 schema
  recovery := {
    envelope := encodeBase64 .standard vaultKeyEnvelope
    envelopeSha256 := libs.sha256Hex vaultKeyEnvelope }
  encrypted := {
    algorithm := encrypted.algorithm
    nonce := encrypted.nonceBase64url
    ciphertext := encodeBase64 .standard encrypted.ciphertext
    ciphertextSha256 := encrypted.ciphertextSha256 }

def createPluginExchangeWithKey (bundle : PortableBundleV1) (key : SyncKey) (nonce : Nonce)
    (vaultKeyEnvelope : List UInt8) (binding : PluginExchangeBinding) :
    Except SyncCodecError (List UInt8) := do
  checkExchangeInputs bundle vaultKeyEnvelope binding
  let encrypted ← libs.encryptBundleForService bundle key nonce
    (objectBindingForSchema binding 1 bundle.schema)
  let bytes := (libs.exchangeWire encrypted vaultKeyEnvelope binding bundle.schema).toVec
  reject (bytes.length > maxExchangeBytes) (.boundExceeded "plugin exchange")
  pure bytes

def parseWire (bytes : List UInt8) : Except SyncCodecError ExchangeWire := do
  reject (bytes = [] ∨ bytes.length > maxExchangeBytes) (.boundExceeded "plugin exchange")
  libs.fromSlice bytes

def validateWireCommon (wire : ExchangeWire) (expected : PluginExchangeBinding) :
    Except SyncCodecError Unit := do
  expected.validate
  let expectedBinding ← authenticatedObjectBinding expected 1 wire.binding.schema
  reject (wire.owner ≠ expected.owner ∨ wire.binding ≠ expectedBinding) .bindingMismatch
  reject (wire.encrypted.algorithm ≠ serviceSyncAlgorithm ∨
    !canonicalBase64 .standard wire.recovery.envelope ∨
    !canonicalBase64 .standard wire.encrypted.ciphertext ∨
    !canonicalBase64 .urlSafeNoPad wire.encrypted.nonce ∨
    !validSha256 wire.recovery.envelopeSha256 ∨
    !validSha256 wire.encrypted.ciphertextSha256) .authenticationFailed

def validateWireWithFormat (wire : ExchangeWire) (expected : PluginExchangeBinding)
    (format : String) : Except SyncCodecError Unit := do
  reject (wire.format ≠ format) .bindingMismatch
  validateWireCommon wire expected

def validateWireAnySupported (wire : ExchangeWire) (expected : PluginExchangeBinding) :
    Except SyncCodecError Unit := do
  reject (wire.format ≠ exchangeFormat ∧ wire.format ≠ vaultExchangeFormat) .bindingMismatch
  validateWireCommon wire expected

def inspectWireOwner (wire : ExchangeWire) (bytes : List UInt8)
    (pluginId signerFingerprintSha256 profileId : String) :
    Except SyncCodecError (PluginExchangeBinding × PluginExchangeSummary) := do
  let binding : PluginExchangeBinding := {
    pluginId, signerFingerprintSha256, profileId
    revision := wire.binding.revision
    baseRevision := wire.binding.baseRevision
    baseEtag := wire.binding.baseEtag }
  validateWireAnySupported wire binding
  pure (binding, {
    schema := wire.binding.schema
    revision := wire.binding.revision
    baseRevision := wire.binding.baseRevision
    baseEtag := wire.binding.baseEtag
    keyVersion := wire.binding.keyVersion
    ciphertextSha256 := wire.encrypted.ciphertextSha256
    exchangeSha256 := libs.sha256Hex bytes })

/-- The owner that the exchange records, which nothing vouches for yet. -/
def inspectPluginExchangeDataOwner (bytes : List UInt8) (pluginId profileId : String) :
    Except SyncCodecError (PluginExchangeBinding × PluginExchangeSummary) := do
  let wire ← libs.parseWire bytes
  libs.inspectWireOwner wire bytes pluginId wire.owner.signerFingerprintSha256 profileId

def pluginExchangeVaultKeyEnvelope (bytes : List UInt8) (expected : PluginExchangeBinding) :
    Except SyncCodecError (List UInt8) := do
  let wire ← libs.parseWire bytes
  validateWireWithFormat wire expected vaultExchangeFormat
  let envelope ← decodeBase64 wire.recovery.envelope maxVaultKeyEnvelopeBytes
  reject (libs.sha256Hex envelope ≠ wire.recovery.envelopeSha256) .authenticationFailed
  pure envelope

def syncAlgorithm (value : String) : Except SyncCodecError String :=
  if value = serviceSyncAlgorithm then .ok serviceSyncAlgorithm else .error .authenticationFailed

def openPluginExchangeWithKey (bytes : List UInt8) (key : SyncKey)
    (expected : PluginExchangeBinding) : Except SyncCodecError PortableBundleV1 := do
  let wire ← libs.parseWire bytes
  validateWireWithFormat wire expected vaultExchangeFormat
  let algorithm ← syncAlgorithm wire.encrypted.algorithm
  let ciphertext ← decodeBase64 wire.encrypted.ciphertext (64 * 1024 * 1024 + 16)
  libs.decryptBundleFromService {
    algorithm, ciphertext
    nonceBase64url := wire.encrypted.nonce
    ciphertextSha256 := wire.encrypted.ciphertextSha256 } key wire.binding

end ExchangeLibraries

end NoriShell.Exchange

import NoriShell.Vault.Secrets
import NoriShell.Collections.Base64

/-! The encrypted vault file: its envelope, its payload and how both are opened. -/

namespace NoriShell.Vault

open Collections

abbrev Bytes := List UInt8

abbrev Block (n : Nat) := { bytes : Bytes // bytes.length = n }

def keyBytes : Nat := 32
def saltBytes : Nat := 16
def nonceBytes : Nat := 24

abbrev Key := Block keyBytes

inductive VaultFailure where
  | vault (error : VaultError)
  | authenticationFailed
  | weakPassword
  | insecurePermissions
  | invalidEnvelope (reason : String)
  | unsupportedFormat (version : UInt32)
  | tooLarge
  | keyDerivation
  | secretNotFound (secretRef : SecretRefId)
  | serialization
  deriving DecidableEq

abbrev VaultFailure.io : VaultFailure := .vault .io
abbrev VaultFailure.reloadRequired : VaultFailure := .vault .reloadRequired
abbrev VaultFailure.commitStateUnknown : VaultFailure := .vault .commitStateUnknown

def ofSecrets {α : Type} : Except VaultError α → Except VaultFailure α
  | .ok value => .ok value
  | .error error => .error (.vault error)

structure CommandHistoryEntry where
  entryId : Uuid
  scope : String
  command : String
  completedAtUnixMs : Int64
  elapsedMillis : UInt64
  exitCode : Option Int32
  deriving DecidableEq

def commandHistorySchemaVersion : UInt32 := 1

structure CommandHistoryPayload where
  schemaVersion : UInt32 := commandHistorySchemaVersion
  entries : List CommandHistoryEntry := []
  deriving DecidableEq

structure VaultPayloadV1 where
  schemaVersion : UInt32
  revision : UInt64
  parentEnvelopeSha256 : Option String
  entries : SecretEntries
  commandHistory : CommandHistoryPayload
  deriving DecidableEq

structure KdfHeader where
  id : String
  profile : String
  memoryKib : UInt32
  iterations : UInt32
  parallelism : UInt32
  salt : String
  deriving DecidableEq

structure CiphertextSection where
  cipher : String
  nonce : String
  ciphertext : String
  deriving DecidableEq

structure VaultEnvelope where
  magic : String
  formatVersion : UInt32
  vaultId : Uuid
  kdf : KdfHeader
  wrappedVaultKey : CiphertextSection
  payload : CiphertextSection
  deriving DecidableEq

structure KeyWrapAad where
  magic : String
  formatVersion : UInt32
  vaultId : Uuid
  kdf : KdfHeader
  cipher : String
  nonce : String

structure PayloadAad where
  magic : String
  formatVersion : UInt32
  vaultId : Uuid
  cipher : String
  nonce : String

def magic : String := "NORISHELL_VAULT"
def formatVersion : UInt32 := 1
def payloadSchemaVersion : UInt32 := 1
def kdfId : String := "argon2id-v1"
def kdfProfile : String := "interactive-v1"
def cipherId : String := "xchacha20poly1305-v1"
def kdfMemoryKib : UInt32 := 64 * 1024
def kdfIterations : UInt32 := 3
def kdfParallelism : UInt32 := 1
def maxVaultFileBytes : Nat := 64 * 1024 * 1024
def minPasswordCharacters : Nat := 8
def maxCommandHistoryEntries : Nat := 2000
def maxCommandHistoryCommandBytes : Nat := 16 * 1024
def maxCommandHistoryScopeBytes : Nat := 160
def maxCommandHistoryTotalBytes : Nat := 8 * 1024 * 1024

/-- What the vault takes from its libraries: key derivation, authenticated encryption,
hashing and JSON. -/
structure Primitives where
  argon2 (password salt : Bytes) : Option Key
  encrypt (key : Key) (nonce : Block nonceBytes) (aad message : Bytes) : Option Bytes
  decrypt (key : Key) (nonce : Block nonceBytes) (aad ciphertext : Bytes) : Option Bytes
  sha256Hex (bytes : Bytes) : String
  keyWrapAad (aad : KeyWrapAad) : Option Bytes
  payloadAad (aad : PayloadAad) : Option Bytes
  encodePayload (payload : VaultPayloadV1) : Option Bytes
  decodePayload (bytes : Bytes) : Option VaultPayloadV1
  encodeEnvelope (envelope : VaultEnvelope) : Option Bytes
  decodeEnvelope (bytes : Bytes) : Option VaultEnvelope

/-- Encryption and JSON read back what they wrote, and write something. -/
structure Primitives.Sound (lib : Primitives) : Prop where
  decrypts {key : Key} {nonce : Block nonceBytes} {aad message ciphertext : Bytes} :
    lib.encrypt key nonce aad message = some ciphertext →
      lib.decrypt key nonce aad ciphertext = some message ∧ ciphertext ≠ []
  decodesPayload {payload : VaultPayloadV1} {bytes : Bytes} :
    lib.encodePayload payload = some bytes → lib.decodePayload bytes = some payload
  decodesEnvelope {envelope : VaultEnvelope} {bytes : Bytes} :
    lib.encodeEnvelope envelope = some bytes → lib.decodeEnvelope bytes = some envelope ∧ bytes ≠ []

def orFail {ε α : Type} (value : Option α) (error : ε) : Except ε α :=
  match value with
  | some value => .ok value
  | none => .error error

def base64 (bytes : Bytes) : String := .ofList (Base64.standard.encode bytes)

def fromBase64 (text : String) : Option Bytes := Base64.standard.decode text.toList

def validateNewPassword (password : Bytes) : Except VaultFailure Unit :=
  reject (((String.fromUTF8? ⟨password.toArray⟩).map String.length).getD 0 < minPasswordCharacters)
    .weakPassword

def hasAsciiControl (text : String) : Bool :=
  text.toByteArray.data.toList.any fun byte => byte < 32 || byte = 127

def admitHistoryEntry (seen : BTreeSet Uuid × Nat) (entry : CommandHistoryEntry) :
    Except VaultFailure (BTreeSet Uuid × Nat) := do
  reject (entry.entryId = 0 ∨ entry.entryId ∈ seen.1)
    (.invalidEnvelope "invalid command history entry id")
  reject (entry.scope = "" ∨ entry.scope.utf8ByteSize > maxCommandHistoryScopeBytes ∨
    hasAsciiControl entry.scope) (.invalidEnvelope "invalid command history scope")
  reject (entry.command = "" ∨ entry.command.utf8ByteSize > maxCommandHistoryCommandBytes ∨
    hasAsciiControl entry.command) (.invalidEnvelope "invalid command history command")
  let total := seen.2 + entry.scope.utf8ByteSize + entry.command.utf8ByteSize
  reject (total > maxCommandHistoryTotalBytes) (.invalidEnvelope "command history is too large")
  pure (seen.1.insert entry.entryId, total)

def validateCommandHistory (history : CommandHistoryPayload) : Except VaultFailure Unit := do
  reject (history.schemaVersion ≠ commandHistorySchemaVersion)
    (.invalidEnvelope "unsupported command history schema")
  reject (history.entries.length > maxCommandHistoryEntries)
    (.invalidEnvelope "command history exceeds entry limit")
  let _ ← history.entries.foldlM admitHistoryEntry (.empty, 0)

def validatePayloadEntries (payload : VaultPayloadV1) : Except VaultFailure Unit := do
  each payload.entries.toList fun entry =>
    ofSecrets (validateSecretValue entry.2.kind entry.2.value)
  validateCommandHistory payload.commandHistory

def decodeNonce (section_ : CiphertextSection) : Except VaultFailure (Block nonceBytes) := do
  let nonce ← orFail (fromBase64 section_.nonce) (.invalidEnvelope "invalid nonce")
  if h : nonce.length = nonceBytes then .ok ⟨nonce, h⟩
  else .error (.invalidEnvelope "invalid nonce length")

def validateCiphertextSection (section_ : CiphertextSection) : Except VaultFailure Unit := do
  reject (section_.cipher ≠ cipherId) (.invalidEnvelope "unsupported cipher")
  let _ ← decodeNonce section_
  let ciphertext ← orFail (fromBase64 section_.ciphertext) (.invalidEnvelope "invalid ciphertext")
  reject (ciphertext = []) (.invalidEnvelope "empty ciphertext")

def validateKdfParameters (kdf : KdfHeader) : Except VaultFailure Unit := do
  reject (kdf.id ≠ kdfId ∨ kdf.profile ≠ kdfProfile ∨ kdf.memoryKib ≠ kdfMemoryKib ∨
    kdf.iterations ≠ kdfIterations ∨ kdf.parallelism ≠ kdfParallelism)
    (.invalidEnvelope "unsupported KDF profile")
  let salt ← orFail (fromBase64 kdf.salt) (.invalidEnvelope "invalid salt")
  reject (salt.length ≠ saltBytes) (.invalidEnvelope "invalid salt length")

def validateEnvelope (envelope : VaultEnvelope) : Except VaultFailure Unit := do
  reject (envelope.magic ≠ magic) (.invalidEnvelope "wrong magic")
  reject (envelope.formatVersion ≠ formatVersion) (.unsupportedFormat envelope.formatVersion)
  reject (envelope.vaultId = 0) (.invalidEnvelope "vault ID must not be nil")
  validateKdfParameters envelope.kdf
  validateCiphertextSection envelope.wrappedVaultKey
  validateCiphertextSection envelope.payload

def fillRandom {α : Type} (draw : Option α) : Except VaultFailure α := orFail draw .io

def newKdfHeader (salt : Option (Block saltBytes)) : Except VaultFailure KdfHeader := do
  let salt ← fillRandom salt
  pure {
    id := kdfId
    profile := kdfProfile
    memoryKib := kdfMemoryKib
    iterations := kdfIterations
    parallelism := kdfParallelism
    salt := base64 salt.val }

section

variable (lib : Primitives)

def deriveKey (password : Bytes) (kdf : KdfHeader) : Except VaultFailure Key := do
  validateKdfParameters kdf
  let salt ← orFail (fromBase64 kdf.salt) (.invalidEnvelope "invalid salt")
  orFail (lib.argon2 password salt) .keyDerivation

def wrapVaultKey (vaultId : Uuid) (kdf : KdfHeader) (keyEncryptionKey vaultMasterKey : Key)
    (nonce : Option (Block nonceBytes)) : Except VaultFailure CiphertextSection := do
  let nonce ← fillRandom nonce
  let aad ← orFail (lib.keyWrapAad
    { magic, formatVersion, vaultId, kdf, cipher := cipherId, nonce := base64 nonce.val })
    .serialization
  let ciphertext ← orFail (lib.encrypt keyEncryptionKey nonce aad vaultMasterKey.val)
    .authenticationFailed
  pure { cipher := cipherId, nonce := base64 nonce.val, ciphertext := base64 ciphertext }

def unwrapVaultKeyParts (vaultId : Uuid) (kdf : KdfHeader) (wrapped : CiphertextSection)
    (keyEncryptionKey : Key) : Except VaultFailure Key := do
  let nonce ← decodeNonce wrapped
  let ciphertext ← orFail (fromBase64 wrapped.ciphertext)
    (.invalidEnvelope "invalid wrapped vault key")
  let aad ← orFail (lib.keyWrapAad
    { magic, formatVersion, vaultId, kdf, cipher := wrapped.cipher, nonce := wrapped.nonce })
    .serialization
  let unwrapped ← orFail (lib.decrypt keyEncryptionKey nonce aad ciphertext) .authenticationFailed
  if h : unwrapped.length = keyBytes then .ok ⟨unwrapped, h⟩ else .error .authenticationFailed

def encryptPayload (vaultId : Uuid) (vaultMasterKey : Key) (plaintext : Bytes)
    (nonce : Option (Block nonceBytes)) : Except VaultFailure CiphertextSection := do
  let nonce ← fillRandom nonce
  let aad ← orFail (lib.payloadAad
    { magic, formatVersion, vaultId, cipher := cipherId, nonce := base64 nonce.val })
    .serialization
  let ciphertext ← orFail (lib.encrypt vaultMasterKey nonce aad plaintext) .authenticationFailed
  pure { cipher := cipherId, nonce := base64 nonce.val, ciphertext := base64 ciphertext }

def decryptPayload (envelope : VaultEnvelope) (vaultMasterKey : Key) :
    Except VaultFailure VaultPayloadV1 := do
  let nonce ← decodeNonce envelope.payload
  let ciphertext ← orFail (fromBase64 envelope.payload.ciphertext)
    (.invalidEnvelope "invalid ciphertext")
  let aad ← orFail (lib.payloadAad
    { magic := envelope.magic
      formatVersion := envelope.formatVersion
      vaultId := envelope.vaultId
      cipher := envelope.payload.cipher
      nonce := envelope.payload.nonce }) .serialization
  let plaintext ← orFail (lib.decrypt vaultMasterKey nonce aad ciphertext) .authenticationFailed
  orFail (lib.decodePayload plaintext) .serialization

def parseEncryptedVaultEnvelope (encryptedEnvelope : Bytes) : Except VaultFailure VaultEnvelope := do
  reject (encryptedEnvelope = []) (.invalidEnvelope "vault envelope is empty")
  reject (encryptedEnvelope.length > maxVaultFileBytes) .tooLarge
  let envelope ← orFail (lib.decodeEnvelope encryptedEnvelope) .serialization
  validateEnvelope envelope
  pure envelope

def unlockVaultEnvelope (envelope : VaultEnvelope) (password : Bytes) :
    Except VaultFailure (Key × VaultPayloadV1) := do
  validateEnvelope envelope
  let keyEncryptionKey ← deriveKey lib password envelope.kdf
  let vaultMasterKey ← unwrapVaultKeyParts lib envelope.vaultId envelope.kdf
    envelope.wrappedVaultKey keyEncryptionKey
  let payload ← decryptPayload lib envelope vaultMasterKey
  reject (payload.schemaVersion ≠ payloadSchemaVersion)
    (.invalidEnvelope "unsupported payload schema")
  validatePayloadEntries payload
  pure (vaultMasterKey, payload)

end

end NoriShell.Vault

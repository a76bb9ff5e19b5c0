import NoriShell.Vault.Envelope
import NoriShell.Stateful

/-! The unlocked vault: its operations change the vault in memory, write the file and undo
their own changes when the write fails. -/

namespace NoriShell.Vault

open Collections Stateful

structure UnlockedVault where
  vaultId : Uuid
  kdf : KdfHeader
  wrappedVaultKey : CiphertextSection
  vaultMasterKey : Key
  payload : VaultPayloadV1
  poisoned : Bool := false
  deriving DecidableEq

structure World where
  vault : UnlockedVault
  file : Option Bytes
  deriving DecidableEq

abbrev Action := Stateful World VaultFailure

inductive FileError where
  | io
  | insecurePermissions
  | invalidPath (reason : String)
  deriving DecidableEq

def FileError.failure : FileError → VaultFailure
  | .io => .io
  | .insecurePermissions => .insecurePermissions
  | .invalidPath reason => .invalidEnvelope reason

/-- What becomes of an atomic write.  Where its state is unknown, it may have been applied. -/
inductive WriteOutcome where
  | done
  | beforeCommit (error : FileError)
  | commitStateUnknown (applied : Bool)
  deriving DecidableEq

/-- What one call meets: the randomness it draws, and what its file accesses come to. -/
structure Turn where
  salt : Option (Block saltBytes)
  wrapNonce : Option (Block nonceBytes)
  payloadNonce : Option (Block nonceBytes)
  ids : List Uuid
  readError : Option FileError
  write : WriteOutcome

namespace UnlockedVault

variable (vault : UnlockedVault)

def withEntries (entries : SecretEntries) : UnlockedVault :=
  { vault with payload := { vault.payload with entries } }

def withHistory (commandHistory : CommandHistoryPayload) : UnlockedVault :=
  { vault with payload := { vault.payload with commandHistory } }

def withRevision (revision : UInt64) : UnlockedVault :=
  { vault with payload := { vault.payload with revision } }

def withParent (parentEnvelopeSha256 : Option String) : UnlockedVault :=
  { vault with payload := { vault.payload with parentEnvelopeSha256 } }

def withWrap (kdf : KdfHeader) (wrappedVaultKey : CiphertextSection) : UnlockedVault :=
  { vault with kdf, wrappedVaultKey }

def poison : UnlockedVault := { vault with poisoned := true }

end UnlockedVault

def theVault : Action UnlockedVault := do
  return (← state).vault

def update (f : UnlockedVault → UnlockedVault) : Action Unit :=
  change fun w => { w with vault := f w.vault }

def ensureUsable : Action Unit := do
  if (← theVault).poisoned then fail .reloadRequired

def checkedNext (revision : UInt64) : Except VaultFailure UInt64 :=
  if revision.toNat = 2 ^ 64 - 1 then .error (.invalidEnvelope "revision overflow")
  else .ok (revision + 1)

section

variable (lib : Primitives) (turn : Turn)

def encodeCurrentEnvelope (vault : UnlockedVault) : Except VaultFailure Bytes := do
  let plaintext ← orFail (lib.encodePayload vault.payload) .serialization
  let payload ← encryptPayload lib vault.vaultId vault.vaultMasterKey plaintext turn.payloadNonce
  orFail (lib.encodeEnvelope
    { magic
      formatVersion
      vaultId := vault.vaultId
      kdf := vault.kdf
      wrappedVaultKey := vault.wrappedVaultKey
      payload }) .serialization

def readBounded (file : Bytes) : Except VaultFailure Bytes := do
  match turn.readError with
  | some error => .error error.failure
  | none => reject (file.length > maxVaultFileBytes) .tooLarge
  pure file

def currentEnvelopeDigest (file : Option Bytes) : Except VaultFailure (Option String) :=
  match file with
  | none => .ok none
  | some file => do
    let bytes ← readBounded turn file
    pure (some (lib.sha256Hex bytes))

def atomicWrite (contents : Bytes) : Action Unit :=
  match turn.write with
  | .done => change fun w => { w with file := some contents }
  | .beforeCommit error => fail error.failure
  | .commitStateUnknown applied => do
    change fun w => { w with file := if applied then some contents else w.file }
    fail .commitStateUnknown

def persist : Action Unit := do
  ensureUsable
  let previousParent := (← theVault).payload.parentEnvelopeSha256
  let parent ← check (currentEnvelopeDigest lib turn (← state).file)
  update (·.withParent parent)
  match encodeCurrentEnvelope lib turn (← theVault) with
  | .error error =>
    update (·.withParent previousParent)
    fail error
  | .ok encoded =>
    if encoded.length > maxVaultFileBytes then
      update (·.withParent previousParent)
      fail .tooLarge
    else
      match ← attempt (atomicWrite turn encoded) with
      | .ok () => return ()
      | .error error =>
        if error = .commitStateUnknown then update (·.poison)
        else update (·.withParent previousParent)
        fail error

/-- The common end of the operations: a write, and on its definite failure an undo. -/
def persistOr (persist : Action Unit) (undo : Action Unit) : Action Unit := do
  match ← attempt persist with
  | .ok () => return ()
  | .error error =>
    if error = .commitStateUnknown then update (·.poison)
    else undo
    fail error

end

section

variable (save : Action Unit)

def replaceSecretWithRefUsing (secret : VaultSecretInsert) : Action Unit := do
  ensureUsable
  check (ofSecrets (validateSecretBatch .empty [secret]))
  let previousRevision := (← theVault).payload.revision
  let nextRevision ← check (checkedNext previousRevision)
  let entries := (← theVault).payload.entries
  let previous ← check
    (orFail (entries.get? secret.secretRefId) (.secretNotFound secret.secretRefId))
  update (·.withEntries (entries.erase secret.secretRefId))
  if previous.kind ≠ secret.kind then
    update fun vault =>
      vault.withEntries (vault.payload.entries.insert secret.secretRefId previous)
    fail (.vault (.secretKindMismatch previous.kind secret.kind))
  else
    update fun vault =>
      vault.withEntries (vault.payload.entries.insert secret.secretRefId secret.entry)
    update (·.withRevision nextRevision)
    persistOr save do
      update fun vault =>
        vault.withEntries (vault.payload.entries.insert secret.secretRefId previous)
      update (·.withRevision previousRevision)

def removedEntries (entries : SecretEntries) (refs : List SecretRefId) :
    List (SecretRefId × SecretEntry) :=
  refs.filterMap fun secretRef => (entries.get? secretRef).map (secretRef, ·)

def deleteSecretsUsing (secretRefs : List SecretRefId) : Action Unit := do
  ensureUsable
  check (reject (secretRefs = []) (.vault .emptySecretBatch))
  check (reject (secretRefs.length > maxSecretBatchEntries)
    (.vault (.secretBatchTooLarge maxSecretBatchEntries)))
  let unique ← check (ofSecrets (secretRefs.foldlM admitDeletion .empty))
  let removed := removedEntries (← theVault).payload.entries unique.toList
  update fun vault => vault.withEntries (unique.toList.foldl .erase vault.payload.entries)
  if removed = [] then
    return ()
  else
    let previousRevision := (← theVault).payload.revision
    let nextRevision ← check (checkedNext previousRevision)
    update (·.withRevision nextRevision)
    persistOr save do
      update fun vault => vault.withEntries (vault.payload.entries.extend removed)
      update (·.withRevision previousRevision)

def insertSecretsWithRefsUsing (secrets : List VaultSecretInsert) : Action Unit := do
  ensureUsable
  check (ofSecrets (validateSecretBatch (← theVault).payload.entries secrets))
  let previousRevision := (← theVault).payload.revision
  let nextRevision ← check (checkedNext previousRevision)
  update fun vault => vault.withEntries
    (vault.payload.entries.extend (secrets.map fun secret => (secret.secretRefId, secret.entry)))
  update (·.withRevision nextRevision)
  persistOr save do
    update fun vault => vault.withEntries
      ((secrets.map (·.secretRefId)).foldl .erase vault.payload.entries)
    update (·.withRevision previousRevision)

def replaceCommandHistoryUsing (history : CommandHistoryPayload) : Action Unit := do
  ensureUsable
  check (validateCommandHistory history)
  let previousRevision := (← theVault).payload.revision
  let nextRevision ← check (checkedNext previousRevision)
  let previousHistory := (← theVault).payload.commandHistory
  update (·.withHistory history)
  update (·.withRevision nextRevision)
  persistOr save do
    update (·.withHistory previousHistory)
    update (·.withRevision previousRevision)

/-- A new key wrap under the new password, if the current password opens the old one. -/
def newWrap (lib : Primitives) (turn : Turn) (vault : UnlockedVault)
    (currentPassword newPassword : Bytes) :
    Except VaultFailure (KdfHeader × CiphertextSection) := do
  validateNewPassword newPassword
  let currentKey ← deriveKey lib currentPassword vault.kdf
  let currentMasterKey ← unwrapVaultKeyParts lib vault.vaultId vault.kdf vault.wrappedVaultKey
    currentKey
  reject (currentMasterKey ≠ vault.vaultMasterKey) .authenticationFailed
  let kdf ← newKdfHeader turn.salt
  let key ← deriveKey lib newPassword kdf
  let wrapped ← wrapVaultKey lib vault.vaultId kdf key vault.vaultMasterKey turn.wrapNonce
  pure (kdf, wrapped)

/-- `change_password` writes the file itself; a write whose state is unknown has poisoned
the vault already. -/
def changePassword (lib : Primitives) (turn : Turn) (currentPassword newPassword : Bytes) :
    Action Unit := do
  ensureUsable
  let old ← theVault
  let (kdf, wrapped) ← check (newWrap lib turn old currentPassword newPassword)
  update (·.withWrap kdf wrapped)
  let nextRevision ← check (checkedNext (← theVault).payload.revision)
  update (·.withRevision nextRevision)
  match ← attempt (persist lib turn) with
  | .ok () => return ()
  | .error error =>
    if error ≠ .commitStateUnknown then
      update (·.withWrap old.kdf old.wrappedVaultKey)
      update (·.withRevision old.payload.revision)
    fail error

structure VaultMergeSummary where
  importedSecrets : Nat := 0
  importedHistoryEntries : Nat := 0
  skippedHistoryEntries : Nat := 0
  renamedHistoryEntries : Nat := 0
  deriving DecidableEq

/-- Draws until the identifier is unused; the draws may never end. -/
def drawUnused (used : BTreeSet Uuid) : List Uuid → Option (Uuid × List Uuid)
  | [] => none
  | id :: ids => if id ∈ used then drawUnused used ids else some (id, ids)

structure HistoryMerge where
  entries : List CommandHistoryEntry
  historyIds : BTreeSet Uuid
  ids : List Uuid
  summary : VaultMergeSummary

def mergeHistoryEntry (merge : HistoryMerge) (entry : CommandHistoryEntry) : Option HistoryMerge :=
  match merge.entries.find? (·.entryId = entry.entryId) with
  | some existing =>
    if existing = entry then
      some { merge with
        summary.skippedHistoryEntries := merge.summary.skippedHistoryEntries + 1 }
    else do
      let (replacement, ids) ← drawUnused merge.historyIds merge.ids
      some {
        entries := merge.entries ++ [{ entry with entryId := replacement }]
        historyIds := merge.historyIds.insert replacement
        ids
        summary := { merge.summary with
          renamedHistoryEntries := merge.summary.renamedHistoryEntries + 1
          importedHistoryEntries := merge.summary.importedHistoryEntries + 1 } }
  | none =>
    some { merge with
      entries := merge.entries ++ [entry]
      historyIds := merge.historyIds.insert entry.entryId
      summary.importedHistoryEntries := merge.summary.importedHistoryEntries + 1 }

def importSecrets (used : BTreeSet Uuid) (ids : List Uuid) :
    List SecretEntry → Option (List (SecretRefId × SecretEntry))
  | [] => some []
  | entry :: entries => do
    let (secretRef, ids) ← drawUnused used ids
    let imported ← importSecrets (used.insert secretRef) ids entries
    some ((secretRef, entry) :: imported)

def mergeEncryptedEnvelopeUsing (lib : Primitives) (turn : Turn) (encryptedEnvelope : Bytes)
    (sourcePassword : Bytes) (reservedRefs : List SecretRefId) : Action VaultMergeSummary := do
  ensureUsable
  let sourceEnvelope ← check (parseEncryptedVaultEnvelope lib encryptedEnvelope)
  let (_, source) ← check (unlockVaultEnvelope lib sourceEnvelope sourcePassword)
  let payload := (← theVault).payload
  let history ← await (source.commandHistory.entries.foldlM mergeHistoryEntry
    { entries := payload.commandHistory.entries
      historyIds := .ofList (payload.commandHistory.entries.map (·.entryId))
      ids := turn.ids
      summary := {} })
  let mergedHistory := { payload.commandHistory with entries := history.entries }
  check (validateCommandHistory mergedHistory)
  let used := ((BTreeSet.ofList payload.entries.keys).extend reservedRefs).extend source.entries.keys
  let imported ← await (importSecrets used history.ids (source.entries.toList.map (·.2)))
  let summary : VaultMergeSummary := { history.summary with importedSecrets := imported.length }
  if summary.importedSecrets = 0 ∧ summary.importedHistoryEntries = 0 then
    return summary
  else
    let previousRevision := payload.revision
    let nextRevision ← check (checkedNext previousRevision)
    update fun vault => vault.withEntries (vault.payload.entries.extend imported)
    update (·.withHistory mergedHistory)
    update (·.withRevision nextRevision)
    persistOr save do
      update fun vault => vault.withEntries
        ((imported.map (·.1)).foldl .erase vault.payload.entries)
      update (·.withHistory payload.commandHistory)
      update (·.withRevision previousRevision)
    return summary

end

inductive Call where
  | insertSecretsWithRefs (secrets : List VaultSecretInsert)
  | replaceSecretWithRef (secret : VaultSecretInsert)
  | deleteSecrets (secretRefs : List SecretRefId)
  | replaceCommandHistory (history : CommandHistoryPayload)
  | changePassword (currentPassword newPassword : Bytes)
  | mergeEncryptedEnvelope (encryptedEnvelope sourcePassword : Bytes)
    (reservedRefs : List SecretRefId)

inductive Reply where
  | done
  | merged (summary : VaultMergeSummary)
  deriving DecidableEq

def perform (lib : Primitives) (turn : Turn) : Call → Action Reply
  | .insertSecretsWithRefs secrets => do
    insertSecretsWithRefsUsing (persist lib turn) secrets
    return .done
  | .replaceSecretWithRef secret => do
    replaceSecretWithRefUsing (persist lib turn) secret
    return .done
  | .deleteSecrets secretRefs => do
    deleteSecretsUsing (persist lib turn) secretRefs
    return .done
  | .replaceCommandHistory history => do
    replaceCommandHistoryUsing (persist lib turn) history
    return .done
  | .changePassword currentPassword newPassword => do
    changePassword lib turn currentPassword newPassword
    return .done
  | .mergeEncryptedEnvelope encryptedEnvelope sourcePassword reservedRefs => do
    return .merged (← mergeEncryptedEnvelopeUsing (persist lib turn) lib turn encryptedEnvelope
      sourcePassword reservedRefs)

def readUnlockedSecret (secretRef : SecretRefId) (expected : SecretKind) :
    Action (Option Bytes) := do
  ensureUsable
  check (ofSecrets (readSecret (← theVault).payload.entries secretRef expected))

def commandHistory : Action CommandHistoryPayload := do
  ensureUsable
  return (← theVault).payload.commandHistory

section

variable (lib : Primitives)

def unlock (turn : Turn) (file password : Bytes) : Except VaultFailure UnlockedVault := do
  let bytes ← readBounded turn file
  let envelope ← parseEncryptedVaultEnvelope lib bytes
  let (vaultMasterKey, payload) ← unlockVaultEnvelope lib envelope password
  pure {
    vaultId := envelope.vaultId
    kdf := envelope.kdf
    wrappedVaultKey := envelope.wrappedVaultKey
    vaultMasterKey
    payload }

def newVault (turn : Turn) (password : Bytes) (vaultId : Uuid) (masterKey : Option Key) :
    Except VaultFailure UnlockedVault := do
  validateNewPassword password
  let kdf ← newKdfHeader turn.salt
  let keyEncryptionKey ← deriveKey lib password kdf
  let vaultMasterKey ← fillRandom masterKey
  let wrappedVaultKey ← wrapVaultKey lib vaultId kdf keyEncryptionKey vaultMasterKey turn.wrapNonce
  pure {
    vaultId
    kdf
    wrappedVaultKey
    vaultMasterKey
    payload := {
      schemaVersion := payloadSchemaVersion
      revision := 0
      parentEnvelopeSha256 := none
      entries := .empty
      commandHistory := {} } }

/-- `UnlockedVault::create` where no file exists: the vault and the file it wrote.  The first
write always returns. -/
def create (turn : Turn) (password : Bytes) (vaultId : Uuid) (masterKey : Option Key) :
    Except VaultFailure World := do
  let vault ← newVault lib turn password vaultId masterKey
  match persist lib turn { vault, file := none } with
  | some (.ok (), w) => .ok w
  | some (.error error, _) => .error error
  | none => .error .io

end

end NoriShell.Vault

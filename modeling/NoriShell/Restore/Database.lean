import NoriShell.Restore.ApplyDelta

/-! The journals of pending restores, the collection queue, and the transactions
over them.  A transaction either fails or changes the database at once. -/

namespace NoriShell.Restore

open Collections Vault

/-- A pending restore, kept under its attempt: the references to delete where it is undone. -/
structure RestoreSaga where
  pluginId : String
  profileId : String
  bundleSha256 : String
  planSha256 : String
  secretRefIds : List SecretRefId
  deriving DecidableEq

structure OfflineImportSaga where
  archiveSha256 : String
  planSha256 : String
  secretRefIds : List SecretRefId
  deriving DecidableEq

structure VaultGcRecord where
  owner : ProfileKey
  secretRefId : SecretRefId
  reason : VaultGcReason
  attemptId : Uuid
  deriving DecidableEq

structure OwnedDeltaResult where
  createdCount : Nat
  updatedCount : Nat
  deletedCount : Nat
  pendingVaultGcSecretRefIds : List SecretRefId
  replayed : Bool
  deriving DecidableEq

structure OwnedDeltaOperation where
  owner : ProfileKey
  attemptId : Uuid
  deltaSha256 : String
  result : OwnedDeltaResult
  deriving DecidableEq

structure RestoreCommitResult where
  createdCount : Nat
  alreadyAppliedCount : Nat
  deriving DecidableEq

/-- The generation counts the changes of metadata and journals; the collection queue
is not part of it. -/
structure Database where
  metadata : Metadata
  restoreSagas : BTreeMap Uuid RestoreSaga
  offlineImportSagas : BTreeMap Uuid OfflineImportSaga
  vaultGcQueue : List VaultGcRecord
  ownedDeltaOperations : List OwnedDeltaOperation
  generation : Nat
  deriving DecidableEq

abbrev Transaction (α : Type) := Database → Except PersistenceError (α × Database)

def maxRestoreSecretRefs : Nat := 4096

def maxObjectMappingsPerOwner : Nat := 65536

def normalizedSecretRefIds (refs : List SecretRefId) : Except PersistenceError (List SecretRefId) :=
  let refs := (BTreeSet.ofList refs).toList
  if refs.length > maxRestoreSecretRefs then
    .error (.invalidInput "too many SSH sync restore secret references")
  else .ok refs

def requireChangeFence (db : Database) (expected : Nat) : Except PersistenceError Unit :=
  reject (db.generation ≠ expected) .conflict

section

variable (attemptId : Uuid)

def insertRestoreSaga (saga : RestoreSaga) (db : Database) : Database :=
  { db with restoreSagas := db.restoreSagas.insert attemptId saga, generation := db.generation + 1 }

def removeRestoreSaga (db : Database) : Database :=
  { db with restoreSagas := db.restoreSagas.erase attemptId, generation := db.generation + 1 }

def beginRestoreSaga (input : RestoreSaga) (expectedFence : Option Nat) : Transaction Nat :=
  fun db => do
    let secretRefIds ← normalizedSecretRefIds input.secretRefIds
    let saga := { input with secretRefIds }
    reject (expectedFence.any (db.generation ≠ ·)) .conflict
    match db.restoreSagas.get? attemptId with
    | some existing =>
      reject (existing ≠ saga) .idempotencyConflict
      pure (db.generation, db)
    | none => pure (db.generation + 1, insertRestoreSaga attemptId saga db)

def listPendingRestoreSagas : Transaction (List (Uuid × RestoreSaga)) :=
  fun db => .ok (db.restoreSagas.toList, db)

def abortRestoreSaga : Transaction Unit :=
  fun db => .ok ((), if db.restoreSagas.contains attemptId then removeRestoreSaga attemptId db
    else db)

def insertOfflineImportSaga (saga : OfflineImportSaga) (db : Database) : Database :=
  { db with
    offlineImportSagas := db.offlineImportSagas.insert attemptId saga
    generation := db.generation + 1 }

def removeOfflineImportSaga (db : Database) : Database :=
  { db with
    offlineImportSagas := db.offlineImportSagas.erase attemptId
    generation := db.generation + 1 }

def pendingOfflineImports : Transaction (List (Uuid × OfflineImportSaga)) :=
  fun db => .ok (db.offlineImportSagas.toList, db)

def finishOfflineImportCleanup (saga : OfflineImportSaga) : Transaction Unit :=
  fun db => do
    match db.offlineImportSagas.get? attemptId with
    | none => pure ((), db)
    | some existing =>
      reject (existing ≠ saga) .idempotencyConflict
      pure ((), removeOfflineImportSaga attemptId db)

end

section

variable (plan : RestorePlan)

def previewPlan : Transaction RestorePreview :=
  fun db => do
    let preview ← previewRestorePlan db.metadata plan
    pure (preview, db)

def acceptedPreview (m : Metadata) : Except PersistenceError RestorePreview := do
  let preview ← previewRestorePlan m plan
  reject (preview.conflictCount ≠ 0) .conflict
  pure preview

def publishPlan (db : Database) : Database :=
  { db with metadata := publishRestorePlan db.metadata plan, generation := db.generation + 1 }

def sameRestorePlanSaga (saga : RestoreSaga) (newSecretRefIds : List SecretRefId) : Bool :=
  some saga.pluginId = plan.pluginId ∧ saga.profileId = plan.profileId ∧
    saga.bundleSha256 = plan.bundleSha256 ∧ saga.planSha256 = plan.planSha256 ∧
    saga.secretRefIds = newSecretRefIds

def commitRestorePlan : Transaction RestoreCommitResult :=
  fun db => do
    let preview ← acceptedPreview plan db.metadata
    let result := ⟨preview.createCount, preview.alreadyAppliedCount⟩
    match db.restoreSagas.get? plan.attemptId with
    | some saga =>
      reject (!sameRestorePlanSaga plan saga preview.newSecretRefIds) .idempotencyConflict
      pure (result, removeRestoreSaga plan.attemptId (publishPlan plan db))
    | none =>
      reject (preview.createCount > 0) .notFound
      pure (result, publishPlan plan db)

def offlineImportSaga (preview : RestorePreview) : OfflineImportSaga :=
  ⟨plan.bundleSha256, plan.planSha256, preview.newSecretRefIds⟩

/-- The journal is durable before any vault material is inserted. -/
def beginOfflineImport (expectedFence : Nat) : Transaction (OfflineImportSaga × Nat) :=
  fun db => do
    requireChangeFence db expectedFence
    let preview ← acceptedPreview plan db.metadata
    let saga := offlineImportSaga plan preview
    match db.offlineImportSagas.get? plan.attemptId with
    | some existing =>
      reject (existing ≠ saga) .idempotencyConflict
      pure ((saga, db.generation), db)
    | none => pure ((saga, db.generation + 1), insertOfflineImportSaga plan.attemptId saga db)

def AppRepository.commitOfflineImport (expectedFence : Nat) : Transaction RestoreCommitResult :=
  fun db => do
    requireChangeFence db expectedFence
    match db.offlineImportSagas.get? plan.attemptId with
    | none => .error .notFound
    | some saga =>
      let preview ← acceptedPreview plan db.metadata
      reject (saga ≠ offlineImportSaga plan preview) .idempotencyConflict
      pure (⟨preview.createCount, preview.alreadyAppliedCount⟩,
        removeOfflineImportSaga plan.attemptId (publishPlan plan db))

end

section

variable (owner : ProfileKey)

def profileStateExists (m : Metadata) : Bool :=
  m.profileStates.any (·.key = owner)

/-- Whether the mapping is new; a changed partner on either side is a conflict. -/
def resolveObjectMapping (m : Metadata) (input : ObjectMappingInput) :
    Except PersistenceError (List ObjectMapping) :=
  match lookupObjectMapping m owner input with
  | [] => .ok [⟨owner, input.portableObjectId, input.localObjectId⟩]
  | existing =>
    if existing = [⟨owner, input.portableObjectId, input.localObjectId⟩] then .ok []
    else .error .conflict

def resolveOrCreateObjectMappings (inputs : List ObjectMappingInput) : Transaction Unit :=
  fun db => do
    reject (!profileStateExists owner db.metadata) .notFound
    let created ← inputs.mapM (resolveObjectMapping owner db.metadata)
    let created := created.flatten
    reject ((db.metadata.mappings.filter (·.owner = owner)).length + created.length >
        maxObjectMappingsPerOwner)
      (.invalidInput "too many SSH sync object mappings for one profile")
    pure ((), if created = [] then db else
      { db with
        metadata := { db.metadata with mappings := db.metadata.mappings ++ created }
        generation := db.generation + 1 })

end

section

variable (delta : OwnedMetadataDelta)

/-- An operation that committed before is answered from its record. -/
def readOwnedDeltaReplay (db : Database) : Except PersistenceError (Option OwnedDeltaResult) :=
  match db.ownedDeltaOperations.find? fun operation =>
      operation.owner = delta.owner ∧ operation.attemptId = delta.attemptId with
  | none => .ok none
  | some operation =>
    if operation.deltaSha256 ≠ delta.deltaSha256 then .error .conflict
    else .ok (some { operation.result with
      pendingVaultGcSecretRefIds := operation.result.pendingVaultGcSecretRefIds.filter fun r =>
        db.vaultGcQueue.any fun record => record.owner = delta.owner ∧ record.secretRefId = r
      replayed := true })

/-- The saga has to name exactly the new references of the creates and the replacements. -/
def checkOwnedCreates (db : Database) (batch : OwnedCreateBatch) : Except PersistenceError Nat := do
  reject (batch.plan.pluginId ≠ some delta.owner.pluginId ∨
    batch.plan.profileId ≠ delta.owner.profileId ∨
    batch.plan.attemptId ≠ delta.attemptId) .conflict
  let preview ← acceptedPreview batch.plan db.metadata
  let expectedNewRefs ← normalizedSecretRefIds
    (preview.newSecretRefIds ++ delta.secretReplacements.map (·.newSecretRefId))
  match db.restoreSagas.get? batch.plan.attemptId with
  | none => .error .notFound
  | some saga =>
    reject (!sameRestorePlanSaga batch.plan saga expectedNewRefs) .idempotencyConflict
    preflightOwnedCreateMappings db.metadata delta.owner batch
    pure preview.createCount

def checkOwnedDelta (db : Database) : Except PersistenceError Nat := do
  reject (!profileStateExists delta.owner db.metadata) .notFound
  let createdCount ← match delta.creates with
    | some batch => checkOwnedCreates delta db batch
    | none => do
      reject (delta.secretReplacements ≠ [])
        (.invalidInput "SSH sync Secret replacement requires a restore create fence")
      pure 0
  preflightOwnedDelta db.metadata delta.owner delta
  pure createdCount

/-- A reference that the owner queued before keeps its first record. -/
def queueVaultGc (queue : List VaultGcRecord) (pending : List (SecretRefId × VaultGcReason)) :
    List VaultGcRecord :=
  queue ++ (pending.filter fun candidate => !queue.any fun record =>
      record.owner = delta.owner ∧ record.secretRefId = candidate.1).map
    fun candidate => ⟨delta.owner, candidate.1, candidate.2, delta.attemptId⟩

def applyOwnedMetadataDelta (expectedFence : Nat) : Transaction OwnedDeltaResult :=
  fun db => do
    validateOwnedDelta delta
    requireChangeFence db expectedFence
    match ← readOwnedDeltaReplay delta db with
    | some result => pure (result, db)
    | none =>
      let createdCount ← checkOwnedDelta delta db
      let (pending, metadata) ← applyOwnedDelta delta.owner delta db.metadata
      let result := ⟨createdCount, delta.updatedCount, delta.deletedCount, pending.map Prod.fst,
        false⟩
      pure (result, { db with
        metadata
        restoreSagas := if delta.creates.isSome then db.restoreSagas.erase delta.attemptId
          else db.restoreSagas
        vaultGcQueue := queueVaultGc delta db.vaultGcQueue pending
        ownedDeltaOperations := db.ownedDeltaOperations ++
          [⟨delta.owner, delta.attemptId, delta.deltaSha256, result⟩]
        generation := db.generation + 1 })

end

section

variable (owner : ProfileKey)

def listVaultGc (db : Database) : List VaultGcRecord :=
  db.vaultGcQueue.filter (·.owner = owner)

def ackVaultGc (secretRefIds : List SecretRefId) (db : Database) : Database :=
  { db with
    vaultGcQueue := db.vaultGcQueue.filter fun record =>
      ¬(record.owner = owner ∧ record.secretRefId ∈ secretRefIds) }

end

end NoriShell.Restore

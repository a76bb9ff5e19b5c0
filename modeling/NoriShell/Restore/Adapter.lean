import NoriShell.Programs
import NoriShell.Restore.Database

/-! The restores over the database and the vault, call by call, with collections of
the vault queue running beside them. -/

namespace NoriShell.Restore

open Collections Vault Program

/-- A collection in progress: the references it listed and has still to delete, and
the batch it deleted and has still to acknowledge. -/
structure Collection where
  owner : ProfileKey
  refs : List SecretRefId
  deleted : List SecretRefId
  deriving DecidableEq

/-- The deletions record each batch that a collection deleted, with the database of
that moment. -/
structure World where
  db : Database
  vault : SecretEntries
  collections : List Collection
  deletions : List (List SecretRefId × Database)

/-- What becomes of a call: it takes effect or fails, or it takes effect and its answer
is lost, or it reports that its effect is unknown. -/
inductive Outcome
  | done
  | failed
  | lost
  | unknown (applied : Bool)
  deriving DecidableEq

def Outcome.applies : Outcome → Bool
  | .done | .lost | .unknown true => true
  | .failed | .unknown false => false

section

/-- The calls of a running collection, in the order list, delete, acknowledge, delete … -/
inductive CollectorStep
  | list (owner : ProfileKey)
  | delete (index : Nat) (outcome : Outcome)
  | acknowledge (index : Nat) (outcome : Outcome)

variable (w : World)

def listCollection (owner : ProfileKey) : World :=
  { w with
    collections := w.collections ++ [⟨owner, (listVaultGc owner w.db).map (·.secretRefId), []⟩] }

/-- An error ends the collection. -/
def World.proceed (index : Nat) (outcome : Outcome) (next : Collection) : World :=
  { w with
    collections := if outcome = .done then w.collections.set index next
      else w.collections.eraseIdx index }

def deleteCollected (index : Nat) (outcome : Outcome) (collection : Collection) : World :=
  let batch := collection.refs.take maxSecretBatchEntries
  let next := { collection with
    refs := collection.refs.drop maxSecretBatchEntries, deleted := batch }
  match deleteSecrets w.vault batch with
  | .error _ => w.proceed index .failed next
  | .ok vault =>
    if outcome.applies then
      { w with vault, deletions := w.deletions ++ [(batch, w.db)] }.proceed index outcome next
    else w.proceed index outcome next

def acknowledgeCollected (index : Nat) (outcome : Outcome) (collection : Collection) : World :=
  let next := { collection with deleted := [] }
  if outcome.applies then
    { w with db := ackVaultGc collection.owner collection.deleted w.db }.proceed index outcome next
  else w.proceed index outcome next

/-- A step that is not the collection's next one does nothing. -/
def World.collect : CollectorStep → World
  | .list owner => listCollection w owner
  | .delete index outcome =>
    match w.collections[index]? with
    | some collection =>
      if collection.deleted = [] ∧ collection.refs ≠ [] then
        deleteCollected w index outcome collection
      else w
    | none => w
  | .acknowledge index outcome =>
    match w.collections[index]? with
    | some collection =>
      if collection.deleted ≠ [] then acknowledgeCollected w index outcome collection else w
    | none => w

end

section

inductive Question
  | actionFence
  | vaultUnlocked

inductive Call : Type 1
  | database {α : Type} (transaction : Transaction α)
  | insertSecrets (secrets : List VaultSecretInsert)
  | deleteSecrets (secretRefs : List SecretRefId)
  | consult (question : Question)
  | collect (owner : ProfileKey)

@[reducible] def Answer : Call → Type
  | @Call.database α _ => Except PersistenceError α
  | .insertSecrets _ => Except VaultServiceError Unit
  | .deleteSecrets _ => Except VaultServiceError Unit
  | .consult _ => Bool
  | .collect _ => Unit

/-- What happens at one call: first the steps of the collections, then the call. -/
structure Turn where
  interference : List CollectorStep
  outcome : Outcome

variable (w : World)

def performDatabase {α : Type} (transaction : Transaction α) (outcome : Outcome) :
    Except PersistenceError α × World :=
  match transaction w.db with
  | .error e => (.error e, w)
  | .ok (value, db) =>
    let after := if outcome.applies then { w with db } else w
    match outcome with
    | .done => (.ok value, after)
    | .failed | .lost => (.error .sqlite, after)
    | .unknown _ => (.error .restoreCommitUnknown, after)

def performVault (change : SecretEntries → Except VaultServiceError SecretEntries)
    (outcome : Outcome) : Except VaultServiceError Unit × World :=
  match change w.vault with
  | .error e => (.error e, w)
  | .ok vault =>
    let after := if outcome.applies then { w with vault } else w
    match outcome with
    | .done => (.ok (), after)
    | .failed => (.error .notUnlocked, after)
    | .lost | .unknown _ => (.error (.vault .commitStateUnknown), after)

def execute : (request : Call) → Outcome → World → Answer request × World
  | .database transaction, outcome, w => performDatabase w transaction outcome
  | .insertSecrets secrets, outcome, w => performVault w (insertSecrets · secrets) outcome
  | .deleteSecrets secretRefs, outcome, w => performVault w (deleteSecrets · secretRefs) outcome
  | .consult _, outcome, w => (outcome.applies, w)
  | .collect owner, outcome, w => ((), if outcome.applies then w.collect (.list owner) else w)

def perform (request : Call) (turn : Turn) (w : World) : Answer request × World :=
  execute request turn.outcome (turn.interference.foldl World.collect w)

end

inductive PortableStoreError
  | stale
  | rejected (code : String)
  | invalidBundle (stage reason : String)
  | internal (code : String)
  | persistence (stage : String) (error : PersistenceError)
  deriving DecidableEq

def mapStoreErrorAt (stage : String) : PersistenceError → PortableStoreError
  | .conflict | .idempotencyConflict => .stale
  | .invalidInput reason => .invalidBundle stage reason
  | error => .persistence stage error

abbrev Operation (α : Type) := Fallible Call Answer PortableStoreError α

namespace Operation

def tryDatabase {α : Type} (transaction : Transaction α) : Operation (Except PersistenceError α) :=
  liftM (Program.ask (.database transaction) : Program Call Answer _)

def database {α : Type} (stage : String) (transaction : Transaction α) : Operation α := do
  match ← tryDatabase transaction with
  | .ok value => pure value
  | .error e => throw (mapStoreErrorAt stage e)

def tryInsertSecrets (secrets : List VaultSecretInsert) :
    Operation (Except VaultServiceError Unit) :=
  liftM (Program.ask (.insertSecrets secrets) : Program Call Answer _)

def deleteSecrets (code : String) (secretRefs : List SecretRefId) : Operation Unit := do
  match ← (liftM (Program.ask (.deleteSecrets secretRefs) : Program Call Answer _) :
      Operation (Except VaultServiceError Unit)) with
  | .ok () => pure ()
  | .error _ => throw (.internal code)

def consult (question : Question) : Operation Bool :=
  liftM (Program.ask (.consult question) : Program Call Answer _)

def collect (owner : ProfileKey) : Operation Unit :=
  liftM (Program.ask (.collect owner) : Program Call Answer _)

end Operation

def chunksOf {α : Type} (n : Nat) : Nat → List α → List (List α)
  | 0, _ => []
  | _ + 1, [] => []
  | fuel + 1, items => items.take n :: chunksOf n fuel (items.drop n)

def chunks {α : Type} (n : Nat) (items : List α) : List (List α) :=
  chunksOf n items.length items

def deleteInChunks (code : String) (secretRefs : List SecretRefId) : Operation Unit :=
  (chunks maxSecretBatchEntries secretRefs).forM (Operation.deleteSecrets code)

/-- Undoes each saga: its secrets first, then its journal entry. -/
def undoSagas {σ : Type} (stage code : String) (secretRefIds : σ → List SecretRefId)
    (finish : Uuid × σ → Transaction Unit) (sagas : List (Uuid × σ)) : Operation Unit :=
  sagas.forM fun saga => do
    deleteInChunks code (secretRefIds saga.2)
    Operation.database stage (finish saga)

def reconcileRestoreSagasForPlugin (pluginId : Option String) : Operation Unit := do
  let sagas ← Operation.database "local.reconcile_restore_sagas_for_plugin" listPendingRestoreSagas
  undoSagas "local.reconcile_restore_sagas_for_plugin"
    "local.reconcile_restore_sagas_for_plugin.internal01" (·.secretRefIds) (abortRestoreSaga ·.1)
    (sagas.filter fun saga => pluginId.all (saga.2.pluginId = ·))

def reconcileRestoreSagas : Operation Unit :=
  reconcileRestoreSagasForPlugin none

def reconcileOfflineImports : Operation Unit := do
  let sagas ← Operation.database "local.reconcile_offline_imports" pendingOfflineImports
  undoSagas "local.reconcile_offline_imports" "local.reconcile_offline_imports.internal01"
    (·.secretRefIds) (fun saga => finishOfflineImportCleanup saga.1 saga.2) sagas

def reconcileDurableRestores : Operation Unit := do
  reconcileRestoreSagasForPlugin none
  reconcileOfflineImports

def validateRestoreVaultBatchLimits (entryCount valueBytes : Nat) :
    Except PortableStoreError Unit :=
  reject (entryCount > maxSecretBatchEntries ∨ valueBytes > maxSecretBatchValueBytes)
    (.rejected "local.validate_restore_vault_batch_limits.01")

def validateRestoreVaultBatch (inserts : List VaultSecretInsert)
    (newSecretRefIds : List SecretRefId) : Except PortableStoreError Unit := do
  validateRestoreVaultBatchLimits newSecretRefIds.length 0
  reject (¬newSecretRefIds.Nodup) (.rejected "local.validate_restore_vault_batch.01")
  let matched := inserts.filter (·.secretRefId ∈ newSecretRefIds)
  reject (matched.length ≠ newSecretRefIds.length)
    (.rejected "local.validate_restore_vault_batch.04")
  validateRestoreVaultBatchLimits matched.length (matched.map (·.value.length)).sum

/-- Inserts the batch; where nothing of it was inserted the journal entry goes at once. -/
def insertRestoreSecrets (code : String) (inserts : List VaultSecretInsert)
    (giveUp : Operation Unit) : Operation Unit :=
  if inserts = [] then pure () else do
    match ← Operation.tryInsertSecrets inserts with
    | .ok () => pure ()
    | .error e =>
      if e.secretInsertDefinitelyAbsent then giveUp
      throw (.internal code)

structure ReconcilePlanBuild where
  delta : OwnedMetadataDelta
  vaultInserts : List VaultSecretInsert

def RestorePlan.saga (plan : RestorePlan) (secretRefIds : List SecretRefId) : RestoreSaga where
  pluginId := plan.pluginId.getD ""
  profileId := plan.profileId
  bundleSha256 := plan.bundleSha256
  planSha256 := plan.planSha256
  secretRefIds

/-- Goes on only while the action is still wanted. -/
def requireActionFence : Operation Unit := do
  if ← Operation.consult .actionFence then pure () else do
    reconcileRestoreSagas
    throw .stale

def commitOwnedDelta (delta : OwnedMetadataDelta) (fence : Nat) : Operation Unit := do
  match ← Operation.tryDatabase (applyOwnedMetadataDelta delta fence) with
  | .ok _ => Operation.collect delta.owner
  | .error e => do
    reconcileRestoreSagas
    throw (mapStoreErrorAt "local.restore.commit" e)

def applyOwnedReconcile (build : ReconcilePlanBuild) (changeFence : Nat) : Operation Unit := do
  reconcileRestoreSagas
  match build.delta.creates with
  | none => throw (.internal "local.apply_owned_reconcile.internal01")
  | some create =>
    let secretRefIds := build.vaultInserts.map (·.secretRefId)
    Program.ofExcept (validateRestoreVaultBatch build.vaultInserts secretRefIds)
    let fence ← Operation.database "local.restore.begin"
      (beginRestoreSaga create.plan.attemptId (create.plan.saga secretRefIds) (some changeFence))
    requireActionFence
    insertRestoreSecrets "local.apply_owned_reconcile.internal02" build.vaultInserts
      (Operation.database "local.restore.abort" (abortRestoreSaga create.plan.attemptId))
    requireActionFence
    commitOwnedDelta build.delta fence

structure RestorePlanBuild where
  plan : RestorePlan
  vaultInserts : List VaultSecretInsert
  mappingInputs : List ObjectMappingInput

def commitPlan (plan : RestorePlan) : Operation Unit := do
  match ← Operation.tryDatabase (commitRestorePlan plan) with
  | .ok _ => pure ()
  | .error .restoreCommitUnknown => throw (.internal "local.apply_restore_plan.internal02")
  | .error e => do
    reconcileRestoreSagas
    throw (mapStoreErrorAt "local.apply_restore_plan" e)

def applyRestorePlan (build : RestorePlanBuild) (owner : ProfileKey) : Operation Unit := do
  reconcileRestoreSagas
  let preview ← Operation.database "local.apply_restore_plan" (previewPlan build.plan)
  Program.ofExcept (reject (preview.conflictCount > 0) .stale)
  Operation.database "local.apply_restore_plan"
    (resolveOrCreateObjectMappings owner build.mappingInputs)
  Program.ofExcept (validateRestoreVaultBatch build.vaultInserts preview.newSecretRefIds)
  let inserts := build.vaultInserts.filter (·.secretRefId ∈ preview.newSecretRefIds)
  Program.ofExcept (reject (inserts.length ≠ preview.newSecretRefIds.length)
    (.rejected "local.apply_restore_plan.01"))
  let _ ← Operation.database "local.apply_restore_plan"
    (beginRestoreSaga build.plan.attemptId (build.plan.saga preview.newSecretRefIds) none)
  insertRestoreSecrets "local.apply_restore_plan.internal01" inserts
    (Operation.database "local.apply_restore_plan" (abortRestoreSaga build.plan.attemptId))
  commitPlan build.plan

structure OfflineImportBuild where
  plan : RestorePlan
  vaultInserts : List VaultSecretInsert

def commitImport (plan : RestorePlan) (fence : Nat) : Operation Unit := do
  match ← Operation.tryDatabase (AppRepository.commitOfflineImport plan fence) with
  | .ok _ => pure ()
  | .error .restoreCommitUnknown => throw (.internal "local.commit_offline_import.internal02")
  | .error e => do
    reconcileOfflineImports
    throw (mapStoreErrorAt "local.commit_offline_import" e)

def requireUnlockedVault (inserts : List VaultSecretInsert) : Operation Unit :=
  if inserts = [] then pure () else do
    if ← Operation.consult .vaultUnlocked then pure ()
    else throw (.rejected "local.commit_offline_import.01")

def commitOfflineImport (build : OfflineImportBuild) (fence : Nat) : Operation Unit := do
  requireUnlockedVault build.vaultInserts
  reconcileOfflineImports
  let (saga, fence) ← Operation.database "local.commit_offline_import"
    (beginOfflineImport build.plan fence)
  Program.ofExcept (validateRestoreVaultBatch build.vaultInserts saga.secretRefIds)
  insertRestoreSecrets "local.commit_offline_import.internal01" build.vaultInserts
    (Operation.database "local.commit_offline_import" (finishOfflineImportCleanup build.plan.attemptId saga))
  commitImport build.plan fence

end NoriShell.Restore

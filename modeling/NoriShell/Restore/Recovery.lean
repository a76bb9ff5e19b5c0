import NoriShell.Restore.Import

/-! Every restore, cut off anywhere, and the reconciliations that follow it. -/

namespace NoriShell.Restore

open Collections Vault Program

inductive RestoreOperation
  | owned (build : ReconcilePlanBuild) (changeFence : Nat)
  | plan (build : RestorePlanBuild) (owner : ProfileKey)
  | offline (build : OfflineImportBuild) (fence : Nat)

namespace RestoreOperation

variable (op : RestoreOperation) (start : World)

def program : Operation Unit :=
  match op with
  | owned build changeFence => applyOwnedReconcile build changeFence
  | plan build owner => applyRestorePlan build owner
  | offline build fence => commitOfflineImport build fence

def newRefs : List SecretRefId :=
  match op with
  | owned build _ => build.refs
  | plan build _ => build.refs start
  | offline build _ => build.refs start

def secretRefs : List SecretRefId :=
  match op with
  | owned build _ => build.delta.secretRefs
  | plan build _ => build.plan.secretRefs
  | offline build _ => build.plan.secretRefs

def Publishes (m target : Metadata) : Prop :=
  match op with
  | owned build _ => build.Publishes m target
  | plan build _ => publishRestorePlan m build.plan = target
  | offline build _ => publishRestorePlan m build.plan = target

def Safe : Prop :=
  match op with
  | owned build _ => build.Safe start
  | plan build owner => build.Safe owner start
  | offline build _ => build.Safe start

def run (turns : List Turn) : World :=
  (Program.run perform op.program.run turns start).2

end RestoreOperation

def reconcileRun (w : World) (turns : List Turn) : Option (Except PortableStoreError Unit) × World :=
  Program.run perform reconcileDurableRestores.run turns w

def reconcileRuns (w : World) (schedules : List (List Turn)) : World :=
  schedules.foldl (fun w turns => (reconcileRun w turns).2) w

namespace RestoreOperation

variable (op : RestoreOperation) (start w : World)

/-- What was in use has its value, unless the restore committed and gave it up. -/
def Keeps : Prop :=
  ∀ r, start.db.metadata.Referenced r → w.vault.get? r = start.vault.get? r ∨
    op.Publishes start.db.metadata w.db.metadata ∧ ¬w.db.metadata.Referenced r

def Committed : Prop :=
  op.Publishes start.db.metadata w.db.metadata ∧
    ∀ r ∈ op.secretRefs, w.db.metadata.Referenced r → (w.vault.get? r).isSome

def Undone : Prop :=
  w.db.metadata = start.db.metadata ∧
    ∀ r, w.vault.get? r = start.vault.get? r ∨ w.vault.get? r = none

/-- Wherever the restore ends and however often it is reconciled: nothing in use is lost,
and a reconciliation that succeeds leaves all of the restore or nothing. -/
def Recovers (turns : List Turn) (schedules : List (List Turn)) : Prop :=
  op.Keeps start (reconcileRuns (op.run start turns) schedules) ∧
    ∀ last w, reconcileRun (reconcileRuns (op.run start turns) schedules) last =
      (some (.ok ()), w) → op.Committed start w ∨ Undone start w

variable {op start w}

def Settled (op : RestoreOperation) (start : World) : World → Prop :=
  Restore.Settled start (op.newRefs start) op.secretRefs (op.Publishes start.db.metadata)

theorem meets (sound : start.Sound) (safe : op.Safe start) :
    Meets perform (fun w => w = start) op.program (fun _ => op.Settled start)
      (op.Settled start) := by
  cases op with
  | owned build changeFence => exact applyOwnedReconcile_meets sound safe
  | plan build owner => exact applyRestorePlan_meets sound safe
  | offline build fence => exact commitOfflineImport_meets sound safe

theorem unused (safe : op.Safe start) : ∀ r ∈ op.newRefs start, ¬start.db.metadata.Referenced r := by
  cases op with
  | owned build changeFence => exact ReconcilePlanBuild.Safe.fresh safe |>.unused
  | plan build owner => exact RestorePlanBuild.Safe.fresh safe |>.unused
  | offline build fence => exact OfflineImportBuild.Safe.fresh safe |>.unused

theorem run_settled (sound : start.Sound) (safe : op.Safe start) (turns : List Turn) :
    op.Settled start (op.run start turns) := by
  have ended := (meets sound safe).run rfl turns
  unfold run
  split at ended <;> simp_all

end RestoreOperation

section

variable {P : World → Prop} {w : World}

theorem reconcileRun_keeps (undo : Undoable P) (h : P w) (turns : List Turn) :
    P (reconcileRun w turns).2 := by
  have ended := (reconcileDurableRestores_meets undo).run h turns
  unfold reconcileRun
  split at ended <;> simp_all

theorem reconcileRuns_keeps (undo : Undoable P) (h : P w) (schedules : List (List Turn)) :
    P (reconcileRuns w schedules) := by
  induction schedules generalizing w with
  | nil => exact h
  | cons turns schedules ih => exact ih (reconcileRun_keeps undo h turns)

theorem reconcileRun_eq_ok {w' : World} {turns : List Turn} (undo : Undoable P) (h : P w)
    (ok : reconcileRun w turns = (some (.ok ()), w')) :
    P w' ∧ ∀ r, ¬w'.db.Pending r := by
  have ended := (reconcileDurableRestores_meets undo).run h turns
  unfold reconcileRun at ok
  rw [ok] at ended
  obtain ⟨kept, restores, imports⟩ := ended
  refine ⟨kept, fun r pending => ?_⟩
  unfold Database.Pending at pending
  rw [restores, imports] at pending
  simp at pending

end

namespace RestoreOperation

variable {op : RestoreOperation} {start w : World}

theorem Settled.keeps (h : op.Settled start w) (sound : start.Sound) (safe : op.Safe start) :
    op.Keeps start w := by
  intro r used
  rcases h with h | ⟨target, publishes, h⟩
  · exact .inl (h.kept sound (unused safe) used)
  · by_cases still : target.Referenced r
    · exact .inl (h.kept r used still)
    · exact .inr (h.metadata.symm ▸ ⟨publishes, still⟩)

theorem Settled.ends (h : op.Settled start w) (finished : ∀ r, ¬w.db.Pending r) :
    op.Committed start w ∨ Undone start w := by
  rcases h with h | ⟨target, publishes, h⟩
  · refine .inr ⟨h.metadata, fun r => ?_⟩
    by_cases mem : r ∈ op.newRefs start
    · rcases h.inserted r mem with same | absent | pending
      · exact .inl same
      · exact .inr absent
      · exact absurd pending (finished r)
    · exact (h.others r mem).imp_right And.left
  · refine .inl ?_
    unfold Committed
    rw [h.metadata]
    exact ⟨publishes, h.backed⟩

theorem recovers_of_safe (sound : start.Sound) (safe : op.Safe start) (turns : List Turn)
    (schedules : List (List Turn)) : op.Recovers start turns schedules := by
  have settled : op.Settled start (reconcileRuns (op.run start turns) schedules) :=
    reconcileRuns_keeps Settled.undoable (run_settled sound safe turns) schedules
  refine ⟨settled.keeps sound safe, fun last w ok => ?_⟩
  have ended : op.Settled start w ∧ ∀ r, ¬w.db.Pending r :=
    reconcileRun_eq_ok Settled.undoable settled ok
  exact ended.1.ends ended.2

end RestoreOperation

def sampleOwner : ProfileKey := ⟨"sync", "signer", "home"⟩

def samplePlan (attemptId : Uuid) : RestorePlan where
  attemptId
  pluginId := some "sync"
  profileId := "home"
  bundleSha256 := "bundle"
  planSha256 := "plan"
  identities := [⟨10, "admin", none⟩]
  credentials := [⟨20, 10, 30, "key", 0, "login", .password 5⟩]
  hosts := []
  desktopProfiles := []

def sampleSecret : VaultSecretInsert := ⟨5, .password, [1]⟩

def sampleBuild (attemptId : Uuid) : ReconcilePlanBuild where
  delta := {
    owner := sampleOwner
    attemptId
    deltaSha256 := "delta"
    creates := some ⟨samplePlan attemptId,
      [⟨100, .identity 10⟩, ⟨101, .credential 20⟩, ⟨102, .secret 5⟩]⟩ }
  vaultInserts := [sampleSecret]

def sampleRestore : RestoreOperation :=
  .owned (sampleBuild 1) 0

def sampleWorld : World where
  db := ⟨⟨[], [], [], [], [], [], [], [], [⟨sampleOwner, none⟩]⟩, .empty, .empty, [], [], 0⟩
  vault := .empty
  collections := []
  deletions := []

def smoothly (calls : Nat) : List Turn :=
  List.replicate calls ⟨[], .done⟩

/-- The world after a restore whose plugin data was deleted: the mappings are gone, the
credential and its secret were kept. -/
def forgottenWorld : World :=
  let w := sampleRestore.run sampleWorld (smoothly 8)
  { w with
    db := { w.db with
      metadata := { w.db.metadata with mappings := [] }
      ownedDeltaOperations := [] }
    collections := [] }

theorem World.sound_of_unlisted {w : World} (restores : w.db.restoreSagas.toList = [])
    (imports : w.db.offlineImportSagas.toList = []) (queue : w.db.vaultGcQueue = [])
    (collections : w.collections = []) (deletions : w.deletions = []) : w.Sound where
  pending r listed := by
    unfold Database.Pending at listed
    simp [restores, imports] at listed
  collectable r listed := by
    unfold World.Collectable at listed
    simp [queue, collections] at listed
  deletions := by simp [deletions]

theorem sampleWorld_sound : sampleWorld.Sound :=
  World.sound_of_unlisted rfl rfl rfl rfl rfl

theorem sampleBuild_safe : (sampleBuild 1).Safe sampleWorld where
  fresh := by
    refine ⟨fun r _ => ?_, fun r _ listed => ?_⟩
    · simp [Metadata.Referenced, Metadata.secretRefIsReferenced,
        Metadata.secretRefIsUsedByLocalMetadata, sampleWorld]
    · unfold World.Collectable at listed
      simp [sampleWorld] at listed
  unpending saga mem := by simp [sampleWorld, BTreeMap.empty] at mem
  covered r mem := by
    have only : r = 5 := by
      simpa [sampleBuild, samplePlan, OwnedMetadataDelta.secretRefs, RestorePlan.secretRefs,
        OwnedMetadataDelta.updatedSecretRefs, CredentialMaterial.secretRefs,
        LocalObjectId.secretRef?] using mem
    exact .inl (only ▸ List.mem_singleton_self _)

/-- Cut off after its secret was inserted. -/
theorem sample_recovers : sampleRestore.Recovers sampleWorld (smoothly 4) [smoothly 2] :=
  have safe : sampleRestore.Safe sampleWorld := sampleBuild_safe
  RestoreOperation.recovers_of_safe sampleWorld_sound safe _ _

/-- The repeated restore is refused, for its saga names a secret that is not new; undoing
it deletes the secret that the kept credential uses. -/
theorem forgotten_not_recovers : forgottenWorld.Sound ∧
      ¬(RestoreOperation.owned (sampleBuild 2) 2).Recovers forgottenWorld (smoothly 10) [] := by
  refine ⟨World.sound_of_unlisted (by decide) (by decide) (by decide) rfl (by decide), fun h => ?_⟩
  rcases h.1 5 (by decide) with same | ⟨-, unused⟩
  · exact absurd same (by decide)
  · exact unused (by decide)

end NoriShell.Restore

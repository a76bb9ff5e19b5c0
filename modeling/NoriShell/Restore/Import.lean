import NoriShell.Restore.Rollback

/-! Restores of a plan: into a profile with its mappings, and offline. -/

namespace NoriShell.Restore

open Collections Vault Program

section

variable {plan : RestorePlan} {m : Metadata} {preview : RestorePreview}

def RestorePlan.newSecretRefs (plan : RestorePlan) (m : Metadata) : List SecretRefId :=
  (BTreeSet.ofList (previewNewSecretRefs m plan)).toList

theorem RestorePlan.unused_of_mem_newSecretRefs {r : SecretRefId} (mem : r ∈ plan.newSecretRefs m) :
    ¬m.Referenced r := by
  rw [newSecretRefs, BTreeSet.mem_toList, BTreeSet.mem_ofList, previewNewSecretRefs] at mem
  simp only [List.mem_append, List.mem_flatMap, List.mem_filter, Bool.not_eq_true'] at mem
  intro used
  rcases mem with ⟨_, -, -, unused⟩ | ⟨_, -, -, unused⟩ <;>
    exact absurd used (by rw [Metadata.Referenced, unused]; exact Bool.false_ne_true)

theorem previewRestorePlan_eq_ok (ok : previewRestorePlan m plan = .ok preview) :
    preview.newSecretRefIds = plan.newSecretRefs m := by
  simp only [previewRestorePlan, Check.bind_unit_eq_ok] at ok
  cases ok.2
  rfl

theorem acceptedPreview_eq_ok (ok : acceptedPreview plan m = .ok preview) :
    preview.newSecretRefIds = plan.newSecretRefs m := by
  simp only [acceptedPreview, Check.bind_eq_ok] at ok
  obtain ⟨preview', previewed, -, -, eq⟩ := ok
  cases eq
  exact previewRestorePlan_eq_ok previewed

end

section

variable {start w : World} {refs : List SecretRefId} {plan : RestorePlan} {J : World → Prop}
  {inserts : List VaultSecretInsert}

def RestorePlan.Settled (plan : RestorePlan) (start : World) (refs : List SecretRefId) :
    World → Prop :=
  Restore.Settled start refs plan.secretRefs (publishRestorePlan start.db.metadata plan = ·)

theorem Inserted.publish {db : Database} (h : Inserted start refs J inserts w)
    (sound : start.Sound) (fresh : Fresh start refs)
    (covered : Covered start inserts plan.secretRefs)
    (own : ∀ secret ∈ inserts, secret.secretRefId ∈ refs)
    (metadata : db.metadata = publishRestorePlan w.db.metadata plan)
    (queue : db.vaultGcQueue = w.db.vaultGcQueue)
    (pending : ∀ r, db.Pending r → w.db.Pending r ∧ r ∉ refs) :
    plan.Settled start refs { w with db } := by
  rw [h.unpublished.metadata] at metadata
  have uses : ∀ r, db.metadata.Referenced r →
      start.db.metadata.Referenced r ∨ r ∈ plan.secretRefs := by
    rw [metadata]
    exact Metadata.usesOnly_iff.mp
      (publishRestorePlan_usesOnly (Metadata.usesOnly_iff.mpr fun _ => .inl) fun _ => .inr)
  refine .inr ⟨db.metadata, metadata.symm, h.unpublished.publish sound fresh.unused fresh.unlisted
    uses (covered.backed own h) pending fun record mem => .inl (queue ▸ mem)⟩

end

section

variable {owner : ProfileKey} {db db' : Database} {inputs : List ObjectMappingInput}

theorem resolveOrCreateObjectMappings_eq_ok {value : Unit} (mapped : ∀ input ∈ inputs,
      (⟨owner, input.portableObjectId, input.localObjectId⟩ : ObjectMapping) ∈ db.metadata.mappings)
    (ok : resolveOrCreateObjectMappings owner inputs db = .ok (value, db')) : db' = db := by
  simp only [resolveOrCreateObjectMappings, Check.bind_eq_ok] at ok
  obtain ⟨-, -, created, resolved, -, -, eq⟩ := ok
  have none : created.flatten = [] := by
    refine List.flatten_eq_nil_iff.mpr fun new mem => ?_
    obtain ⟨input, known, result⟩ := Check.mapM_eq_ok resolved new mem
    have found : (⟨owner, input.portableObjectId, input.localObjectId⟩ : ObjectMapping) ∈
        lookupObjectMapping db.metadata owner input :=
      List.mem_filter.mpr ⟨mapped input known, by simp⟩
    simp only [resolveObjectMapping] at result
    split at result
    · next empty => exact absurd (empty ▸ found) List.not_mem_nil
    · split at result <;> cases result
      rfl
  rw [if_pos none] at eq
  cases eq
  rfl

end

section

variable {build : RestorePlanBuild} {owner : ProfileKey} {start : World}

namespace RestorePlanBuild

def refs (build : RestorePlanBuild) (w : World) : List SecretRefId :=
  build.plan.newSecretRefs w.db.metadata

def inserts (build : RestorePlanBuild) (w : World) : List VaultSecretInsert :=
  build.vaultInserts.filter (·.secretRefId ∈ build.refs w)

structure Safe (build : RestorePlanBuild) (owner : ProfileKey) (w : World) : Prop where
  mapped : ∀ input ∈ build.mappingInputs,
    (⟨owner, input.portableObjectId, input.localObjectId⟩ : ObjectMapping) ∈ w.db.metadata.mappings
  unlisted : ∀ r ∈ build.refs w, ¬w.Collectable r
  unpending : ∀ saga ∈ w.db.offlineImportSagas.toList, ∀ r ∈ build.refs w, r ∉ saga.2.secretRefIds
  covered : Covered w (build.inserts w) build.plan.secretRefs

def Settled (build : RestorePlanBuild) (start : World) : World → Prop :=
  build.plan.Settled start (build.refs start)

theorem Safe.fresh (safe : build.Safe owner start) : Fresh start (build.refs start) :=
  ⟨fun _ => RestorePlan.unused_of_mem_newSecretRefs, safe.unlisted⟩

theorem own {secret : VaultSecretInsert} (mem : secret ∈ build.inserts start) :
    secret.secretRefId ∈ build.refs start :=
  of_decide_eq_true (List.mem_filter.mp mem).2

end RestorePlanBuild

theorem commitPlan_meets (sound : start.Sound) (safe : build.Safe owner start) : Meets perform
      (Inserted start (build.refs start) (Journaled start build.plan.attemptId (build.refs start))
        (build.inserts start))
      (commitPlan build.plan) (fun _ => build.Settled start) (build.Settled start) := by
  refine Meets.bind (tryDatabase_settles
    (Inserted.stable Journaled.journal safe.unlisted fun _ => RestorePlanBuild.own)
    (fun w h => .inl h.unpublished) fun w result db h ok => ?_) fun answer => ?_
  · obtain ⟨saga, -, only⟩ := h.journal.saga
    have found : w.db.restoreSagas.get? build.plan.attemptId = some saga :=
      BTreeMap.mem_toList.mp (only.symm ▸ List.mem_singleton_self _)
    simp only [commitRestorePlan, found, Check.bind_eq_ok] at ok
    obtain ⟨preview, -, -, -, eq⟩ := ok
    cases eq
    refine h.publish sound safe.fresh safe.covered (fun _ => RestorePlanBuild.own) rfl rfl
      fun r pending => ?_
    exact h.journal.committed (removeRestoreSaga build.plan.attemptId (publishPlan build.plan w.db))
      safe.unpending rfl rfl pending
  · split
    · exact Meets.pure fun _ h => h
    · exact Meets.throw fun _ h => h
    · apply Meets.bind (reconcileRestoreSagas_meets Settled.undoable)
      exact fun _ => Meets.throw fun _ h => h.1

theorem applyRestorePlan_meets (sound : start.Sound) (safe : build.Safe owner start) :
    Meets perform (fun w => w = start) (applyRestorePlan build owner)
      (fun _ => build.Settled start) (build.Settled start) := by
  have stops : ∀ w, Unpublished start (build.refs start) w → build.Settled start w := fun _ => .inl
  have ready : ∀ w, Ready start (build.refs start) w → build.Settled start w :=
    fun w h => stops w h.unpublished
  apply Meets.bind (reconcileRestoreSagas_ready sound stops)
  intro _
  have previewed : Meets perform (Ready start (build.refs start))
      (Operation.database "local.apply_restore_plan" (previewPlan build.plan))
      (fun preview w => Ready start (build.refs start) w ∧
        preview.newSecretRefIds = build.refs start) (build.Settled start) := by
    refine database_meets Ready.stable ready (fun _ w h => ready w h.1) fun w preview db h ok => ?_
    simp only [previewPlan, Check.bind_eq_ok] at ok
    obtain ⟨preview', accepted, eq⟩ := ok
    cases eq
    refine ⟨h, (previewRestorePlan_eq_ok accepted).trans ?_⟩
    rw [h.unpublished.metadata, RestorePlanBuild.refs]
  apply Meets.bind previewed
  intro preview
  refine Meets.given fun new => ?_
  rw [new]
  apply Meets.bind (Meets.ofExcept ready)
  intro _
  have mapped : Meets perform (Ready start (build.refs start))
      (Operation.database "local.apply_restore_plan"
        (resolveOrCreateObjectMappings owner build.mappingInputs))
      (fun _ => Ready start (build.refs start)) (build.Settled start) := by
    refine database_meets Ready.stable ready (fun _ w h => ready w h) fun w value db h ok => ?_
    rw [resolveOrCreateObjectMappings_eq_ok (h.unpublished.metadata.symm ▸ safe.mapped) ok]
    exact h
  apply Meets.bind (mapped.weaken (fun _ h => h.1) fun _ _ h => h)
  intro _
  apply Meets.bind (Meets.ofExcept ready)
  intro _
  apply Meets.bind (Meets.ofExcept fun w h => ready w h.1)
  intro _
  apply Meets.bind ((beginRestoreSaga_meets safe.fresh safe.unpending (fun _ => Iff.rfl)
    stops).weaken (fun _ h => h.1.1) fun _ _ h => h)
  intro _
  apply Meets.bind (insertRestoreSecrets_meets Journaled.journal (fun _ => RestorePlanBuild.own)
    stops (abortRestoreSaga_meets stops))
  exact fun _ => commitPlan_meets sound safe

end

section

variable {build : OfflineImportBuild} {start : World}

namespace OfflineImportBuild

def refs (build : OfflineImportBuild) (w : World) : List SecretRefId :=
  build.plan.newSecretRefs w.db.metadata

structure Safe (build : OfflineImportBuild) (w : World) : Prop where
  new : ∀ secret ∈ build.vaultInserts, secret.secretRefId ∈ build.refs w
  unlisted : ∀ r ∈ build.refs w, ¬w.Collectable r
  unpending : ∀ saga ∈ w.db.restoreSagas.toList, ∀ r ∈ build.refs w, r ∉ saga.2.secretRefIds
  covered : Covered w build.vaultInserts build.plan.secretRefs

def Settled (build : OfflineImportBuild) (start : World) : World → Prop :=
  build.plan.Settled start (build.refs start)

theorem Safe.fresh (safe : build.Safe start) : Fresh start (build.refs start) :=
  ⟨fun _ => RestorePlan.unused_of_mem_newSecretRefs, safe.unlisted⟩

end OfflineImportBuild

variable {refs : List SecretRefId} {S : World → Prop}

/-- The import's own saga is the only one, and no restore was added. -/
structure JournaledImport (start : World) (attemptId : Uuid) (saga : OfflineImportSaga)
    (w : World) : Prop where
  only : w.db.offlineImportSagas.toList = [(attemptId, saga)]
  restores : RestoresWithin start.db.restoreSagas.toList w

variable {saga : OfflineImportSaga} {fence : Nat}

theorem JournaledImport.journal {attemptId : Uuid}
    (listed : saga.secretRefIds = refs) : Journal refs (JournaledImport start attemptId saga) where
  stable w w' collected h := ⟨collected.offlineImportSagas ▸ h.only,
    (RestoresWithin.undoable _).stable w w' collected h.restores⟩
  free _ _ h := ⟨h.only, h.restores⟩
  pending _ h _ mem :=
    .inr ⟨(attemptId, saga), h.only.symm ▸ List.mem_singleton_self _, listed.symm ▸ mem⟩

theorem beginOfflineImport_eq_ok {plan : RestorePlan} {expected : Nat} {db db' : Database}
    (empty : db.offlineImportSagas.toList = [])
    (ok : beginOfflineImport plan expected db = .ok ((saga, fence), db')) :
    saga.secretRefIds = plan.newSecretRefs db.metadata ∧
      db' = insertOfflineImportSaga plan.attemptId saga db := by
  simp only [beginOfflineImport, Check.bind_eq_ok] at ok
  obtain ⟨-, -, preview, accepted, ok⟩ := ok
  have missing : db.offlineImportSagas.get? plan.attemptId = none := by
    rw [BTreeMap.get?, empty]
    rfl
  rw [missing] at ok
  cases ok
  exact ⟨acceptedPreview_eq_ok accepted, rfl⟩

def Waiting (start : World) (refs : List SecretRefId) (w : World) : Prop :=
  Unpublished start refs w ∧ RestoresWithin start.db.restoreSagas.toList w

theorem Waiting.undoable : Undoable (Waiting start refs) :=
  Unpublished.undoable.and (RestoresWithin.undoable _)

theorem Waiting.begin {w : World} {db : Database} {expected : Nat}
    (h : Waiting start (build.refs start) w) (safe : build.Safe start)
    (empty : w.db.offlineImportSagas.toList = [])
    (ok : beginOfflineImport build.plan expected w.db = .ok ((saga, fence), db)) :
    saga.secretRefIds = build.refs start ∧
      Begun start (build.refs start) (JournaledImport start build.plan.attemptId saga)
        { w with db } := by
  obtain ⟨listed, rfl⟩ := beginOfflineImport_eq_ok empty ok
  rw [h.1.metadata] at listed
  have only : (insertOfflineImportSaga build.plan.attemptId saga w.db).offlineImportSagas.toList =
      [(build.plan.attemptId, saga)] :=
    toList_insert_of_empty empty build.plan.attemptId saga
  refine ⟨listed, h.1.begin safe.fresh rfl rfl (fun r pending => ?_)
    (fun r mem pending => ?_) ⟨only, h.2⟩⟩
  · rcases pending with restore | ⟨other, mem, used⟩
    · exact .inl (.inl restore)
    · rw [only, List.mem_singleton] at mem
      cases mem
      rw [listed] at used
      exact .inr used
  · rcases pending with ⟨other, found, used⟩ | ⟨other, found, -⟩
    · exact safe.unpending other (h.2 other found) r mem used
    · rw [empty] at found
      cases found

theorem finishOfflineImportCleanup_meets {stage : String} {attemptId : Uuid}
    (listed : saga.secretRefIds = refs)
    (stops : ∀ w, Unpublished start refs w → S w) :
    Meets perform (Begun start refs (JournaledImport start attemptId saga))
      (Operation.database stage (finishOfflineImportCleanup attemptId saga)) (fun _ => S) S := by
  refine database_meets (Begun.stable (JournaledImport.journal listed))
    (fun w h => stops w h.unpublished) (fun _ _ h => h) fun w value db h ok => ?_
  have mem : (attemptId, saga) ∈ w.db.offlineImportSagas.toList :=
    h.journal.only.symm ▸ List.mem_singleton_self _
  cases finishOfflineImportCleanup_eq_ok mem ok
  exact stops _ (h.unpublished.release rfl rfl (fun _ => pending_of_removeOfflineImportSaga)
    fun r mem _ => .inr (h.untouched r mem))

theorem commitImport_meets (listed : saga.secretRefIds = build.refs start) (sound : start.Sound)
    (safe : build.Safe start) :
    Meets perform
      (Inserted start (build.refs start) (JournaledImport start build.plan.attemptId saga)
        build.vaultInserts)
      (commitImport build.plan fence) (fun _ => build.Settled start) (build.Settled start) := by
  refine Meets.bind (tryDatabase_settles
    (Inserted.stable (JournaledImport.journal listed) safe.unlisted safe.new)
    (fun w h => .inl h.unpublished) fun w result db h ok => ?_) fun answer => ?_
  · have found : w.db.offlineImportSagas.get? build.plan.attemptId = some saga :=
      BTreeMap.mem_toList.mp (h.journal.only.symm ▸ List.mem_singleton_self _)
    simp only [AppRepository.commitOfflineImport, found, Check.bind_eq_ok] at ok
    obtain ⟨-, -, preview, -, -, -, eq⟩ := ok
    cases eq
    refine h.publish sound safe.fresh safe.covered safe.new rfl rfl fun r pending => ?_
    rcases pending with ⟨other, mem, used⟩ | ⟨other, mem, -⟩
    · exact ⟨.inl ⟨other, mem, used⟩,
        fun own => safe.unpending other (h.journal.restores other mem) r own used⟩
    · rw [removeOfflineImportSaga, publishPlan, toList_erase_of_single h.journal.only] at mem
      cases mem
  · split
    · exact Meets.pure fun _ h => h
    · exact Meets.throw fun _ h => h
    · apply Meets.bind (reconcileOfflineImports_meets Settled.undoable)
      exact fun _ => Meets.throw fun _ h => h.1

theorem requireUnlockedVault_meets {P : World → Prop} {inserts : List VaultSecretInsert}
    (stable : Stable P) (stops : ∀ w, P w → S w) :
    Meets perform P (requireUnlockedVault inserts) (fun _ => P) S := by
  unfold requireUnlockedVault
  split
  · exact Meets.pure fun _ h => h
  · apply Meets.bind (consult_meets stable stops)
    intro unlocked
    split
    · exact Meets.pure fun _ h => h
    · exact Meets.throw stops

theorem commitOfflineImport_meets (sound : start.Sound) (safe : build.Safe start) :
    Meets perform (fun w => w = start) (commitOfflineImport build fence)
      (fun _ => build.Settled start) (build.Settled start) := by
  have stops : ∀ w, Unpublished start (build.refs start) w → build.Settled start w := fun _ => .inl
  have waits : ∀ w, Waiting start (build.refs start) w → build.Settled start w :=
    fun w h => stops w h.1
  have begins : ∀ w, w = start → Waiting start (build.refs start) w := by
    rintro w rfl
    exact ⟨.refl sound, fun _ mem => mem⟩
  apply Meets.bind ((requireUnlockedVault_meets Waiting.undoable.stable waits).weaken begins
    fun _ _ h => h)
  intro _
  apply Meets.bind ((reconcileOfflineImports_meets Waiting.undoable).stops waits)
  intro _
  have begun : Meets perform
      (fun w => Waiting start (build.refs start) w ∧ w.db.offlineImportSagas.toList = [])
      (Operation.database "local.commit_offline_import" (beginOfflineImport build.plan fence))
      (fun answer w =>
        Begun start (build.refs start) (JournaledImport start build.plan.attemptId answer.1) w ∧
          answer.1.secretRefIds = build.refs start)
      (build.Settled start) := by
    refine database_meets (fun w w' collected h => ?_) (fun w h => waits w h.1)
      (fun _ w h => stops w h.1.unpublished) fun w answer db h ok => ?_
    · exact ⟨Waiting.undoable.stable w w' collected h.1, collected.offlineImportSagas ▸ h.2⟩
    · exact (h.1.begin safe h.2 ok).symm
  apply Meets.bind begun
  rintro ⟨saga, fence⟩
  refine Meets.given fun listed => ?_
  apply Meets.bind (Meets.ofExcept fun w h => stops w h.unpublished)
  intro _
  apply Meets.bind ((insertRestoreSecrets_meets (JournaledImport.journal listed) safe.new stops
    (finishOfflineImportCleanup_meets listed stops)).weaken (fun _ h => h.1) fun _ _ h => h)
  exact fun _ => commitImport_meets listed sound safe

end

end NoriShell.Restore

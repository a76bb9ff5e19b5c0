import NoriShell.Restore.Publication

/-! Restores that fail, are refused or are cut off, and their reconciliation. -/

namespace NoriShell.Restore

open Collections Vault Program

section

variable {db db' : Database}

theorem mem_normalizedSecretRefIds {refs refs' : List SecretRefId}
    (ok : normalizedSecretRefIds refs = .ok refs') {r : SecretRefId} : r ∈ refs' ↔ r ∈ refs := by
  simp only [normalizedSecretRefIds] at ok
  split at ok
  · cases ok
  · cases ok
    rw [BTreeSet.mem_toList, BTreeSet.mem_ofList]

theorem toList_insert_of_empty {κ ν : Type} [LinearOrder κ] {m : BTreeMap κ ν}
    (empty : m.toList = []) (k : κ) (v : ν) : (m.insert k v).toList = [(k, v)] := by
  rw [BTreeMap.insert]
  simp only [empty]
  rfl

theorem toList_erase_of_single {κ ν : Type} [LinearOrder κ] {m : BTreeMap κ ν} {k : κ} {v : ν}
    (only : m.toList = [(k, v)]) : (m.erase k).toList = [] := by
  rw [BTreeMap.erase]
  simp only [only]
  simp [Entries.erase]

theorem beginRestoreSaga_eq_ok {attemptId : Uuid} {input : RestoreSaga} {expected : Option Nat}
    {fence : Nat} (empty : db.restoreSagas.toList = [])
    (ok : beginRestoreSaga attemptId input expected db = .ok (fence, db')) :
    ∃ saga : RestoreSaga, (∀ r, r ∈ saga.secretRefIds ↔ r ∈ input.secretRefIds) ∧
      db' = insertRestoreSaga attemptId saga db := by
  simp only [beginRestoreSaga, Check.bind_eq_ok] at ok
  obtain ⟨refs, normalized, -, -, ok⟩ := ok
  have missing : db.restoreSagas.get? attemptId = none := by
    rw [BTreeMap.get?, empty]
    rfl
  rw [missing] at ok
  cases ok
  exact ⟨{ input with secretRefIds := refs }, fun r => mem_normalizedSecretRefIds normalized, rfl⟩

theorem mem_queueVaultGc {delta : OwnedMetadataDelta} {queue : List VaultGcRecord}
    {pending : List (SecretRefId × VaultGcReason)} {record : VaultGcRecord}
    (mem : record ∈ queueVaultGc delta queue pending) :
    record ∈ queue ∨ ∃ candidate ∈ pending, record.secretRefId = candidate.1 := by
  rcases List.mem_append.mp mem with mem | mem
  · exact .inl mem
  · obtain ⟨candidate, new, rfl⟩ := List.mem_map.mp mem
    exact .inr ⟨candidate, List.mem_of_mem_filter new, rfl⟩

/-- A delta that is accepted is a replay, or it is applied as a whole. -/
theorem applyOwnedMetadataDelta_eq_ok {delta : OwnedMetadataDelta} {fence : Nat}
    {result : OwnedDeltaResult} {batch : OwnedCreateBatch} (creates : delta.creates = some batch)
    (ok : applyOwnedMetadataDelta delta fence db = .ok (result, db')) :
    db' = db ∨ batch.plan.attemptId = delta.attemptId ∧ ∃ pending,
      applyOwnedDelta delta.owner delta db.metadata = .ok (pending, db'.metadata) ∧
      db'.vaultGcQueue = queueVaultGc delta db.vaultGcQueue pending ∧
      db'.offlineImportSagas = db.offlineImportSagas ∧
      db'.restoreSagas = db.restoreSagas.erase delta.attemptId := by
  simp only [applyOwnedMetadataDelta, Check.bind_eq_ok] at ok
  obtain ⟨-, -, -, -, replay, -, ok⟩ := ok
  cases replay with
  | some result =>
    cases ok
    exact .inl rfl
  | none =>
    obtain ⟨count, checked, ok⟩ := Check.bind_eq_ok.mp ok
    obtain ⟨⟨pending, metadata⟩, applied, ok⟩ := Check.bind_eq_ok.mp ok
    cases ok
    refine .inr ⟨?_, pending, applied, rfl, rfl, ?_⟩
    · simp only [checkOwnedDelta, creates, checkOwnedCreates, Check.bind_eq_ok,
        Check.reject_eq_ok, not_or, not_not] at checked
      obtain ⟨-, -, -, ⟨-, ⟨-, -, same⟩, -⟩, -⟩ := checked
      exact same
    · exact if_pos (by rw [creates]; rfl)

end

structure Fresh (w : World) (refs : List SecretRefId) : Prop where
  unused : ∀ r ∈ refs, ¬w.db.metadata.Referenced r
  unlisted : ∀ r ∈ refs, ¬w.Collectable r

/-- What a plan refers to is inserted with it, or is in use and in the vault already. -/
def Covered (w : World) (inserts : List VaultSecretInsert) (plan : List SecretRefId) : Prop :=
  ∀ r ∈ plan, r ∈ inserts.map (·.secretRefId) ∨ w.db.metadata.Referenced r ∧ (w.vault.get? r).isSome

theorem Covered.backed {start w : World} {refs plan : List SecretRefId} {J : World → Prop}
    {inserts : List VaultSecretInsert} (covered : Covered start inserts plan)
    (own : ∀ secret ∈ inserts, secret.secretRefId ∈ refs) (h : Inserted start refs J inserts w) :
    ∀ r ∈ plan, r ∈ refs ∧ (w.vault.get? r).isSome ∨
      start.db.metadata.Referenced r ∧ (start.vault.get? r).isSome := by
  intro r mem
  apply (covered r mem).imp_left
  intro listed
  obtain ⟨secret, inserted, rfl⟩ := List.mem_map.mp listed
  exact ⟨own secret inserted, by rw [h.present secret inserted]; rfl⟩

section

variable {start : World} {refs : List SecretRefId} {P S : World → Prop}

theorem requireActionFence_meets (stable : Stable P)
    (unpublished : ∀ w, P w → Unpublished start refs w)
    (stops : ∀ w, Unpublished start refs w → S w) :
    Meets perform P requireActionFence (fun _ => P) S := by
  apply Meets.bind (consult_meets stable fun w h => stops w (unpublished w h))
  intro wanted
  split
  · exact Meets.pure fun _ h => h
  · have reconciled : Meets perform P reconcileRestoreSagas
        (fun _ w => Unpublished start refs w ∧ w.db.restoreSagas.toList = []) S :=
      ((reconcileRestoreSagas_meets Unpublished.undoable).weaken unpublished
        fun _ _ h => h).stops stops
    exact Meets.bind reconciled fun _ => Meets.throw fun w h => stops w h.1

end

section

variable {start : World} {refs : List SecretRefId} {S : World → Prop}

/-- The restore's own saga is the only one, and no import was added. -/
structure Journaled (start : World) (attemptId : Uuid) (refs : List SecretRefId) (w : World) :
    Prop where
  saga : ∃ saga : RestoreSaga, (∀ r, r ∈ saga.secretRefIds ↔ r ∈ refs) ∧
    w.db.restoreSagas.toList = [(attemptId, saga)]
  imports : ImportsWithin start.db.offlineImportSagas.toList w

variable {attemptId : Uuid}

theorem Journaled.journal : Journal refs (Journaled start attemptId refs) where
  stable w w' collected h :=
    ⟨collected.restoreSagas ▸ h.saga, (ImportsWithin.undoable _).stable w w' collected h.imports⟩
  free _ _ h := ⟨h.saga, h.imports⟩
  pending w h r mem := by
    obtain ⟨saga, listed, only⟩ := h.saga
    exact .inl ⟨(attemptId, saga), only.symm ▸ List.mem_singleton_self _, (listed r).mpr mem⟩

theorem Journaled.committed {w : World} (h : Journaled start attemptId refs w) (db : Database)
    (unpending : ∀ saga ∈ start.db.offlineImportSagas.toList, ∀ r ∈ refs, r ∉ saga.2.secretRefIds)
    (restores : db.restoreSagas = w.db.restoreSagas.erase attemptId)
    (imports : db.offlineImportSagas = w.db.offlineImportSagas) {r : SecretRefId}
    (pending : db.Pending r) : w.db.Pending r ∧ r ∉ refs := by
  rcases pending with ⟨saga, mem, used⟩ | ⟨saga, mem, used⟩
  · obtain ⟨own, -, only⟩ := h.saga
    rw [restores, toList_erase_of_single only] at mem
    cases mem
  · rw [imports] at mem
    exact ⟨.inr ⟨saga, mem, used⟩, fun own => unpending saga (h.imports saga mem) r own used⟩

/-- A restore begins when its references enter the journal, where none of them was. -/
theorem Unpublished.begin {J : World → Prop} {w : World} {db : Database}
    (h : Unpublished start refs w) (fresh : Fresh start refs)
    (metadata : db.metadata = w.db.metadata) (queue : db.vaultGcQueue = w.db.vaultGcQueue)
    (pending : ∀ r, db.Pending r → w.db.Pending r ∨ r ∈ refs)
    (unpending : ∀ r ∈ refs, ¬w.db.Pending r) (journal : J { w with db }) :
    Begun start refs J { w with db } := by
  have collectable : ∀ r, ({ w with db } : World).Collectable r → w.Collectable r :=
    fun r listed => listed.imp_left fun h => queue ▸ h
  have untouched : ∀ r ∈ refs, w.vault.get? r = start.vault.get? r ∨ w.vault.get? r = none :=
    fun r mem => (h.inserted r mem).imp_right fun h => h.resolve_right (unpending r mem)
  refine ⟨⟨⟨fun r listed => ?_, fun r listed => ?_, h.sound.deletions⟩, metadata.trans h.metadata,
    fun r listed => h.collectable r (collectable r listed), fun r listed => ?_, h.others,
    fun r mem => (untouched r mem).imp_right .inl⟩, journal, untouched⟩
  · rw [metadata]
    rcases pending r listed with listed | mem
    · exact h.sound.pending r listed
    · exact fun used => fresh.unused r mem (h.metadata ▸ used)
  · rw [metadata]
    have before := h.sound.collectable r (collectable r listed)
    refine ⟨before.1, fun again => ?_⟩
    rcases pending r again with again | mem
    · exact before.2 again
    · exact fresh.unlisted r mem (h.collectable r (collectable r listed))
  · exact (pending r listed).elim (h.pending r) .inr

structure Ready (start : World) (refs : List SecretRefId) (w : World) : Prop where
  unpublished : Unpublished start refs w
  imports : ImportsWithin start.db.offlineImportSagas.toList w
  empty : w.db.restoreSagas.toList = []

theorem Ready.stable : Stable (Ready start refs) := fun w w' collected h =>
  ⟨h.unpublished.collect collected, (ImportsWithin.undoable _).stable w w' collected h.imports,
    collected.restoreSagas ▸ h.empty⟩

theorem reconcileRestoreSagas_ready (sound : start.Sound)
    (stops : ∀ w, Unpublished start refs w → S w) :
    Meets perform (fun w => w = start) reconcileRestoreSagas (fun _ => Ready start refs) S := by
  have undo : Undoable fun w => Unpublished start refs w ∧
      ImportsWithin start.db.offlineImportSagas.toList w :=
    Unpublished.undoable.and (ImportsWithin.undoable _)
  refine ((reconcileRestoreSagas_meets undo).weaken (fun w here => ?_)
    fun _ w h => ⟨h.1.1, h.1.2, h.2⟩).stops fun w h => stops w h.1
  rw [here]
  exact ⟨.refl sound, fun _ mem => mem⟩

theorem Ready.begin {w : World} {db : Database} {input : RestoreSaga}
    {expected : Option Nat} {fence : Nat} (h : Ready start refs w) (fresh : Fresh start refs)
    (unpending : ∀ saga ∈ start.db.offlineImportSagas.toList, ∀ r ∈ refs, r ∉ saga.2.secretRefIds)
    (same : ∀ r, r ∈ input.secretRefIds ↔ r ∈ refs)
    (ok : beginRestoreSaga attemptId input expected w.db = .ok (fence, db)) :
    Begun start refs (Journaled start attemptId refs) { w with db } := by
  obtain ⟨saga, listed, rfl⟩ := beginRestoreSaga_eq_ok h.empty ok
  have only : (insertRestoreSaga attemptId saga w.db).restoreSagas.toList = [(attemptId, saga)] :=
    toList_insert_of_empty h.empty attemptId saga
  refine h.unpublished.begin fresh rfl rfl (fun r pending => ?_) (fun r mem pending => ?_)
    ⟨⟨saga, fun r => (listed r).trans (same r), only⟩, h.imports⟩
  · rcases pending with ⟨other, mem, used⟩ | imported
    · rw [only, List.mem_singleton] at mem
      cases mem
      exact .inr ((same r).mp ((listed r).mp used))
    · exact .inl (.inr imported)
  · rcases pending with ⟨other, found, -⟩ | ⟨other, found, used⟩
    · rw [h.empty] at found
      cases found
    · exact unpending other (h.imports other found) r mem used

theorem beginRestoreSaga_meets {stage : String} {input : RestoreSaga}
    {expected : Option Nat} (fresh : Fresh start refs)
    (unpending : ∀ saga ∈ start.db.offlineImportSagas.toList, ∀ r ∈ refs, r ∉ saga.2.secretRefIds)
    (same : ∀ r, r ∈ input.secretRefIds ↔ r ∈ refs)
    (stops : ∀ w, Unpublished start refs w → S w) :
    Meets perform (Ready start refs)
      (Operation.database stage (beginRestoreSaga attemptId input expected))
      (fun _ => Begun start refs (Journaled start attemptId refs)) S :=
  database_meets Ready.stable (fun w h => stops w h.unpublished)
    (fun _ w h => stops w h.unpublished) fun _ _ _ h => h.begin fresh unpending same

theorem abortRestoreSaga_meets {stage : String} (stops : ∀ w, Unpublished start refs w → S w) :
    Meets perform (Begun start refs (Journaled start attemptId refs))
      (Operation.database stage (abortRestoreSaga attemptId)) (fun _ => S) S := by
  apply database_meets (Begun.stable Journaled.journal) (fun w h => stops w h.unpublished)
    (fun _ _ h => h)
  intro w value db h ok
  cases ok
  apply stops
  split
  · exact h.unpublished.release rfl rfl (fun _ => pending_of_removeRestoreSaga)
      fun r mem _ => .inr (h.untouched r mem)
  · exact h.unpublished

end

section

variable {build : ReconcilePlanBuild} {start : World}

namespace ReconcilePlanBuild

def refs (build : ReconcilePlanBuild) : List SecretRefId :=
  build.vaultInserts.map (·.secretRefId)

structure Safe (build : ReconcilePlanBuild) (w : World) : Prop where
  fresh : Fresh w build.refs
  unpending : ∀ saga ∈ w.db.offlineImportSagas.toList, ∀ r ∈ build.refs, r ∉ saga.2.secretRefIds
  covered : Covered w build.vaultInserts build.delta.secretRefs

def Publishes (build : ReconcilePlanBuild) (m target : Metadata) : Prop :=
  ∃ pending, applyOwnedDelta build.delta.owner build.delta m = .ok (pending, target)

def Settled (build : ReconcilePlanBuild) (start : World) : World → Prop :=
  Restore.Settled start build.refs build.delta.secretRefs (build.Publishes start.db.metadata)

end ReconcilePlanBuild

theorem ReconcilePlanBuild.own {secret : VaultSecretInsert} (mem : secret ∈ build.vaultInserts) :
    secret.secretRefId ∈ build.refs :=
  List.mem_map.mpr ⟨secret, mem, rfl⟩

/-- An accepted delta publishes what its journal and the vault have prepared. -/
theorem ReconcilePlanBuild.commit {batch : OwnedCreateBatch} {fence : Nat} {w : World}
    {db : Database} {result : OwnedDeltaResult} (creates : build.delta.creates = some batch)
    (sound : start.Sound) (safe : build.Safe start)
    (h : Inserted start build.refs (Journaled start batch.plan.attemptId build.refs)
      build.vaultInserts w)
    (ok : applyOwnedMetadataDelta build.delta fence w.db = .ok (result, db)) :
    build.Settled start { w with db } := by
  rcases applyOwnedMetadataDelta_eq_ok creates ok with rfl | ⟨attempt, queued, applied, queue,
    imports, restores⟩
  · exact .inl h.unpublished
  obtain ⟨uses, candidates⟩ := applyOwnedDelta_eq_ok applied
  rw [h.unpublished.metadata] at uses candidates applied
  refine .inr ⟨db.metadata, ⟨queued, applied⟩, h.unpublished.publish sound safe.fresh.unused
    safe.fresh.unlisted uses (safe.covered.backed (fun _ => ReconcilePlanBuild.own) h) ?_ ?_⟩
  · exact fun r => h.journal.committed db safe.unpending (attempt ▸ restores) imports
  · intro record mem
    rw [queue] at mem
    rcases mem_queueVaultGc mem with old | ⟨candidate, new, eq⟩
    · exact .inl old
    · rw [eq]
      exact .inr (candidates candidate new)

theorem commitOwnedDelta_meets {batch : OwnedCreateBatch} {fence : Nat}
    (creates : build.delta.creates = some batch) (sound : start.Sound) (safe : build.Safe start) :
    Meets perform
      (Inserted start build.refs (Journaled start batch.plan.attemptId build.refs)
        build.vaultInserts)
      (commitOwnedDelta build.delta fence) (fun _ => build.Settled start) (build.Settled start) := by
  apply Meets.bind (tryDatabase_settles
    (Inserted.stable Journaled.journal safe.fresh.unlisted fun _ => ReconcilePlanBuild.own)
    (fun w h => .inl h.unpublished) fun _ _ _ => ReconcilePlanBuild.commit creates sound safe)
  intro answer
  cases answer with
  | ok result => exact collect_meets Settled.undoable.stable fun _ h => h
  | error e =>
    apply Meets.bind (reconcileRestoreSagas_meets Settled.undoable)
    exact fun _ => Meets.throw fun _ h => h.1

theorem applyOwnedReconcile_meets {changeFence : Nat} (sound : start.Sound)
    (safe : build.Safe start) :
    Meets perform (fun w => w = start) (applyOwnedReconcile build changeFence)
      (fun _ => build.Settled start) (build.Settled start) := by
  have stops : ∀ w, Unpublished start build.refs w → build.Settled start w := fun _ => .inl
  apply Meets.bind (reconcileRestoreSagas_ready sound stops)
  intro _
  cases creates : build.delta.creates with
  | none => exact Meets.throw fun w h => stops w h.unpublished
  | some batch =>
    apply Meets.bind (Meets.ofExcept fun w h => stops w h.unpublished)
    intro _
    apply Meets.bind ((beginRestoreSaga_meets safe.fresh safe.unpending (fun _ => Iff.rfl)
      stops).weaken (fun _ h => h.1) fun _ _ h => h)
    intro fence
    apply Meets.bind (requireActionFence_meets (Begun.stable Journaled.journal)
      (fun _ h => h.unpublished) stops)
    intro _
    apply Meets.bind (insertRestoreSecrets_meets Journaled.journal
      (fun _ => ReconcilePlanBuild.own) stops (abortRestoreSaga_meets stops))
    intro _
    apply Meets.bind (requireActionFence_meets
      (Inserted.stable Journaled.journal safe.fresh.unlisted fun _ => ReconcilePlanBuild.own)
      (fun _ h => h.unpublished) stops)
    exact fun _ => commitOwnedDelta_meets creates sound safe

end

end NoriShell.Restore

import NoriShell.Restore.Undo

/-! The phases of a restore, seen from the world it started in: unpublished, with its
secrets journaled before they are inserted, and published. -/

namespace NoriShell.Restore

open Collections Vault Program

section

variable {db : Database} {r : SecretRefId}

theorem pending_of_removeRestoreSaga {attemptId : Uuid}
    (h : (removeRestoreSaga attemptId db).Pending r) : db.Pending r := by
  apply h.imp_left
  rintro ⟨saga, mem, used⟩
  exact ⟨saga, Entries.mem_of_mem_erase mem, used⟩

theorem pending_of_removeOfflineImportSaga {attemptId : Uuid}
    (h : (removeOfflineImportSaga attemptId db).Pending r) : db.Pending r := by
  apply h.imp_right
  rintro ⟨saga, mem, used⟩
  exact ⟨saga, Entries.mem_of_mem_erase mem, used⟩

theorem mem_erase_or {σ : Type} {sagas : BTreeMap Uuid σ} {saga entry : Uuid × σ}
    (mem : saga ∈ sagas.toList) (other : entry ∈ sagas.toList) :
    entry ∈ (sagas.erase saga.1).toList ∨ entry = saga := by
  obtain ⟨key, value⟩ := entry
  rw [BTreeMap.mem_toList, BTreeMap.get?_erase]
  rw [BTreeMap.mem_toList] at mem other
  by_cases same : key = saga.1
  · rw [same, mem] at other
    cases other
    exact .inr (Prod.ext same rfl)
  · rw [if_neg same]
    exact .inl other

theorem pending_removeRestoreSaga {saga : Uuid × RestoreSaga} (h : db.Pending r)
    (mem : saga ∈ db.restoreSagas.toList) :
    (removeRestoreSaga saga.1 db).Pending r ∨ r ∈ saga.2.secretRefIds := by
  rcases h with ⟨entry, other, used⟩ | offline
  · rcases mem_erase_or mem other with kept | rfl
    · exact .inl (.inl ⟨entry, kept, used⟩)
    · exact .inr used
  · exact .inl (.inr offline)

theorem pending_removeOfflineImportSaga {saga : Uuid × OfflineImportSaga} (h : db.Pending r)
    (mem : saga ∈ db.offlineImportSagas.toList) :
    (removeOfflineImportSaga saga.1 db).Pending r ∨ r ∈ saga.2.secretRefIds := by
  rcases h with restore | ⟨entry, other, used⟩
  · exact .inl (.inl restore)
  · rcases mem_erase_or mem other with kept | rfl
    · exact .inl (.inr ⟨entry, kept, used⟩)
    · exact .inr used

end

theorem World.Sound.release {w : World} (sound : w.Sound) {db : Database}
    (metadata : db.metadata = w.db.metadata) (queue : db.vaultGcQueue = w.db.vaultGcQueue)
    (fewer : ∀ r, db.Pending r → w.db.Pending r) : ({ w with db } : World).Sound where
  pending r listed := by
    rw [metadata]
    exact sound.pending r (fewer r listed)
  collectable r listed := by
    rw [metadata]
    have before : w.Collectable r := listed.imp_left fun h => queue ▸ h
    exact ⟨(sound.collectable r before).1, fun h => (sound.collectable r before).2 (fewer r h)⟩
  deletions := sound.deletions

section

/-- Nothing is published yet.  Of the vault only the listed references changed, and those
that now have a new value are journaled. -/
structure Unpublished (start : World) (refs : List SecretRefId) (w : World) : Prop where
  sound : w.Sound
  metadata : w.db.metadata = start.db.metadata
  collectable : ∀ r, w.Collectable r → start.Collectable r
  pending : ∀ r, w.db.Pending r → start.db.Pending r ∨ r ∈ refs
  others : ∀ r, r ∉ refs → w.vault.get? r = start.vault.get? r ∨
    w.vault.get? r = none ∧ (start.Collectable r ∨ start.db.Pending r)
  inserted : ∀ r ∈ refs, w.vault.get? r = start.vault.get? r ∨ w.vault.get? r = none ∨
    w.db.Pending r

variable {start w : World} {refs : List SecretRefId}

theorem Unpublished.refl (sound : start.Sound) : Unpublished start refs start where
  sound := sound
  metadata := rfl
  collectable _ := id
  pending _ := .inl
  others _ _ := .inl rfl
  inserted _ _ := .inl rfl

theorem Unpublished.collect {w' : World} (h : Unpublished start refs w)
    (collected : Collected w w') : Unpublished start refs w' where
  sound := h.sound.collect collected
  metadata := collected.metadata.trans h.metadata
  collectable r listed := h.collectable r (collected.collectable r listed)
  pending r listed := h.pending r ((collected.pending r).mp listed)
  others r other := by
    rcases collected.vault r with eq | ⟨absent, listed⟩
    · rw [eq]
      exact h.others r other
    · exact .inr ⟨absent, .inl (h.collectable r listed)⟩
  inserted r mem := by
    rcases collected.vault r with eq | ⟨absent, -⟩
    · rw [eq, collected.pending r]
      exact h.inserted r mem
    · exact .inr (.inl absent)

theorem Unpublished.delete {deleted : List SecretRefId} {vault : SecretEntries}
    (h : Unpublished start refs w) (pending : ∀ r ∈ deleted, w.db.Pending r)
    (eq : ∀ r, vault.get? r = if r ∈ deleted then none else w.vault.get? r) :
    Unpublished start refs { w with vault } where
  sound := ⟨h.sound.pending, h.sound.collectable, h.sound.deletions⟩
  metadata := h.metadata
  collectable := h.collectable
  pending := h.pending
  others r other := by
    change vault.get? r = _ ∨ vault.get? r = none ∧ _
    rw [eq r]
    split
    · next listed => exact .inr ⟨rfl, .inr ((h.pending r (pending r listed)).resolve_right other)⟩
    · exact h.others r other
  inserted r mem := by
    change vault.get? r = _ ∨ vault.get? r = none ∨ _
    rw [eq r]
    split
    · exact .inr (.inl rfl)
    · exact h.inserted r mem

theorem Unpublished.release {db : Database} (h : Unpublished start refs w)
    (metadata : db.metadata = w.db.metadata) (queue : db.vaultGcQueue = w.db.vaultGcQueue)
    (fewer : ∀ r, db.Pending r → w.db.Pending r)
    (settled : ∀ r ∈ refs, w.db.Pending r → db.Pending r ∨
      w.vault.get? r = start.vault.get? r ∨ w.vault.get? r = none) :
    Unpublished start refs { w with db } where
  sound := h.sound.release metadata queue fewer
  metadata := metadata.trans h.metadata
  collectable r listed := h.collectable r (listed.imp_left fun h => queue ▸ h)
  pending r listed := h.pending r (fewer r listed)
  others := h.others
  inserted r mem := by
    rcases h.inserted r mem with same | absent | listed
    · exact .inl same
    · exact .inr (.inl absent)
    · rcases settled r mem listed with listed | same | absent
      · exact .inr (.inr listed)
      · exact .inl same
      · exact .inr (.inl absent)

theorem Unpublished.undoable : Undoable (Unpublished start refs) where
  stable _ _ collected h := h.collect collected
  delete _ _ _ h pending eq := h.delete pending eq
  abort w saga h mem absent := by
    refine h.release rfl rfl (fun _ => pending_of_removeRestoreSaga) fun r _ listed => ?_
    exact (pending_removeRestoreSaga listed mem).imp_right fun used => .inr (absent r used)
  finish w saga h mem absent := by
    refine h.release rfl rfl (fun _ => pending_of_removeOfflineImportSaga) fun r _ listed => ?_
    exact (pending_removeOfflineImportSaga listed mem).imp_right fun used => .inr (absent r used)

theorem Unpublished.kept (h : Unpublished start refs w) (sound : start.Sound)
    (unused : ∀ r ∈ refs, ¬start.db.metadata.Referenced r) {r : SecretRefId}
    (used : start.db.metadata.Referenced r) : w.vault.get? r = start.vault.get? r := by
  rcases h.others r fun mem => unused r mem used with same | ⟨-, listed | listed⟩
  · exact same
  · exact absurd used (sound.collectable r listed).1
  · exact absurd used (sound.pending r listed)

end

section

/-- The new metadata is in place: what was and still is in use has its value, and so has
everything that the plan refers to. -/
structure Published (start : World) (refs : List SecretRefId) (target : Metadata) (w : World) :
    Prop where
  sound : w.Sound
  metadata : w.db.metadata = target
  kept : ∀ r, start.db.metadata.Referenced r → target.Referenced r →
    w.vault.get? r = start.vault.get? r
  backed : ∀ r ∈ refs, target.Referenced r → (w.vault.get? r).isSome

variable {start w : World} {refs : List SecretRefId} {target : Metadata}

theorem Published.change {w' : World} (h : Published start refs target w) (sound : w'.Sound)
    (same : w'.db.metadata = w.db.metadata)
    (vault : ∀ r, target.Referenced r → w'.vault.get? r = w.vault.get? r) :
    Published start refs target w' where
  sound := sound
  metadata := same.trans h.metadata
  kept r before after := (vault r after).trans (h.kept r before after)
  backed r mem used := vault r used ▸ h.backed r mem used

theorem Published.undoable : Undoable (Published start refs target) where
  stable w w' collected h := by
    refine h.change (h.sound.collect collected) collected.metadata fun r used => ?_
    rcases collected.vault r with eq | ⟨-, listed⟩
    · exact eq
    · exact absurd (h.metadata ▸ used) (h.sound.collectable r listed).1
  delete w deleted vault h pending eq := by
    refine h.change ⟨h.sound.pending, h.sound.collectable, h.sound.deletions⟩ rfl fun r used => ?_
    change vault.get? r = _
    rw [eq r]
    refine if_neg fun mem => ?_
    exact h.sound.pending r (pending r mem) (h.metadata ▸ used)
  abort w saga h _ _ := h.change
    (h.sound.release rfl rfl fun r => pending_of_removeRestoreSaga) rfl fun _ _ => rfl
  finish w saga h _ _ := h.change
    (h.sound.release rfl rfl fun r => pending_of_removeOfflineImportSaga) rfl fun _ _ => rfl

theorem Unpublished.publish {plan : List SecretRefId} {db : Database}
    (h : Unpublished start refs w) (sound : start.Sound)
    (unused : ∀ r ∈ refs, ¬start.db.metadata.Referenced r)
    (unlisted : ∀ r ∈ refs, ¬start.Collectable r)
    (uses : ∀ r, db.metadata.Referenced r → start.db.metadata.Referenced r ∨ r ∈ plan)
    (covered : ∀ r ∈ plan, r ∈ refs ∧ (w.vault.get? r).isSome ∨
      start.db.metadata.Referenced r ∧ (start.vault.get? r).isSome)
    (pending : ∀ r, db.Pending r → w.db.Pending r ∧ r ∉ refs)
    (queue : ∀ record ∈ db.vaultGcQueue, record ∈ w.db.vaultGcQueue ∨
      ¬db.metadata.Referenced record.secretRefId ∧
        (start.db.metadata.Referenced record.secretRefId ∨ record.secretRefId ∈ plan)) :
    Published start plan db.metadata { w with db } := by
  have free : ∀ r, db.Pending r → ¬(start.db.metadata.Referenced r ∨ r ∈ plan) := by
    intro r listed used
    have before : ¬start.db.metadata.Referenced r :=
      h.metadata ▸ h.sound.pending r (pending r listed).1
    rcases used with used | mem
    · exact before used
    · rcases covered r mem with ⟨own, -⟩ | ⟨used, -⟩
      · exact (pending r listed).2 own
      · exact before used
  have old : ∀ r, w.Collectable r → ¬db.metadata.Referenced r ∧ ¬db.Pending r := by
    intro r listed
    have before := h.sound.collectable r listed
    refine ⟨fun used => ?_, fun again => before.2 (pending r again).1⟩
    rw [h.metadata] at before
    rcases uses r used with used | mem
    · exact before.1 used
    · rcases covered r mem with ⟨own, -⟩ | ⟨used, -⟩
      · exact unlisted r own (h.collectable r listed)
      · exact before.1 used
  constructor
  · constructor
    · exact fun r listed used => free r listed (uses r used)
    · rintro r (⟨record, mem, rfl⟩ | running)
      · rcases queue record mem with mem | ⟨gone, known⟩
        · exact old _ (.inl ⟨record, mem, rfl⟩)
        · exact ⟨gone, fun listed => free _ listed known⟩
      · exact old r (.inr running)
    · exact h.sound.deletions
  · rfl
  · exact fun r before _ => h.kept sound unused before
  · intro r mem _
    rcases covered r mem with ⟨-, present⟩ | ⟨used, present⟩
    · exact present
    · exact (h.kept sound unused used).symm ▸ present

def Settled (start : World) (refs plan : List SecretRefId) (publishes : Metadata → Prop)
    (w : World) : Prop :=
  Unpublished start refs w ∨ ∃ target, publishes target ∧ Published start plan target w

theorem Settled.undoable {plan : List SecretRefId} {publishes : Metadata → Prop} :
    Undoable (Settled start refs plan publishes) where
  stable w w' collected h := h.imp (Unpublished.undoable.stable w w' collected)
    fun ⟨target, ok, h⟩ => ⟨target, ok, Published.undoable.stable w w' collected h⟩
  delete w deleted vault h pending eq :=
    h.imp (fun h => Unpublished.undoable.delete w deleted vault h pending eq)
      fun ⟨target, ok, h⟩ => ⟨target, ok, Published.undoable.delete w deleted vault h pending eq⟩
  abort w saga h mem absent := h.imp (fun h => Unpublished.undoable.abort w saga h mem absent)
    fun ⟨target, ok, h⟩ => ⟨target, ok, Published.undoable.abort w saga h mem absent⟩
  finish w saga h mem absent := h.imp (fun h => Unpublished.undoable.finish w saga h mem absent)
    fun ⟨target, ok, h⟩ => ⟨target, ok, Published.undoable.finish w saga h mem absent⟩

end

section

/-- An assertion on the journals, by which every listed reference is pending. -/
structure Journal (refs : List SecretRefId) (J : World → Prop) : Prop where
  stable : Stable J
  free : ∀ (w : World) vault, J w → J { w with vault }
  pending : ∀ w, J w → ∀ r ∈ refs, w.db.Pending r

structure Begun (start : World) (refs : List SecretRefId) (J : World → Prop) (w : World) :
    Prop where
  unpublished : Unpublished start refs w
  journal : J w
  untouched : ∀ r ∈ refs, w.vault.get? r = start.vault.get? r ∨ w.vault.get? r = none

structure Inserted (start : World) (refs : List SecretRefId) (J : World → Prop)
    (inserts : List VaultSecretInsert) (w : World) : Prop where
  unpublished : Unpublished start refs w
  journal : J w
  present : ∀ secret ∈ inserts, w.vault.get? secret.secretRefId = some secret.entry

variable {start : World} {refs : List SecretRefId} {J S : World → Prop}
  {inserts : List VaultSecretInsert}

theorem Begun.stable (journal : Journal refs J) : Stable (Begun start refs J) := by
  intro w w' collected h
  refine ⟨h.unpublished.collect collected, journal.stable w w' collected h.journal, ?_⟩
  intro r mem
  rcases collected.vault r with eq | ⟨absent, -⟩
  · rw [eq]
    exact h.untouched r mem
  · exact .inr absent

theorem Inserted.stable (journal : Journal refs J) (unlisted : ∀ r ∈ refs, ¬start.Collectable r)
    (own : ∀ secret ∈ inserts, secret.secretRefId ∈ refs) :
    Stable (Inserted start refs J inserts) := by
  intro w w' collected h
  refine ⟨h.unpublished.collect collected, journal.stable w w' collected h.journal, ?_⟩
  intro secret mem
  rcases collected.vault secret.secretRefId with eq | ⟨-, listed⟩
  · rw [eq]
    exact h.present secret mem
  · exact absurd (h.unpublished.collectable _ listed) (unlisted _ (own secret mem))

theorem Begun.insert {w : World} {vault : SecretEntries} (journal : Journal refs J)
    (own : ∀ secret ∈ inserts, secret.secretRefId ∈ refs) (h : Begun start refs J w)
    (ok : insertSecrets w.vault inserts = .ok vault) :
    Inserted start refs J inserts { w with vault } := by
  obtain ⟨present, others⟩ := insertSecrets_eq_ok ok
  refine ⟨?_, journal.free w vault h.journal, present⟩
  refine ⟨⟨h.unpublished.sound.pending, h.unpublished.sound.collectable,
    h.unpublished.sound.deletions⟩, h.unpublished.metadata, h.unpublished.collectable,
    h.unpublished.pending, fun r other => ?_, fun r mem => ?_⟩
  · have outside : r ∉ inserts.map VaultSecretInsert.secretRefId := by
      intro mem
      obtain ⟨secret, inserted, rfl⟩ := List.mem_map.mp mem
      exact other (own secret inserted)
    have same : vault.get? r = w.vault.get? r := others r outside
    rw [same]
    exact h.unpublished.others r other
  · exact .inr (.inr (journal.pending w h.journal r mem))

theorem insertRestoreSecrets_meets (journal : Journal refs J)
    (own : ∀ secret ∈ inserts, secret.secretRefId ∈ refs)
    (stops : ∀ w, Unpublished start refs w → S w) {code : String} {giveUp : Operation Unit}
    (gives : Meets perform (Begun start refs J) giveUp (fun _ => S) S) :
    Meets perform (Begun start refs J) (insertRestoreSecrets code inserts giveUp)
      (fun _ => Inserted start refs J inserts) S := by
  unfold insertRestoreSecrets
  split
  · next empty =>
    refine Meets.pure fun w h => ⟨h.unpublished, h.journal, ?_⟩
    rw [empty]
    exact fun _ mem => absurd mem List.not_mem_nil
  · apply Meets.bind (tryInsertSecrets_meets (Begun.stable journal)
      (fun w h => stops w h.unpublished) fun w vault h => h.insert journal own)
    intro answer
    cases answer with
    | ok value => exact Meets.pure fun _ h => h
    | error e =>
      dsimp only
      split
      · next absent =>
        refine Meets.bind (Meets.weaken gives (fun w h => ?_) fun _ _ h => h)
          fun _ => Meets.throw fun _ h => h
        exact h.resolve_right fun ⟨unclear, _⟩ => by simp [absent] at unclear
      · exact Meets.throw fun w h =>
          stops w (h.elim (fun begun => begun.unpublished) fun h => h.2.unpublished)

end

end NoriShell.Restore

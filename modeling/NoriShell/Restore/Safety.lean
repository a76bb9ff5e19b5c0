import NoriShell.Restore.Adapter
import NoriShell.Restore.DeltaLaws

/-! What a collection step can do, what undoing keeps, and the rules for the calls. -/

namespace NoriShell.Restore

open Collections Vault Program

def Database.Pending (db : Database) (r : SecretRefId) : Prop :=
  (∃ saga ∈ db.restoreSagas.toList, r ∈ saga.2.secretRefIds) ∨
    ∃ saga ∈ db.offlineImportSagas.toList, r ∈ saga.2.secretRefIds

namespace World

def Collectable (w : World) (r : SecretRefId) : Prop :=
  (∃ record ∈ w.db.vaultGcQueue, record.secretRefId = r) ∨
    ∃ collection ∈ w.collections, r ∈ collection.refs

structure Sound (w : World) : Prop where
  pending : ∀ r, w.db.Pending r → ¬w.db.metadata.Referenced r
  collectable : ∀ r, w.Collectable r → ¬w.db.metadata.Referenced r ∧ ¬w.db.Pending r
  deletions : ∀ deletion ∈ w.deletions, ∀ r ∈ deletion.1,
    ¬deletion.2.metadata.Referenced r ∧ ¬deletion.2.Pending r

end World

section

structure Collected (w w' : World) : Prop where
  metadata : w'.db.metadata = w.db.metadata
  restoreSagas : w'.db.restoreSagas = w.db.restoreSagas
  offlineImportSagas : w'.db.offlineImportSagas = w.db.offlineImportSagas
  collectable : ∀ r, w'.Collectable r → w.Collectable r
  vault : ∀ r, w'.vault.get? r = w.vault.get? r ∨ w'.vault.get? r = none ∧ w.Collectable r
  deletions : ∀ deletion ∈ w'.deletions, deletion ∈ w.deletions ∨
    deletion.2 = w.db ∧ ∀ r ∈ deletion.1, w.Collectable r

variable {w w' : World}

theorem Collected.refl : Collected w w where
  metadata := rfl
  restoreSagas := rfl
  offlineImportSagas := rfl
  collectable _ := id
  vault _ := .inl rfl
  deletions _ := .inl

theorem Collected.pending (h : Collected w w') (r : SecretRefId) :
    w'.db.Pending r ↔ w.db.Pending r := by
  unfold Database.Pending
  rw [h.restoreSagas, h.offlineImportSagas]

theorem Collected.proceed (h : Collected w w') {index : Nat} {outcome : Outcome}
    {next : Collection} (refs : ∀ r ∈ next.refs, w.Collectable r) :
    Collected w (w'.proceed index outcome next) where
  metadata := h.metadata
  restoreSagas := h.restoreSagas
  offlineImportSagas := h.offlineImportSagas
  vault := h.vault
  deletions := h.deletions
  collectable r listed := by
    rcases listed with queued | ⟨collection, mem, listed⟩
    · exact h.collectable r (.inl queued)
    · unfold World.proceed at mem
      split at mem
      · rcases List.mem_or_eq_of_mem_set mem with mem | rfl
        · exact h.collectable r (.inr ⟨collection, mem, listed⟩)
        · exact refs r listed
      · exact h.collectable r (.inr ⟨collection, List.mem_of_mem_eraseIdx mem, listed⟩)

theorem listCollection_collected (w : World) (owner : ProfileKey) :
    Collected w (listCollection w owner) where
  metadata := rfl
  restoreSagas := rfl
  offlineImportSagas := rfl
  vault _ := .inl rfl
  deletions _ := .inl
  collectable r listed := by
    rcases listed with queued | ⟨collection, mem, listed⟩
    · exact .inl queued
    · rcases List.mem_append.mp mem with mem | mem
      · exact .inr ⟨collection, mem, listed⟩
      · cases List.mem_singleton.mp mem
        obtain ⟨record, mem, eq⟩ := List.mem_map.mp listed
        exact .inl ⟨record, List.mem_of_mem_filter mem, eq⟩

theorem deleteCollected_collected {collection : Collection} (mem : collection ∈ w.collections)
    (index : Nat) (outcome : Outcome) :
    Collected w (deleteCollected w index outcome collection) := by
  have listed : ∀ r ∈ collection.refs, w.Collectable r := fun r used => .inr ⟨_, mem, used⟩
  have later : ∀ r ∈ collection.refs.drop maxSecretBatchEntries, w.Collectable r :=
    fun r used => listed r (List.mem_of_mem_drop used)
  simp only [deleteCollected]
  split
  · exact Collected.refl.proceed later
  · next vault eq =>
    split
    · apply Collected.proceed _ later
      refine ⟨rfl, rfl, rfl, fun _ => id, fun r => ?_, fun deletion mem => ?_⟩
      · rw [deleteSecrets_eq_ok eq]
        split
        · next used => exact .inr ⟨rfl, listed r (List.mem_of_mem_take used)⟩
        · exact .inl rfl
      · rcases List.mem_append.mp mem with mem | mem
        · exact .inl mem
        · cases List.mem_singleton.mp mem
          exact .inr ⟨rfl, fun r used => listed r (List.mem_of_mem_take used)⟩
    · exact Collected.refl.proceed later

theorem acknowledgeCollected_collected {collection : Collection}
    (mem : collection ∈ w.collections) (index : Nat) (outcome : Outcome) :
    Collected w (acknowledgeCollected w index outcome collection) := by
  have listed : ∀ r ∈ collection.refs, w.Collectable r := fun r used => .inr ⟨_, mem, used⟩
  simp only [acknowledgeCollected]
  split
  · refine Collected.proceed ?_ listed
    refine ⟨rfl, rfl, rfl, fun r used => ?_, fun _ => .inl rfl, fun _ => .inl⟩
    exact used.imp_left fun ⟨record, mem, eq⟩ => ⟨record, List.mem_of_mem_filter mem, eq⟩
  · exact Collected.refl.proceed listed

theorem World.collect_collected (w : World) (step : CollectorStep) :
    Collected w (w.collect step) := by
  cases step with
  | list owner => exact listCollection_collected w owner
  | delete index outcome =>
    simp only [World.collect]
    split
    · next found =>
      split
      · exact deleteCollected_collected (List.mem_of_getElem? found) index outcome
      · exact .refl
    · exact .refl
  | acknowledge index outcome =>
    simp only [World.collect]
    split
    · next found =>
      split
      · exact acknowledgeCollected_collected (List.mem_of_getElem? found) index outcome
      · exact .refl
    · exact .refl

theorem World.Sound.collect (sound : w.Sound) (h : Collected w w') : w'.Sound where
  pending r listed := by
    rw [h.metadata]
    exact sound.pending r ((h.pending r).mp listed)
  collectable r listed := by
    rw [h.metadata, h.pending r]
    exact sound.collectable r (h.collectable r listed)
  deletions deletion mem r used := by
    rcases h.deletions deletion mem with mem | ⟨eq, listed⟩
    · exact sound.deletions deletion mem r used
    · rw [eq]
      exact sound.collectable r (listed r used)

end

section

variable {P E S : World → Prop}

/-- Collections that run beside an operation do not disturb the assertion. -/
def Stable (P : World → Prop) : Prop :=
  ∀ w w', Collected w w' → P w → P w'

theorem Stable.interference (stable : Stable P) {w : World} (h : P w)
    (steps : List CollectorStep) : P (steps.foldl World.collect w) := by
  induction steps generalizing w with
  | nil => exact h
  | cons step steps ih => exact ih (stable w _ (w.collect_collected step) h)

theorem tryDatabase_meets {α : Type} {transaction : Transaction α} {Q : α → World → Prop}
    (stable : Stable P) (before : ∀ w, P w → S w) (refused : ∀ w, P w → E w)
    (lost : ∀ value w, Q value w → E w)
    (effect : ∀ w value db, P w → transaction w.db = .ok (value, db) → Q value { w with db }) :
    Meets perform P (Operation.tryDatabase transaction)
      (fun answer w => match answer with
        | .ok value => Q value w
        | .error _ => E w) S := by
  refine Meets.ask before fun w turn h => ?_
  have here : P (turn.interference.foldl World.collect w) := stable.interference h _
  simp only [perform, execute, performDatabase]
  cases result : transaction (turn.interference.foldl World.collect w).db with
  | error e => exact refused _ here
  | ok answer =>
    obtain ⟨value, db⟩ := answer
    have after := effect _ value db here result
    cases turn.outcome with
    | done => exact after
    | failed => exact refused _ here
    | lost => exact lost _ _ after
    | unknown applied =>
      cases applied with
      | true => exact lost _ _ after
      | false => exact refused _ here

theorem tryDatabase_settles {α : Type} {transaction : Transaction α} (stable : Stable P)
    (before : ∀ w, P w → S w)
    (effect : ∀ w value db, P w → transaction w.db = .ok (value, db) → S { w with db }) :
    Meets perform P (Operation.tryDatabase transaction) (fun _ => S) S := by
  refine Meets.weaken (tryDatabase_meets stable before before (fun _ _ h => h) effect)
    (fun _ h => h) fun answer w h => ?_
  cases answer with
  | ok value => exact h
  | error e => exact h

theorem database_meets {α : Type} {stage : String} {transaction : Transaction α}
    {Q : α → World → Prop} (stable : Stable P) (before : ∀ w, P w → S w)
    (lost : ∀ value w, Q value w → S w)
    (effect : ∀ w value db, P w → transaction w.db = .ok (value, db) → Q value { w with db }) :
    Meets perform P (Operation.database stage transaction) Q S := by
  apply Meets.bind (tryDatabase_meets stable before before lost effect)
  intro answer
  cases answer with
  | ok value => exact Meets.pure fun _ h => h
  | error e => exact Meets.throw fun _ h => h

theorem performVault_cases (w : World)
    (change : SecretEntries → Except VaultServiceError SecretEntries) (outcome : Outcome) :
    (∃ vault, change w.vault = .ok vault ∧
        performVault w change outcome = (.ok (), { w with vault })) ∨
      ∃ e, performVault w change outcome = (.error e, w) ∨
        e.secretInsertDefinitelyAbsent = false ∧ ∃ vault, change w.vault = .ok vault ∧
          performVault w change outcome = (.error e, { w with vault }) := by
  unfold performVault
  cases change w.vault with
  | error e => exact .inr ⟨e, .inl rfl⟩
  | ok vault =>
    cases outcome with
    | done => exact .inl ⟨vault, rfl, rfl⟩
    | failed => exact .inr ⟨.notUnlocked, .inl rfl⟩
    | lost => exact .inr ⟨.vault .commitStateUnknown, .inr ⟨rfl, vault, rfl, rfl⟩⟩
    | unknown applied =>
      cases applied with
      | true => exact .inr ⟨.vault .commitStateUnknown, .inr ⟨rfl, vault, rfl, rfl⟩⟩
      | false => exact .inr ⟨.vault .commitStateUnknown, .inl rfl⟩

theorem tryInsertSecrets_meets {secrets : List VaultSecretInsert} {Q : World → Prop}
    (stable : Stable P) (before : ∀ w, P w → S w)
    (effect : ∀ w vault, P w → insertSecrets w.vault secrets = .ok vault → Q { w with vault }) :
    Meets perform P (Operation.tryInsertSecrets secrets)
      (fun answer w => match answer with
        | .ok () => Q w
        | .error e => P w ∨ e.secretInsertDefinitelyAbsent = false ∧ Q w) S := by
  refine Meets.ask before fun w turn h => ?_
  have here : P (turn.interference.foldl World.collect w) := stable.interference h _
  simp only [perform, execute]
  rcases performVault_cases (turn.interference.foldl World.collect w) (insertSecrets · secrets)
    turn.outcome with ⟨vault, ok, eq⟩ | ⟨e, eq | ⟨unclear, vault, ok, eq⟩⟩
  · rw [eq]
    exact effect _ vault here ok
  · rw [eq]
    exact .inl here
  · rw [eq]
    exact .inr ⟨unclear, effect _ vault here ok⟩

theorem deleteSecrets_meets {code : String} {refs : List SecretRefId} {Q : World → Prop}
    (stable : Stable P) (before : ∀ w, P w → S w) (lost : ∀ w, Q w → S w)
    (effect : ∀ w vault, P w →
      (∀ r, vault.get? r = if r ∈ refs then none else w.vault.get? r) → Q { w with vault }) :
    Meets perform P (Operation.deleteSecrets code refs) (fun _ => Q) S := by
  have ask : Meets perform P
      (liftM (Program.ask (.deleteSecrets refs) : Program Call Answer _) :
        Operation (Except VaultServiceError Unit))
      (fun answer w => match answer with
        | .ok () => Q w
        | .error _ => S w) S := by
    refine Meets.ask before fun w turn h => ?_
    have here : P (turn.interference.foldl World.collect w) := stable.interference h _
    simp only [perform, execute]
    rcases performVault_cases (turn.interference.foldl World.collect w) (deleteSecrets · refs)
      turn.outcome with ⟨vault, ok, eq⟩ | ⟨e, eq | ⟨-, vault, ok, eq⟩⟩
    · rw [eq]
      exact effect _ vault here (deleteSecrets_eq_ok ok)
    · rw [eq]
      exact before _ here
    · rw [eq]
      exact lost _ (effect _ vault here (deleteSecrets_eq_ok ok))
  apply Meets.bind ask
  intro answer
  cases answer with
  | ok value => exact Meets.pure fun _ h => h
  | error e => exact Meets.throw fun _ h => h

theorem consult_meets {question : Question} (stable : Stable P) (before : ∀ w, P w → S w) :
    Meets perform P (Operation.consult question) (fun _ => P) S :=
  Meets.ask before fun _ _ h => stable.interference h _

theorem collect_meets {owner : ProfileKey} (stable : Stable P) (before : ∀ w, P w → S w) :
    Meets perform P (Operation.collect owner) (fun _ => P) S := by
  refine Meets.ask before fun w turn h => ?_
  have here : P (turn.interference.foldl World.collect w) := stable.interference h _
  simp only [perform, execute]
  split
  · exact stable _ _ (World.collect_collected _ _) here
  · exact here

end

end NoriShell.Restore

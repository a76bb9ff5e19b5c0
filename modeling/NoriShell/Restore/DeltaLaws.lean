import NoriShell.Restore.ApplyDelta

/-! Which secrets the metadata uses after a publication or an owned delta. -/

namespace NoriShell.Restore

open Collections Vault

namespace Metadata

def Referenced (m : Metadata) (r : SecretRefId) : Prop :=
  m.secretRefIsReferenced r

instance (m : Metadata) (r : SecretRefId) : Decidable (m.Referenced r) :=
  inferInstanceAs (Decidable (m.secretRefIsReferenced r = true))

structure UsesOnly (allowed : SecretRefId → Prop) (m : Metadata) : Prop where
  credentials : ∀ row ∈ m.credentials, ∀ r ∈ row.details.secretRefs, allowed r
  hosts : ∀ row ∈ m.hosts, ∀ r ∈ row.loginAutomation.secretRefs, allowed r
  mappings : ∀ row ∈ m.mappings, ∀ r, row.localObjectId = .secret r → allowed r

theorem usesOnly_iff {allowed : SecretRefId → Prop} {m : Metadata} :
    m.UsesOnly allowed ↔ ∀ r, m.Referenced r → allowed r := by
  simp only [Referenced, secretRefIsReferenced, secretRefIsUsedByLocalMetadata, Bool.or_eq_true,
    List.any_eq_true, decide_eq_true_eq]
  constructor
  · rintro h r ((⟨row, mem, used⟩ | ⟨row, mem, used⟩) | ⟨row, mem, used⟩)
    · exact h.credentials row mem r used
    · exact h.hosts row mem r used
    · exact h.mappings row mem r used
  · intro h
    constructor
    · exact fun row mem r used => h r (.inl (.inl ⟨row, mem, used⟩))
    · exact fun row mem r used => h r (.inl (.inr ⟨row, mem, used⟩))
    · exact fun row mem r used => h r (.inr ⟨row, mem, used⟩)

end Metadata

section

variable {α : Type} {rows rows' : List α} {here : α → Bool}

theorem mem_of_updateRow {change : α → α} (h : updateRow rows here change = .ok rows') {row : α}
    (mem : row ∈ rows') : row ∈ rows ∨ ∃ old ∈ rows, row = change old := by
  unfold updateRow at h
  split at h
  · cases h
    obtain ⟨old, old_mem, rfl⟩ := List.mem_map.mp mem
    split
    · exact .inr ⟨old, old_mem, rfl⟩
    · exact .inl old_mem
  · cases h

theorem exists_of_updateRow {change : α → α} (h : updateRow rows here change = .ok rows') :
    ∃ row ∈ rows, here row := by
  unfold updateRow at h
  split at h
  · next one => exact List.countP_pos_iff.mp (one ▸ Nat.one_pos)
  · cases h

theorem exists_of_deleteRow (h : deleteRow rows here = .ok rows') : ∃ row ∈ rows, here row := by
  unfold deleteRow at h
  split at h
  · next one => exact List.countP_pos_iff.mp (one ▸ Nat.one_pos)
  · cases h

theorem mem_of_deleteRow (h : deleteRow rows here = .ok rows') {row : α} (mem : row ∈ rows') :
    row ∈ rows := by
  unfold deleteRow at h
  split at h
  · cases h
    exact List.mem_of_mem_filter mem
  · cases h

end

section

variable {allowed : SecretRefId → Prop} {m : Metadata}

theorem publish_keeps {α : Type} {disposition : Metadata → α → RestoreObjectDisposition}
    {create : Metadata → α → Metadata} {inputs : List α} {P : Metadata → Prop}
    (step : ∀ m, ∀ input ∈ inputs, P m → P (create m input)) (h : P m) :
    P (publish disposition create m inputs) := by
  unfold publish
  induction inputs generalizing m with
  | nil => exact h
  | cons input inputs ih =>
    rw [List.foldl_cons]
    apply ih (fun m other mem => step m other (List.mem_cons_of_mem _ mem))
    split
    · exact step m input List.mem_cons_self h
    · exact h

theorem insertRestoreCredential_usesOnly {input : RestoreCredentialInput}
    (h : m.UsesOnly allowed) (refs : ∀ r ∈ input.material.secretRefs, allowed r) :
    (insertRestoreCredential m input).UsesOnly allowed := by
  refine ⟨fun row mem r used => ?_, h.hosts, h.mappings⟩
  rcases List.mem_append.mp mem with mem | mem
  · exact h.credentials row mem r used
  · cases List.mem_singleton.mp mem
    exact refs r used

theorem insertRestoreHost_usesOnly {input : RestoreHostInput} (h : m.UsesOnly allowed)
    (refs : ∀ r ∈ input.loginAutomation.secretRefs, allowed r) :
    (insertRestoreHost m input).UsesOnly allowed := by
  refine ⟨h.credentials, fun row mem r used => ?_, h.mappings⟩
  rcases List.mem_append.mp mem with mem | mem
  · exact h.hosts row mem r used
  · cases List.mem_singleton.mp mem
    exact refs r used

theorem publishRestorePlan_usesOnly {plan : RestorePlan} (h : m.UsesOnly allowed)
    (refs : ∀ r ∈ plan.secretRefs, allowed r) :
    (publishRestorePlan m plan).UsesOnly allowed := by
  apply publish_keeps fun _ _ _ h => ⟨h.credentials, h.hosts, h.mappings⟩
  apply publish_keeps fun _ input mem h => insertRestoreHost_usesOnly h fun r used => ?_
  · apply publish_keeps fun _ input mem h => insertRestoreCredential_usesOnly h fun r used => ?_
    · exact publish_keeps (fun _ _ _ h => ⟨h.credentials, h.hosts, h.mappings⟩) h
    · exact refs r (List.mem_append_left _ (List.mem_flatMap.mpr ⟨input, mem, used⟩))
  · exact refs r (List.mem_append_right _ (List.mem_flatMap.mpr ⟨input, mem, used⟩))

end

section

variable {allowed : SecretRefId → Prop} {m m' : Metadata} {owner : ProfileKey}
  {given : List SecretRefId}

theorem applyOwnedIdentityUpdate_usesOnly {update : OwnedIdentityUpdate}
    (ok : applyOwnedIdentityUpdate m update = .ok m') (h : m.UsesOnly allowed) :
    m'.UsesOnly allowed := by
  obtain ⟨identities, -, eq⟩ := Check.bind_eq_ok.mp ok
  cases eq
  exact ⟨h.credentials, h.hosts, h.mappings⟩

theorem applyOwnedDesktopProfileUpdate_usesOnly {update : OwnedDesktopProfileUpdate}
    (ok : applyOwnedDesktopProfileUpdate m update = .ok m') (h : m.UsesOnly allowed) :
    m'.UsesOnly allowed := by
  simp only [applyOwnedDesktopProfileUpdate, Check.bind_eq_ok] at ok
  obtain ⟨-, -, profiles, -, eq⟩ := ok
  cases eq
  exact ⟨h.credentials, h.hosts, h.mappings⟩

theorem getCredentialRecord_mem {id : Uuid} {record : CredentialRecord}
    (ok : getCredentialRecord m id = .ok record) : record ∈ m.credentials := by
  unfold getCredentialRecord at ok
  split at ok
  · next found =>
    cases ok
    exact List.mem_of_find?_eq_some found
  · cases ok

theorem applyOwnedCredentialUpdate_usesOnly {update : OwnedCredentialUpdate}
    (ok : applyOwnedCredentialUpdate m update = .ok (given, m')) (h : m.UsesOnly allowed)
    (refs : ∀ r ∈ update.material.secretRefs, allowed r) :
    m'.UsesOnly allowed ∧ ∀ r ∈ given, allowed r := by
  simp only [applyOwnedCredentialUpdate, Check.bind_eq_ok] at ok
  obtain ⟨existing, found, -, -, -, -, credentials, updated, eq⟩ := ok
  cases eq
  refine ⟨⟨fun row mem r used => ?_, h.hosts, h.mappings⟩, fun r mem => ?_⟩
  · rcases mem_of_updateRow updated mem with old | ⟨old, -, rfl⟩
    · exact h.credentials row old r used
    · exact refs r used
  · exact h.credentials existing (getCredentialRecord_mem found) r (List.mem_of_mem_filter mem)

theorem applyOwnedHostUpdate_usesOnly {update : OwnedHostUpdate}
    (ok : applyOwnedHostUpdate m update = .ok (given, m')) (h : m.UsesOnly allowed)
    (refs : ∀ r ∈ update.loginAutomation.secretRefs, allowed r) :
    m'.UsesOnly allowed ∧ ∀ r ∈ given, allowed r := by
  simp only [applyOwnedHostUpdate, Check.bind_eq_ok] at ok
  obtain ⟨-, -, -, -, hosts, updated, eq⟩ := ok
  cases eq
  refine ⟨⟨h.credentials, fun row mem r used => ?_, h.mappings⟩, fun r mem => ?_⟩
  · rcases mem_of_updateRow updated mem with old | ⟨old, -, rfl⟩
    · exact h.hosts row old r used
    · exact refs r used
  · obtain ⟨host, found, used⟩ := List.mem_flatMap.mp mem
    exact h.hosts host (List.mem_of_mem_filter found) r used

theorem applyOwnedSecretReplacement_usesOnly {replacement : OwnedSecretReplacement}
    (ok : applyOwnedSecretReplacement m owner replacement = .ok m') (h : m.UsesOnly allowed)
    (new : allowed replacement.newSecretRefId) :
    m'.UsesOnly allowed ∧ allowed replacement.expectedSecretRefId := by
  obtain ⟨mappings, updated, eq⟩ := Check.bind_eq_ok.mp ok
  cases eq
  refine ⟨⟨h.credentials, h.hosts, fun row mem r used => ?_⟩, ?_⟩
  · rcases mem_of_updateRow updated mem with old | ⟨old, -, rfl⟩
    · exact h.mappings row old r used
    · cases used
      exact new
  · obtain ⟨row, mem, eq⟩ := exists_of_updateRow updated
    cases of_decide_eq_true eq
    exact h.mappings _ mem _ rfl

theorem deleteOwnedMapping_usesOnly {portableObjectId : Uuid} {localObjectId : LocalObjectId}
    (ok : deleteOwnedMapping m owner portableObjectId localObjectId = .ok m')
    (h : m.UsesOnly allowed) : m'.UsesOnly allowed := by
  obtain ⟨mappings, deleted, eq⟩ := Check.bind_eq_ok.mp ok
  cases eq
  exact ⟨h.credentials, h.hosts, fun row mem => h.mappings row (mem_of_deleteRow deleted mem)⟩

theorem deleteOwnedDesktopProfile_usesOnly {delete : OwnedDesktopProfileDelete}
    (ok : deleteOwnedDesktopProfile m owner delete = .ok m') (h : m.UsesOnly allowed) :
    m'.UsesOnly allowed := by
  obtain ⟨profiles, -, mapping⟩ := Check.bind_eq_ok.mp ok
  exact deleteOwnedMapping_usesOnly mapping ⟨h.credentials, h.hosts, h.mappings⟩

theorem deleteOwnedHost_usesOnly {delete : OwnedHostDelete}
    (ok : deleteOwnedHost m owner delete = .ok m') (h : m.UsesOnly allowed) :
    m'.UsesOnly allowed := by
  obtain ⟨hosts, deleted, mapping⟩ := Check.bind_eq_ok.mp ok
  apply deleteOwnedMapping_usesOnly mapping
  exact ⟨h.credentials, fun row mem => h.hosts row (mem_of_deleteRow deleted mem), h.mappings⟩

theorem deleteOwnedHosts_usesOnly {fuel : Nat} {deletes : List OwnedHostDelete}
    (ok : deleteOwnedHosts owner fuel m deletes = .ok m') (h : m.UsesOnly allowed) :
    m'.UsesOnly allowed := by
  induction fuel generalizing m deletes with
  | zero =>
    cases ok
    exact h
  | succ fuel ih =>
    obtain ⟨⟨next, others⟩, -, ok⟩ := Check.bind_eq_ok.mp ok
    obtain ⟨_, deleted, rest⟩ := Check.bind_eq_ok.mp ok
    exact ih rest (deleteOwnedHost_usesOnly deleted h)

theorem deleteOwnedCredential_usesOnly {delete : OwnedCredentialDelete}
    (ok : deleteOwnedCredential m owner delete = .ok (given, m')) (h : m.UsesOnly allowed) :
    m'.UsesOnly allowed ∧ ∀ r ∈ given, allowed r := by
  simp only [deleteOwnedCredential, Check.bind_eq_ok] at ok
  obtain ⟨-, -, record, found, credentials, deleted, next, mapping, eq⟩ := ok
  cases eq
  refine ⟨deleteOwnedMapping_usesOnly mapping ?_, ?_⟩
  · exact ⟨fun row mem => h.credentials row (mem_of_deleteRow deleted mem), h.hosts, h.mappings⟩
  · exact h.credentials record (getCredentialRecord_mem found)

theorem deleteOwnedIdentity_usesOnly {delete : OwnedIdentityDelete}
    (ok : deleteOwnedIdentity m owner delete = .ok m') (h : m.UsesOnly allowed) :
    m'.UsesOnly allowed := by
  simp only [deleteOwnedIdentity, Check.bind_eq_ok] at ok
  obtain ⟨-, -, identities, -, mapping⟩ := ok
  exact deleteOwnedMapping_usesOnly mapping ⟨h.credentials, h.hosts, h.mappings⟩

theorem deleteOwnedSecretMapping_usesOnly {delete : OwnedSecretDelete}
    (ok : deleteOwnedSecretMapping m owner delete = .ok m') (h : m.UsesOnly allowed) :
    m'.UsesOnly allowed ∧ allowed delete.secretRefId := by
  simp only [deleteOwnedSecretMapping, Check.bind_unit_eq_ok] at ok
  refine ⟨deleteOwnedMapping_usesOnly ok.2 h, ?_⟩
  obtain ⟨mappings, deleted, -⟩ := Check.bind_eq_ok.mp ok.2
  obtain ⟨row, mem, eq⟩ := exists_of_deleteRow deleted
  cases of_decide_eq_true eq
  exact h.mappings _ mem _ rfl

theorem applyOwnedCreateMappings_usesOnly {inputs : List ObjectMappingInput}
    (h : m.UsesOnly allowed)
    (refs : ∀ input ∈ inputs, ∀ r, input.localObjectId = .secret r → allowed r) :
    (applyOwnedCreateMappings m owner inputs).UsesOnly allowed := by
  unfold applyOwnedCreateMappings
  induction inputs generalizing m with
  | nil => exact h
  | cons input inputs ih =>
    rw [List.foldl_cons]
    apply ih _ fun other mem => refs other (List.mem_cons_of_mem _ mem)
    split
    · refine ⟨h.credentials, h.hosts, fun row mem r used => ?_⟩
      rcases List.mem_append.mp mem with mem | mem
      · exact h.mappings row mem r used
      · cases List.mem_singleton.mp mem
        exact refs input List.mem_cons_self r used
    · exact h

end

section

variable {allowed : SecretRefId → Prop} {owner : ProfileKey} {delta : OwnedMetadataDelta}
  {change change' : Change}

structure Change.Within (allowed : SecretRefId → Prop) (change : Change) : Prop where
  metadata : change.1.UsesOnly allowed
  candidates : ∀ candidate ∈ change.2.toList, allowed candidate.1

theorem Change.Within.then {step : Metadata → Except PersistenceError Metadata}
    (h : change.Within allowed) (ok : change.then step = .ok change')
    (keeps : ∀ m m', step m = .ok m' → m.UsesOnly allowed → m'.UsesOnly allowed) :
    change'.Within allowed := by
  obtain ⟨m', stepped, eq⟩ := Check.bind_eq_ok.mp ok
  cases eq
  exact ⟨keeps change.1 m' stepped h.metadata, h.candidates⟩

theorem Change.Within.giveUp {reason : VaultGcReason}
    {step : Metadata → Except PersistenceError (List SecretRefId × Metadata)}
    (h : change.Within allowed) (ok : change.giveUp reason step = .ok change')
    (keeps : ∀ m given m', step m = .ok (given, m') → m.UsesOnly allowed →
      m'.UsesOnly allowed ∧ ∀ r ∈ given, allowed r) :
    change'.Within allowed := by
  obtain ⟨⟨given, m'⟩, stepped, eq⟩ := Check.bind_eq_ok.mp ok
  cases eq
  obtain ⟨uses, refs⟩ := keeps change.1 given m' stepped h.metadata
  refine ⟨uses, fun ⟨r, reason⟩ mem => ?_⟩
  rw [BTreeMap.mem_toList, BTreeMap.get?_extend_const] at mem
  by_cases new : r ∈ given
  · exact refs r new
  · rw [if_neg new] at mem
    exact h.candidates (r, reason) (BTreeMap.mem_toList.mpr mem)

def OwnedMetadataDelta.secretRefs (delta : OwnedMetadataDelta) : List SecretRefId :=
  delta.creates.toList.flatMap (fun batch => batch.plan.secretRefs ++
      batch.mappings.filterMap (·.localObjectId.secretRef?)) ++
    delta.updatedSecretRefs ++ delta.secretReplacements.map (·.newSecretRefId)

theorem mem_secretRefs_of_creates {batch : OwnedCreateBatch} (creates : delta.creates = some batch)
    {r : SecretRefId} (mem : r ∈ batch.plan.secretRefs ∨
      ∃ input ∈ batch.mappings, input.localObjectId = .secret r) : r ∈ delta.secretRefs := by
  apply List.mem_append_left
  apply List.mem_append_left
  rw [creates, Option.toList_some, List.flatMap_singleton, List.mem_append]
  apply mem.imp_right
  rintro ⟨input, mem, eq⟩
  exact List.mem_filterMap.mpr ⟨input, mem, by rw [eq]; rfl⟩

theorem mem_secretRefs_of_credential {update : OwnedCredentialUpdate}
    (mem : update ∈ delta.credentialUpdates) {r : SecretRefId}
    (used : r ∈ update.material.secretRefs) : r ∈ delta.secretRefs := by
  apply List.mem_append_left
  apply List.mem_append_right
  exact List.mem_append_left _ (List.mem_flatMap.mpr ⟨update, mem, used⟩)

theorem mem_secretRefs_of_host {update : OwnedHostUpdate} (mem : update ∈ delta.hostUpdates)
    {r : SecretRefId} (used : r ∈ update.loginAutomation.secretRefs) : r ∈ delta.secretRefs := by
  apply List.mem_append_left
  apply List.mem_append_right
  exact List.mem_append_right _ (List.mem_flatMap.mpr ⟨update, mem, used⟩)

theorem mem_secretRefs_of_replacement {replacement : OwnedSecretReplacement}
    (mem : replacement ∈ delta.secretReplacements) :
    replacement.newSecretRefId ∈ delta.secretRefs :=
  List.mem_append_right _ (List.mem_map.mpr ⟨replacement, mem, rfl⟩)

theorem applyOwnedCreates_usesOnly {m : Metadata} (h : m.UsesOnly allowed)
    (refs : ∀ r ∈ delta.secretRefs, allowed r) :
    (applyOwnedCreates owner m delta.creates).UsesOnly allowed := by
  cases creates : delta.creates with
  | none => exact h
  | some batch =>
    apply applyOwnedCreateMappings_usesOnly
    · apply publishRestorePlan_usesOnly h
      exact fun r mem => refs r (mem_secretRefs_of_creates creates (.inl mem))
    · exact fun input mem r eq =>
        refs r (mem_secretRefs_of_creates creates (.inr ⟨input, mem, eq⟩))

theorem Change.Within.applyOwnedUpdates (h : change.Within allowed)
    (ok : applyOwnedUpdates owner delta change = .ok change')
    (refs : ∀ r ∈ delta.secretRefs, allowed r) : change'.Within allowed := by
  simp only [Restore.applyOwnedUpdates, Check.bind_eq_ok] at ok
  obtain ⟨_, desktops, _, identities, _, credentials, _, hosts, secrets⟩ := ok
  replace h := Check.foldlM_keeps (P := Change.Within allowed) (fun _ _ _ _ ok h =>
    h.then ok fun _ _ => applyOwnedDesktopProfileUpdate_usesOnly) desktops h
  replace h := Check.foldlM_keeps (P := Change.Within allowed) (fun _ _ _ _ ok h =>
    h.then ok fun _ _ => applyOwnedIdentityUpdate_usesOnly) identities h
  replace h := Check.foldlM_keeps (P := Change.Within allowed) (fun _ _ _ mem ok h =>
    h.giveUp ok fun _ _ _ ok h => applyOwnedCredentialUpdate_usesOnly ok h
      fun r used => refs r (mem_secretRefs_of_credential mem used)) credentials h
  replace h := Check.foldlM_keeps (P := Change.Within allowed) (fun _ _ _ mem ok h =>
    h.giveUp ok fun _ _ _ ok h => applyOwnedHostUpdate_usesOnly ok h
      fun r used => refs r (mem_secretRefs_of_host mem used)) hosts h
  refine Check.foldlM_keeps (P := Change.Within allowed) (fun _ _ _ mem ok h =>
    h.giveUp ok fun _ _ _ ok uses => ?_) secrets h
  obtain ⟨_, replaced, eq⟩ := Check.bind_eq_ok.mp ok
  cases eq
  have step := applyOwnedSecretReplacement_usesOnly replaced uses
    (refs _ (mem_secretRefs_of_replacement mem))
  exact ⟨step.1, fun r given => List.mem_singleton.mp given ▸ step.2⟩

theorem Change.Within.applyOwnedDeletes (h : change.Within allowed)
    (ok : applyOwnedDeletes owner delta change = .ok change') : change'.Within allowed := by
  simp only [Restore.applyOwnedDeletes, Check.bind_eq_ok] at ok
  obtain ⟨_, desktops, _, hosts, _, credentials, _, identities, secrets⟩ := ok
  replace h := Check.foldlM_keeps (P := Change.Within allowed) (fun _ _ _ _ ok h =>
    h.then ok fun _ _ => deleteOwnedDesktopProfile_usesOnly) desktops h
  replace h := h.then hosts fun _ _ => deleteOwnedHosts_usesOnly
  replace h := Check.foldlM_keeps (P := Change.Within allowed) (fun _ _ _ _ ok h =>
    h.giveUp ok fun _ _ _ => deleteOwnedCredential_usesOnly) credentials h
  replace h := Check.foldlM_keeps (P := Change.Within allowed) (fun _ _ _ _ ok h =>
    h.then ok fun _ _ => deleteOwnedIdentity_usesOnly) identities h
  refine Check.foldlM_keeps (P := Change.Within allowed) (fun _ _ _ _ ok h =>
    h.giveUp ok fun _ _ _ ok uses => ?_) secrets h
  obtain ⟨_, deleted, eq⟩ := Check.bind_eq_ok.mp ok
  cases eq
  have step := deleteOwnedSecretMapping_usesOnly deleted uses
  exact ⟨step.1, fun r given => List.mem_singleton.mp given ▸ step.2⟩

theorem applyOwnedDelta_eq_ok {m m' : Metadata} {pending : List (SecretRefId × VaultGcReason)}
    (ok : applyOwnedDelta owner delta m = .ok (pending, m')) :
    (∀ r, m'.Referenced r → m.Referenced r ∨ r ∈ delta.secretRefs) ∧
      ∀ candidate ∈ pending, ¬m'.Referenced candidate.1 ∧
        (m.Referenced candidate.1 ∨ candidate.1 ∈ delta.secretRefs) := by
  simp only [applyOwnedDelta, Check.bind_eq_ok] at ok
  obtain ⟨_, updates, last, deletes, _, collected, eq⟩ := ok
  cases eq
  obtain ⟨-, eq⟩ := Check.bind_unit_eq_ok.mp collected
  cases eq
  have start : (applyOwnedCreates owner m delta.creates).UsesOnly
      fun r => m.Referenced r ∨ r ∈ delta.secretRefs :=
    applyOwnedCreates_usesOnly (Metadata.usesOnly_iff.mpr fun _ => .inl) fun _ => .inr
  have within : last.Within fun r => m.Referenced r ∨ r ∈ delta.secretRefs := by
    apply Change.Within.applyOwnedDeletes _ deletes
    apply Change.Within.applyOwnedUpdates _ updates fun _ => .inr
    exact ⟨start, fun _ mem => absurd mem List.not_mem_nil⟩
  refine ⟨Metadata.usesOnly_iff.mp within.metadata, fun candidate mem => ?_⟩
  obtain ⟨mem, unused⟩ := List.mem_filter.mp mem
  refine ⟨fun used => ?_, within.candidates candidate mem⟩
  rw [used] at unused
  cases unused

end

end NoriShell.Restore

import NoriShell.Collections.BTreeMap
import NoriShell.Collections.Check
import NoriShell.Collections.Widths

/-! The entries of an unlocked vault, and the batches that insert and delete them. -/

namespace NoriShell.Vault

open Collections

abbrev Uuid := Fin (2 ^ 128)

abbrev SecretRefId := Uuid

inductive SecretKind
  | password
  | privateKey
  | passphrase
  | certificate
  | loginAutomation
  | oauthRefreshToken
  | pluginCredential
  | sshSyncKey
  | sshSyncRecoverySecret
  deriving DecidableEq

structure SecretEntry where
  kind : SecretKind
  value : List UInt8
  deriving DecidableEq

structure VaultSecretInsert where
  secretRefId : SecretRefId
  kind : SecretKind
  value : List UInt8
  deriving DecidableEq

def VaultSecretInsert.entry (secret : VaultSecretInsert) : SecretEntry :=
  ⟨secret.kind, secret.value⟩

abbrev SecretEntries := BTreeMap SecretRefId SecretEntry

inductive VaultError
  | emptySecretBatch
  | secretBatchTooLarge (maxEntries : Nat)
  | secretBatchValueTooLarge (maxBytes : Nat)
  | duplicateSecretRef (secretRef : SecretRefId)
  | emptySecret (kind : SecretKind)
  | secretTooLarge (kind : SecretKind) (maxBytes : Nat)
  | invalidSecretLength (kind : SecretKind) (expectedBytes : Nat)
  | secretKindMismatch (expected actual : SecretKind)
  | commitStateUnknown
  | reloadRequired
  | io
  deriving DecidableEq

def maxSecretBatchEntries : Nat := 1024

def maxSecretBatchValueBytes : Nat := 32 * 1024 * 1024

def syncKeyBytes : Nat := 32

def SecretKind.maxBytes : SecretKind → Nat
  | .password | .passphrase | .loginAutomation | .pluginCredential | .sshSyncRecoverySecret =>
    64 * 1024
  | .privateKey | .certificate => 16 * 1024 * 1024
  | .oauthRefreshToken => 256 * 1024
  | .sshSyncKey => syncKeyBytes

def validateSecretValue (kind : SecretKind) (value : List UInt8) : Except VaultError Unit := do
  reject (value = []) (.emptySecret kind)
  reject (value.length > kind.maxBytes) (.secretTooLarge kind kind.maxBytes)
  reject (kind = .sshSyncKey ∧ value.length ≠ syncKeyBytes) (.invalidSecretLength kind syncKeyBytes)

section

variable (entries : SecretEntries)

/-- Checks one entry of a batch against the vault, the references seen before it
and the bytes counted so far. -/
def admitSecret (seen : BTreeSet SecretRefId × Nat) (secret : VaultSecretInsert) :
    Except VaultError (BTreeSet SecretRefId × Nat) := do
  reject (entries.contains secret.secretRefId ∨ secret.secretRefId ∈ seen.1)
    (.duplicateSecretRef secret.secretRefId)
  validateSecretValue secret.kind secret.value
  let total := seen.2 + secret.value.length
  reject (total > maxSecretBatchValueBytes) (.secretBatchValueTooLarge maxSecretBatchValueBytes)
  pure (seen.1.insert secret.secretRefId, total)

def validateSecretBatch (secrets : List VaultSecretInsert) : Except VaultError Unit := do
  reject (secrets = []) .emptySecretBatch
  reject (secrets.length > maxSecretBatchEntries) (.secretBatchTooLarge maxSecretBatchEntries)
  let _ ← secrets.foldlM (admitSecret entries) (.empty, 0)

def insertSecretsWithRefs (secrets : List VaultSecretInsert) : Except VaultError SecretEntries := do
  validateSecretBatch entries secrets
  pure (entries.extend (secrets.map fun secret => (secret.secretRefId, secret.entry)))

def readSecret (secretRef : SecretRefId) (expected : SecretKind) :
    Except VaultError (Option (List UInt8)) :=
  match entries.get? secretRef with
  | none => .ok none
  | some entry =>
    if entry.kind = expected then .ok (some entry.value)
    else .error (.secretKindMismatch expected entry.kind)

def admitDeletion (unique : BTreeSet SecretRefId) (secretRef : SecretRefId) :
    Except VaultError (BTreeSet SecretRefId) := do
  reject (secretRef ∈ unique) (.duplicateSecretRef secretRef)
  pure (unique.insert secretRef)

/-- Missing references are already clean. -/
def deleteSecretsWithRefs (secretRefs : List SecretRefId) : Except VaultError SecretEntries := do
  reject (secretRefs = []) .emptySecretBatch
  reject (secretRefs.length > maxSecretBatchEntries) (.secretBatchTooLarge maxSecretBatchEntries)
  let _ ← secretRefs.foldlM admitDeletion .empty
  pure (secretRefs.foldl .erase entries)

end

inductive VaultServiceError
  | notUnlocked
  | secretConflict
  | vault (error : VaultError)
  deriving DecidableEq

/-- The insert returned before it committed any reference. -/
def VaultServiceError.secretInsertDefinitelyAbsent : VaultServiceError → Bool
  | .secretConflict | .vault .commitStateUnknown | .vault .reloadRequired => false
  | _ => true

section

variable (entries : SecretEntries)

def matchExistingSecret (secret : VaultSecretInsert) : Except VaultServiceError Unit :=
  match readSecret entries secret.secretRefId secret.kind with
  | .error error => .error (.vault error)
  | .ok none => .error .secretConflict
  | .ok (some value) => reject (value ≠ secret.value) .secretConflict

/-- A batch that meets a known reference is accepted only where all of it is there
with the same material. -/
def insertSecrets (secrets : List VaultSecretInsert) : Except VaultServiceError SecretEntries :=
  match insertSecretsWithRefs entries secrets with
  | .ok entries => .ok entries
  | .error (.duplicateSecretRef _) => do
    each secrets (matchExistingSecret entries)
    pure entries
  | .error error => .error (.vault error)

def deleteSecrets (secretRefs : List SecretRefId) : Except VaultServiceError SecretEntries :=
  match deleteSecretsWithRefs entries secretRefs with
  | .ok entries => .ok entries
  | .error error => .error (.vault error)

end

section

variable {entries entries' : SecretEntries}

theorem admitSecret_eq_ok {seen seen' : BTreeSet SecretRefId × Nat} {secret : VaultSecretInsert}
    (h : admitSecret entries seen secret = .ok seen') :
    entries.get? secret.secretRefId = none ∧ secret.secretRefId ∉ seen.1 ∧
      seen'.1 = seen.1.insert secret.secretRefId := by
  simp only [admitSecret, Check.bind_unit_eq_ok, Check.reject_eq_ok, not_or, pure, Except.pure,
    Except.ok.injEq] at h
  obtain ⟨⟨absent, new⟩, -, -, rfl⟩ := h
  rw [BTreeMap.contains, Bool.not_eq_true, Option.isSome_eq_false_iff,
    Option.isNone_iff_eq_none] at absent
  exact ⟨absent, new, rfl⟩

variable {secrets : List VaultSecretInsert}

theorem admitSecrets_eq_ok
    {seen seen' : BTreeSet SecretRefId × Nat}
    (h : secrets.foldlM (admitSecret entries) seen = .ok seen') :
    (∀ secret ∈ secrets, entries.get? secret.secretRefId = none ∧ secret.secretRefId ∉ seen.1) ∧
      (secrets.map VaultSecretInsert.secretRefId).Nodup := by
  induction secrets generalizing seen with
  | nil => simp
  | cons secret secrets ih =>
    rw [List.foldlM_cons, Check.bind_eq_ok] at h
    obtain ⟨middle, admitted, rest⟩ := h
    obtain ⟨absent, new, seen_eq⟩ := admitSecret_eq_ok admitted
    obtain ⟨others, nodup⟩ := ih rest
    simp only [seen_eq, BTreeSet.mem_insert, not_or] at others
    refine ⟨?_, ?_⟩
    · intro other mem
      rcases List.mem_cons.mp mem with rfl | mem
      · exact ⟨absent, new⟩
      · exact ⟨(others other mem).1, (others other mem).2.2⟩
    · rw [List.map_cons, List.nodup_cons, List.mem_map]
      refine ⟨?_, nodup⟩
      rintro ⟨other, mem, same⟩
      exact (others other mem).2.1 same

theorem insertSecretsWithRefs_eq_ok (h : insertSecretsWithRefs entries secrets = .ok entries') :
    (∀ secret ∈ secrets, entries.get? secret.secretRefId = none ∧
      entries'.get? secret.secretRefId = some secret.entry) ∧
    ∀ r, r ∉ secrets.map VaultSecretInsert.secretRefId → entries'.get? r = entries.get? r := by
  simp only [insertSecretsWithRefs, validateSecretBatch, Check.bind_eq_ok, pure, Except.pure,
    Except.ok.injEq, exists_const] at h
  obtain ⟨⟨-, -, -, -, _, admitted, -⟩, rfl⟩ := h
  obtain ⟨absent, nodup⟩ := admitSecrets_eq_ok admitted
  have firsts : (secrets.map fun secret => (secret.secretRefId, secret.entry)).map Prod.fst =
      secrets.map VaultSecretInsert.secretRefId := by
    rw [List.map_map]
    rfl
  refine ⟨fun secret mem => ⟨(absent secret mem).1, ?_⟩, fun r missing => ?_⟩
  · apply BTreeMap.get?_extend_of_mem
    · rwa [firsts]
    · exact List.mem_map.mpr ⟨secret, mem, rfl⟩
  · exact BTreeMap.get?_extend_of_notMem (firsts ▸ missing) _

theorem get?_eraseAll (refs : List SecretRefId) (entries : SecretEntries) (r : SecretRefId) :
    (refs.foldl .erase entries).get? r = if r ∈ refs then none else entries.get? r := by
  induction refs generalizing entries with
  | nil => simp
  | cons first refs ih =>
    rw [List.foldl_cons, ih, BTreeMap.get?_erase]
    by_cases same : r = first
    · simp [same]
    · simp [same]

theorem deleteSecretsWithRefs_eq_ok {refs : List SecretRefId}
    (h : deleteSecretsWithRefs entries refs = .ok entries')
    (r : SecretRefId) : entries'.get? r = if r ∈ refs then none else entries.get? r := by
  simp only [deleteSecretsWithRefs, Check.bind_eq_ok, pure, Except.pure, Except.ok.injEq] at h
  obtain ⟨-, -, -, -, -, -, rfl⟩ := h
  exact get?_eraseAll refs entries r

theorem matchExistingSecret_eq_ok {secret : VaultSecretInsert}
    (h : matchExistingSecret entries secret = .ok ()) :
    entries.get? secret.secretRefId = some secret.entry := by
  unfold matchExistingSecret readSecret at h
  cases found : entries.get? secret.secretRefId with
  | none => simp [found] at h
  | some entry =>
    rw [found] at h
    by_cases same : entry.kind = secret.kind
    · simp only [same, if_true, Check.reject_eq_ok, not_not] at h
      rw [VaultSecretInsert.entry, ← same, ← h]
    · simp [same] at h

theorem insertSecrets_eq_ok (h : insertSecrets entries secrets = .ok entries') :
    (∀ secret ∈ secrets, entries'.get? secret.secretRefId = some secret.entry) ∧
      (∀ r, r ∉ secrets.map VaultSecretInsert.secretRefId → entries'.get? r = entries.get? r) := by
  unfold insertSecrets at h
  split at h
  · next inserted eq =>
    cases h
    obtain ⟨present, others⟩ := insertSecretsWithRefs_eq_ok eq
    exact ⟨fun secret mem => (present secret mem).2, others⟩
  · rw [Check.bind_unit_eq_ok] at h
    obtain ⟨all, same⟩ := h
    cases same
    exact ⟨fun secret mem => matchExistingSecret_eq_ok (Check.each_eq_ok.mp all secret mem),
      fun _ _ => rfl⟩
  · cases h

theorem deleteSecrets_eq_ok {refs : List SecretRefId} (h : deleteSecrets entries refs = .ok entries')
    (r : SecretRefId) : entries'.get? r = if r ∈ refs then none else entries.get? r := by
  unfold deleteSecrets at h
  split at h
  · next deleted eq =>
    cases h
    exact deleteSecretsWithRefs_eq_ok eq r
  · cases h

end

end NoriShell.Vault

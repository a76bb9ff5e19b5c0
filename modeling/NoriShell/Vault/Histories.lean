import NoriShell.Vault.Transactions

namespace NoriShell.Vault

open Collections Collections.Check Stateful

def ValidEntries (entries : SecretEntries) : Prop :=
  ∀ r entry, entries.get? r = some entry → validateSecretValue entry.kind entry.value = .ok ()

/-- The vaults a call proposes, before they get their revision. -/
inductive Changed (lib : Primitives) (turn : Turn) (vault : UnlockedVault) :
    Call → UnlockedVault → Prop
  | contents {call : Call} {entries : SecretEntries} {history : CommandHistoryPayload}
    (samePassword : ∀ current new, call ≠ .changePassword current new)
    (validEntries : ValidEntries vault.payload.entries → ValidEntries entries)
    (validHistory : validateCommandHistory vault.payload.commandHistory = .ok () →
      validateCommandHistory history = .ok ()) :
    Changed lib turn vault call ((vault.withEntries entries).withHistory history)
  | wrap {currentPassword newPassword : Bytes} {kdf : KdfHeader} {wrapped : CiphertextSection}
    (made : newWrap lib turn vault currentPassword newPassword = .ok (kdf, wrapped)) :
    Changed lib turn vault (.changePassword currentPassword newPassword)
      (vault.withWrap kdf wrapped)

section

variable {lib : Primitives} {turn : Turn} {vault next : UnlockedVault} {reply : Reply}

theorem orFail_eq_ok {ε α : Type} {value : Option α} {e : ε} {a : α} :
    orFail value e = .ok a ↔ value = some a := by
  cases value <;> simp [orFail]

theorem ofSecrets_eq_ok {α : Type} {result : Except VaultError α} {a : α} :
    ofSecrets result = .ok a ↔ result = .ok a := by
  cases result <;> simp [ofSecrets]

variable {entries : SecretEntries}

theorem validateSecretBatch_values {secrets : List VaultSecretInsert}
    {u : Unit} (h : ofSecrets (validateSecretBatch entries secrets) = .ok u) :
    ∀ secret ∈ secrets, validateSecretValue secret.kind secret.value = .ok () := by
  rw [ofSecrets_eq_ok, validateSecretBatch] at h
  simp only [Check.bind_eq_ok] at h
  obtain ⟨_, -, _, -, _, admitted, -⟩ := h
  intro secret mem
  obtain ⟨seen, seen', admitted⟩ := Check.foldlM_accepts admitted mem
  simp only [admitSecret, Check.bind_eq_ok] at admitted
  obtain ⟨_, -, _, valid, -⟩ := admitted
  exact valid

theorem ValidEntries.extend {added : List (SecretRefId × SecretEntry)}
    (valid : ValidEntries entries)
    (h : ∀ e ∈ added, validateSecretValue e.2.kind e.2.value = .ok ()) :
    ValidEntries (entries.extend added) := by
  unfold BTreeMap.extend
  induction added generalizing entries with
  | nil => exact valid
  | cons first added ih =>
    rw [List.foldl_cons]
    refine ih ?_ fun e mem => h e (List.mem_cons_of_mem _ mem)
    intro r entry found
    rw [BTreeMap.get?_insert] at found
    split at found
    · cases found
      exact h first List.mem_cons_self
    · exact valid r entry found

theorem ValidEntries.erase (valid : ValidEntries entries)
    (refs : List SecretRefId) : ValidEntries (refs.foldl .erase entries) := by
  intro r entry found
  rw [get?_eraseAll] at found
  split at found
  · cases found
  · exact valid r entry found

theorem validatePayloadEntries_eq_ok {payload : VaultPayloadV1} :
    validatePayloadEntries payload = .ok () ↔
      ValidEntries payload.entries ∧ validateCommandHistory payload.commandHistory = .ok () := by
  simp [validatePayloadEntries, ofSecrets_eq_ok, ValidEntries, ← BTreeMap.mem_toList]

theorem openSource_valid {encryptedEnvelope sourcePassword : Bytes} {source : VaultPayloadV1}
    (h : openSource lib encryptedEnvelope sourcePassword = .ok source) :
    ValidEntries source.entries := by
  simp only [openSource, unlockVaultEnvelope, Check.bind_eq_ok] at h
  obtain ⟨_, -, _, ⟨_, -, _, -, _, -, payload, -, _, -, _, valid, opened⟩, same⟩ := h
  cases opened
  cases same
  exact (validatePayloadEntries_eq_ok.mp valid).1

theorem importSecrets_valid {used : BTreeSet Uuid} {ids : List Uuid} {source : SecretEntries}
    {imported : List (SecretRefId × SecretEntry)} (valid : ValidEntries source)
    (h : importSecrets used ids (source.toList.map (·.2)) = some imported) :
    ∀ e ∈ imported, validateSecretValue e.2.kind e.2.value = .ok () := by
  intro e mem
  have entry : e.2 ∈ source.toList.map (·.2) :=
    (importSecrets_eq_some h).1 ▸ List.mem_map.mpr ⟨e, mem, rfl⟩
  obtain ⟨⟨r, entry⟩, mem, same⟩ := List.mem_map.mp entry
  rw [← same]
  exact valid r entry (BTreeMap.mem_toList.mp mem)

theorem draft_cases {call : Call} (h : draft lib turn vault call = some (.ok (reply, some next))) :
    ∃ changed revision, Changed lib turn vault call changed ∧
      checkedNext vault.payload.revision = .ok revision ∧ next = changed.withRevision revision := by
  cases call with
  | insertSecretsWithRefs secrets =>
    simp only [draft, draftInsert, advance, Option.some.injEq, Check.bind_eq_ok] at h
    obtain ⟨_, accepted, revision, after, same⟩ := h
    cases same
    refine ⟨_, revision, .contents (by simp) (fun valid => valid.extend ?_) id, after, rfl⟩
    intro e mem
    obtain ⟨secret, given, rfl⟩ := List.mem_map.mp mem
    exact validateSecretBatch_values accepted secret given
  | replaceSecretWithRef secret =>
    simp only [draft, draftReplace, Option.some.injEq, Check.bind_eq_ok] at h
    obtain ⟨_, accepted, revision, after, _, -, _, -, same⟩ := h
    cases same
    let entries := vault.payload.entries.extend [(secret.secretRefId, secret.entry)]
    refine ⟨(vault.withEntries entries).withHistory vault.payload.commandHistory, revision,
      .contents (by simp) (fun valid => ?_) id, after, rfl⟩
    refine valid.extend fun e mem => ?_
    cases List.mem_singleton.mp mem
    exact validateSecretBatch_values accepted secret List.mem_cons_self
  | deleteSecrets secretRefs =>
    simp only [draft, draftDelete, advance, Option.some.injEq, Check.bind_eq_ok] at h
    obtain ⟨unique, -, h⟩ := h
    split at h
    · cases h
    · obtain ⟨revision, after, same⟩ := Check.bind_eq_ok.mp h
      cases same
      exact ⟨_, revision, .contents (by simp) (fun valid => valid.erase _) id, after, rfl⟩
  | replaceCommandHistory history =>
    simp only [draft, draftHistory, advance, Option.some.injEq, Check.bind_eq_ok] at h
    obtain ⟨_, accepted, revision, after, same⟩ := h
    cases same
    exact ⟨_, revision, .contents (by simp) id fun _ => accepted, after, rfl⟩
  | changePassword currentPassword newPassword =>
    simp only [draft, draftPassword, advance, Option.some.injEq, Check.bind_eq_ok] at h
    obtain ⟨⟨kdf, wrapped⟩, made, revision, after, same⟩ := h
    cases same
    exact ⟨_, revision, .wrap made, after, rfl⟩
  | mergeEncryptedEnvelope encryptedEnvelope sourcePassword reservedRefs =>
    rw [draft, draftMerge] at h
    split at h
    · cases h
    · next source opened =>
      simp only [draftSource, Option.bind_eq_bind, Option.bind_eq_some_iff] at h
      obtain ⟨merge, -, h⟩ := h
      split at h
      · cases h
      · next accepted =>
        obtain ⟨imported, made, h⟩ := Option.bind_eq_some_iff.mp h
        split at h
        · cases h
        · simp only [Option.some.injEq, Check.bind_eq_ok] at h
          obtain ⟨revision, after, same⟩ := h
          cases same
          refine ⟨_, revision, .contents (by simp) (fun valid => ?_) fun _ => accepted, after, rfl⟩
          exact valid.extend (importSecrets_valid (openSource_valid opened) made)

end

section

variable {lib : Primitives} {turn : Turn}

@[simp] theorem ofSecrets_avoids {α : Type} {result : Except VaultError α}
    (h : Avoids .commitStateUnknown result) : Avoids .commitStateUnknown (ofSecrets result) := by
  cases result with
  | error e => exact .error fun same => h (congrArg Except.error (VaultFailure.vault.inj same))
  | ok a => exact .ok

@[simp] theorem validateSecretValue_avoids (kind : SecretKind) (value : List UInt8) :
    Avoids .commitStateUnknown (validateSecretValue kind value) := by
  simp [validateSecretValue]

@[simp] theorem admitSecret_avoids (entries : SecretEntries) (seen : BTreeSet SecretRefId × Nat)
    (secret : VaultSecretInsert) :
    Avoids .commitStateUnknown (admitSecret entries seen secret) := by
  simp [admitSecret]

@[simp] theorem validateSecretBatch_avoids (entries : SecretEntries)
    (secrets : List VaultSecretInsert) :
    Avoids .commitStateUnknown (validateSecretBatch entries secrets) := by
  simp [validateSecretBatch]

@[simp] theorem admitDeletion_avoids (unique : BTreeSet SecretRefId) (secretRef : SecretRefId) :
    Avoids .commitStateUnknown (admitDeletion unique secretRef) := by
  simp [admitDeletion]

@[simp] theorem uniqueRefs_avoids (secretRefs : List SecretRefId) :
    Avoids .commitStateUnknown (uniqueRefs secretRefs) := by
  simp [uniqueRefs]

@[simp] theorem checkedNext_avoids (revision : UInt64) :
    Avoids .commitStateUnknown (checkedNext revision) := by
  unfold checkedNext
  split <;> simp

@[simp] theorem admitHistoryEntry_avoids (seen : BTreeSet Uuid × Nat) (entry : CommandHistoryEntry) :
    Avoids .commitStateUnknown (admitHistoryEntry seen entry) := by
  simp [admitHistoryEntry]

@[simp] theorem validateCommandHistory_avoids (history : CommandHistoryPayload) :
    Avoids .commitStateUnknown (validateCommandHistory history) := by
  simp [validateCommandHistory]

@[simp] theorem validateKdfParameters_avoids (kdf : KdfHeader) :
    Avoids .commitStateUnknown (validateKdfParameters kdf) := by
  simp [validateKdfParameters]

@[simp] theorem deriveKey_avoids (password : Bytes) (kdf : KdfHeader) :
    Avoids .commitStateUnknown (deriveKey lib password kdf) := by
  simp [deriveKey]

@[simp] theorem decodeNonce_avoids (section_ : CiphertextSection) :
    Avoids .commitStateUnknown (decodeNonce section_) := by
  refine .bind (by simp) fun _ => ?_
  split <;> simp

@[simp] theorem unwrapVaultKeyParts_avoids (vaultId : Uuid) (kdf : KdfHeader)
    (wrapped : CiphertextSection) (key : Key) :
    Avoids .commitStateUnknown (unwrapVaultKeyParts lib vaultId kdf wrapped key) := by
  refine .bind (by simp) fun _ => .bind (by simp) fun _ => .bind (by simp) fun _ =>
    .bind (by simp) fun _ => ?_
  split <;> simp

@[simp] theorem newWrap_avoids (vault : UnlockedVault) (currentPassword newPassword : Bytes) :
    Avoids .commitStateUnknown (newWrap lib turn vault currentPassword newPassword) := by
  simp [newWrap, validateNewPassword, newKdfHeader, wrapVaultKey, fillRandom]

@[simp] theorem validateCiphertextSection_avoids (section_ : CiphertextSection) :
    Avoids .commitStateUnknown (validateCiphertextSection section_) := by
  simp [validateCiphertextSection]

@[simp] theorem validateEnvelope_avoids (envelope : VaultEnvelope) :
    Avoids .commitStateUnknown (validateEnvelope envelope) := by
  simp [validateEnvelope]

@[simp] theorem decryptPayload_avoids (envelope : VaultEnvelope) (key : Key) :
    Avoids .commitStateUnknown (decryptPayload lib envelope key) := by
  simp [decryptPayload]

@[simp] theorem validatePayloadEntries_avoids (payload : VaultPayloadV1) :
    Avoids .commitStateUnknown (validatePayloadEntries payload) := by
  simp [validatePayloadEntries]

@[simp] theorem openSource_avoids (encryptedEnvelope sourcePassword : Bytes) :
    Avoids .commitStateUnknown (openSource lib encryptedEnvelope sourcePassword) := by
  simp [openSource, parseEncryptedVaultEnvelope, unlockVaultEnvelope]

@[simp] theorem advance_avoids (vault changed : UnlockedVault) :
    Avoids .commitStateUnknown (advance vault changed) := by
  simp [advance]

theorem draft_avoids {vault : UnlockedVault} (call : Call) {result : Except VaultFailure Proposal}
    (h : draft lib turn vault call = some result) : Avoids .commitStateUnknown result := by
  cases call with
  | insertSecretsWithRefs secrets =>
    cases h
    simp [draftInsert]
  | replaceSecretWithRef secret =>
    cases h
    simp [draftReplace]
  | deleteSecrets secretRefs =>
    cases h
    refine .bind (by simp) fun _ => ?_
    split <;> simp
  | replaceCommandHistory history =>
    cases h
    simp [draftHistory]
  | changePassword currentPassword newPassword =>
    cases h
    simp [draftPassword]
  | mergeEncryptedEnvelope encryptedEnvelope sourcePassword reservedRefs =>
    rw [draft, draftMerge] at h
    split at h
    · next e failed =>
      cases h
      exact .error fun same => openSource_avoids _ _ (same ▸ failed)
    · simp only [draftSource, Option.bind_eq_bind, Option.bind_eq_some_iff] at h
      obtain ⟨merge, -, h⟩ := h
      split at h
      · next e failed =>
        cases h
        exact .error fun same => validateCommandHistory_avoids _ (same ▸ failed)
      · obtain ⟨imported, -, h⟩ := Option.bind_eq_some_iff.mp h
        split at h
        · cases h
          exact .ok
        · cases h
          simp

end

def sealedSection (nonce : Block nonceBytes) (ciphertext : Bytes) : CiphertextSection :=
  { cipher := cipherId, nonce := base64 nonce.val, ciphertext := base64 ciphertext }

def UnlockedVault.envelope (vault : UnlockedVault) (payload : CiphertextSection) : VaultEnvelope where
  magic := magic
  formatVersion := formatVersion
  vaultId := vault.vaultId
  kdf := vault.kdf
  wrappedVaultKey := vault.wrappedVaultKey
  payload := payload

def stored (lib : Primitives) (w : World) : Option (VaultEnvelope × VaultPayloadV1) := do
  let bytes ← w.file
  let envelope ← lib.decodeEnvelope bytes
  match decryptPayload lib envelope w.vault.vaultMasterKey with
  | .ok payload => some (envelope, payload)
  | .error _ => none

/-- The file has the key wrap and the payload of the vault. -/
def Mirrors (lib : Primitives) (w : World) : Prop :=
  ∃ envelope, stored lib w = some (envelope, w.vault.payload) ∧
    envelope.vaultId = w.vault.vaultId ∧ envelope.kdf = w.vault.kdf ∧
    envelope.wrappedVaultKey = w.vault.wrappedVaultKey

def fileRevision (lib : Primitives) (w : World) : Option Nat :=
  (stored lib w).map (·.2.revision.toNat)

section

variable {lib : Primitives} {turn : Turn} {vault : UnlockedVault} {w : World}

theorem fromBase64_base64 (bytes : Bytes) : fromBase64 (base64 bytes) = some bytes := by
  rw [fromBase64, base64, String.toList_ofList]
  exact Base64.decode_encode bytes

theorem decodeNonce_sealed (nonce : Block nonceBytes) (ciphertext : Bytes) :
    decodeNonce (sealedSection nonce ciphertext) = .ok nonce := by
  simp only [decodeNonce, sealedSection, fromBase64_base64]
  exact dif_pos nonce.property

theorem validate_sealed {nonce : Block nonceBytes} {ciphertext : Bytes} (h : ciphertext ≠ []) :
    validateCiphertextSection (sealedSection nonce ciphertext) = .ok () := by
  simp only [validateCiphertextSection, decodeNonce_sealed, Check.bind_eq_ok, Check.reject_eq_ok,
    orFail_eq_ok]
  exact ⟨(), fun other => other rfl, nonce, rfl, ciphertext, fromBase64_base64 ciphertext, h⟩

variable {bytes file password : Bytes} {envelope : VaultEnvelope}

theorem encodeCurrentEnvelope_eq_ok (sound : lib.Sound)
    (h : encodeCurrentEnvelope lib turn vault = .ok bytes) :
    ∃ payload, lib.decodeEnvelope bytes = some (vault.envelope payload) ∧ bytes ≠ [] ∧
      validateCiphertextSection payload = .ok () ∧
      decryptPayload lib (vault.envelope payload) vault.vaultMasterKey = .ok vault.payload := by
  simp only [encodeCurrentEnvelope, encryptPayload, fillRandom, Check.bind_eq_ok, orFail_eq_ok] at h
  obtain ⟨plaintext, plain, _, ⟨nonce, -, aad, bound, ciphertext, encrypted, made⟩, encoded⟩ := h
  cases made
  obtain ⟨decrypted, nonempty⟩ := sound.decrypts encrypted
  obtain ⟨decoded, some_⟩ := sound.decodesEnvelope encoded
  refine ⟨sealedSection nonce ciphertext, decoded, some_, validate_sealed nonempty, ?_⟩
  simp only [decryptPayload, UnlockedVault.envelope, decodeNonce_sealed, Check.bind_eq_ok,
    orFail_eq_ok]
  exact ⟨nonce, rfl, ciphertext, fromBase64_base64 ciphertext, aad, bound, plaintext, decrypted,
    sound.decodesPayload plain⟩

theorem encode_mirrors (sound : lib.Sound)
    (h : encodeCurrentEnvelope lib turn vault = .ok bytes) : Mirrors lib ⟨vault, some bytes⟩ := by
  obtain ⟨payload, decoded, -, -, opened⟩ := encodeCurrentEnvelope_eq_ok sound h
  refine ⟨vault.envelope payload, ?_, rfl, rfl, rfl⟩
  simp [stored, decoded, opened]

theorem Mirrors.fileRevision (h : Mirrors lib w) :
    fileRevision lib w = some w.vault.payload.revision.toNat := by
  obtain ⟨envelope, same, -⟩ := h
  rw [Vault.fileRevision, same]
  rfl

theorem Mirrors.poison (h : Mirrors lib w) : Mirrors lib { w with vault := w.vault.poison } := h

structure UnlockedVault.WellFormed (vault : UnlockedVault) : Prop where
  vaultId : vault.vaultId ≠ 0
  kdf : validateKdfParameters vault.kdf = .ok ()
  wrapped : validateCiphertextSection vault.wrappedVaultKey = .ok ()
  schema : vault.payload.schemaVersion = payloadSchemaVersion
  entries : ValidEntries vault.payload.entries
  history : validateCommandHistory vault.payload.commandHistory = .ok ()

def UnwrapsWith (lib : Primitives) (password : Bytes) (vault : UnlockedVault) : Prop :=
  ∃ key, deriveKey lib password vault.kdf = .ok key ∧
    unwrapVaultKeyParts lib vault.vaultId vault.kdf vault.wrappedVaultKey key =
      .ok vault.vaultMasterKey

structure Opens (lib : Primitives) (file password : Bytes) (vault : UnlockedVault) : Prop where
  nonempty : file ≠ []
  small : file.length ≤ maxVaultFileBytes
  decodes : ∃ payload, lib.decodeEnvelope file = some (vault.envelope payload) ∧
    validateCiphertextSection payload = .ok () ∧
    decryptPayload lib (vault.envelope payload) vault.vaultMasterKey = .ok vault.payload
  wellFormed : vault.WellFormed
  unwraps : UnwrapsWith lib password vault
  usable : vault.poisoned = false

theorem validateEnvelope_eq_ok : validateEnvelope envelope = .ok () ↔ envelope.magic = magic ∧
      envelope.formatVersion = formatVersion ∧ envelope.vaultId ≠ 0 ∧
      validateKdfParameters envelope.kdf = .ok () ∧
      validateCiphertextSection envelope.wrappedVaultKey = .ok () ∧
      validateCiphertextSection envelope.payload = .ok () := by
  simp [validateEnvelope]

theorem readBounded_eq_ok : readBounded turn file = .ok bytes ↔
      turn.readError = none ∧ file.length ≤ maxVaultFileBytes ∧ file = bytes := by
  unfold readBounded
  cases turn.readError with
  | some e => exact ⟨nofun, nofun⟩
  | none =>
    simp [pure, Except.pure]

theorem parseEncryptedVaultEnvelope_eq_ok : parseEncryptedVaultEnvelope lib file = .ok envelope ↔
      file ≠ [] ∧ file.length ≤ maxVaultFileBytes ∧ lib.decodeEnvelope file = some envelope ∧
        validateEnvelope envelope = .ok () := by
  simp only [parseEncryptedVaultEnvelope, Check.bind_eq_ok, Check.reject_eq_ok, orFail_eq_ok, pure,
    Except.pure, Except.ok.injEq, gt_iff_lt, Nat.not_lt]
  constructor
  · rintro ⟨_, some_, _, small, _, decoded, _, valid, rfl⟩
    exact ⟨some_, small, decoded, valid⟩
  · rintro ⟨some_, small, decoded, valid⟩
    exact ⟨(), some_, (), small, envelope, decoded, (), valid, rfl⟩

theorem unlockVaultEnvelope_eq_ok {key : Key}
    {payload : VaultPayloadV1} :
    unlockVaultEnvelope lib envelope password = .ok (key, payload) ↔
      validateEnvelope envelope = .ok () ∧
      (∃ wrapping, deriveKey lib password envelope.kdf = .ok wrapping ∧
        unwrapVaultKeyParts lib envelope.vaultId envelope.kdf envelope.wrappedVaultKey wrapping =
          .ok key) ∧
      decryptPayload lib envelope key = .ok payload ∧
      payload.schemaVersion = payloadSchemaVersion ∧ ValidEntries payload.entries ∧
      validateCommandHistory payload.commandHistory = .ok () := by
  simp only [unlockVaultEnvelope, Check.bind_eq_ok, Check.reject_eq_ok, pure, Except.pure,
    Except.ok.injEq, Prod.mk.injEq, not_not, ne_eq, ← validatePayloadEntries_eq_ok]
  constructor
  · rintro ⟨_, valid, wrapping, derived, _, unwrapped, _, opened, _, schema, _, entries, rfl, rfl⟩
    exact ⟨valid, ⟨wrapping, derived, unwrapped⟩, opened, schema, entries⟩
  · rintro ⟨valid, ⟨wrapping, derived, unwrapped⟩, opened, schema, entries⟩
    exact ⟨(), valid, wrapping, derived, key, unwrapped, payload, opened, (), schema, (), entries,
      rfl, rfl⟩

theorem unlock_eq_ok : unlock lib turn file password = .ok vault ↔
      turn.readError = none ∧ Opens lib file password vault := by
  simp only [unlock, Check.bind_eq_ok, readBounded_eq_ok, parseEncryptedVaultEnvelope_eq_ok,
    Prod.exists, unlockVaultEnvelope_eq_ok, validateEnvelope_eq_ok]
  constructor
  · rintro ⟨_, ⟨readable, -, rfl⟩, envelope, ⟨some_, small, decoded, -⟩, key, payload,
      ⟨⟨magic, format, vaultId, kdf, wrapped, valid⟩, unwraps, opened, schema, entries, history⟩,
      same⟩
    cases same
    refine ⟨readable, some_, small, ⟨envelope.payload, ?_⟩,
      ⟨vaultId, kdf, wrapped, schema, entries, history⟩, unwraps, rfl⟩
    rw [UnlockedVault.envelope, ← magic, ← format]
    exact ⟨decoded, valid, opened⟩
  · rintro ⟨readable, some_, small, ⟨payload, decoded, valid, opened⟩, wellFormed, unwraps, usable⟩
    have passes := And.intro wellFormed.vaultId
      (And.intro wellFormed.kdf (And.intro wellFormed.wrapped valid))
    refine ⟨file, ⟨readable, small, rfl⟩, vault.envelope payload,
      ⟨some_, small, decoded, rfl, rfl, passes⟩, vault.vaultMasterKey, vault.payload,
      ⟨⟨rfl, rfl, passes⟩, unwraps, opened, wellFormed.schema, wellFormed.entries,
        wellFormed.history⟩, ?_⟩
    cases vault
    cases usable
    rfl

theorem Opens.mirrors (h : Opens lib file password vault) : Mirrors lib ⟨vault, some file⟩ := by
  obtain ⟨payload, decoded, -, opened⟩ := h.decodes
  refine ⟨vault.envelope payload, ?_, rfl, rfl, rfl⟩
  simp [stored, decoded, opened]

theorem encode_opens (sound : lib.Sound) (formed : vault.WellFormed)
    (unwraps : UnwrapsWith lib password vault) (usable : vault.poisoned = false)
    (encodes : encodeCurrentEnvelope lib turn vault = .ok bytes)
    (small : bytes.length ≤ maxVaultFileBytes) : Opens lib bytes password vault := by
  obtain ⟨payload, decoded, nonempty, valid, opened⟩ := encodeCurrentEnvelope_eq_ok sound encodes
  exact ⟨nonempty, small, ⟨payload, decoded, valid, opened⟩, formed, unwraps, usable⟩

end

theorem checkedNext_eq_ok {revision next : UInt64} (h : checkedNext revision = .ok next) :
    revision.toNat ≠ 2 ^ 64 - 1 ∧ next.toNat = revision.toNat + 1 := by
  rw [checkedNext] at h
  split at h
  · cases h
  · next room =>
    cases h
    have bound := revision.toNat_lt
    refine ⟨room, ?_⟩
    rw [UInt64.toNat_add]
    exact Nat.mod_eq_of_lt (by simp; omega)

/-- What a call can come to: it keeps the world, it writes its change, or the state of its
write is unknown. -/
inductive Performed (lib : Primitives) (turn : Turn) (w : World) (call : Call) :
    Except VaultFailure Reply → World → Prop
  | kept {result : Except VaultFailure Reply} (definite : result ≠ .error .commitStateUnknown)
    (idle : ∀ reply, result = .ok reply → ∀ current new, call ≠ .changePassword current new) :
    Performed lib turn w call result w
  | written {reply : Reply} {changed : UnlockedVault} {revision : UInt64}
    {parent : Option String} {bytes : Bytes} (changes : Changed lib turn w.vault call changed)
    (next : checkedNext w.vault.payload.revision = .ok revision)
    (encodes : encodeCurrentEnvelope lib turn
      ((changed.withRevision revision).withParent parent) = .ok bytes)
    (small : bytes.length ≤ maxVaultFileBytes) :
    Performed lib turn w call (.ok reply)
      ⟨(changed.withRevision revision).withParent parent, some bytes⟩
  | unknown {changed : UnlockedVault} {revision : UInt64} {parent : Option String}
    {bytes : Bytes} (applied : Bool) (changes : Changed lib turn w.vault call changed)
    (next : checkedNext w.vault.payload.revision = .ok revision)
    (encodes : encodeCurrentEnvelope lib turn
      ((changed.withRevision revision).withParent parent) = .ok bytes)
    (small : bytes.length ≤ maxVaultFileBytes) :
    Performed lib turn w call (.error .commitStateUnknown)
      ⟨((changed.withRevision revision).withParent parent).poison,
        if applied then some bytes else w.file⟩

section

variable {lib : Primitives} {turn : Turn} {w after : World} {call : Call}
  {result : Except VaultFailure Reply}

theorem Changed.usable {vault changed : UnlockedVault}
    (h : Changed lib turn vault call changed) : changed.poisoned = vault.poisoned := by
  cases h <;> rfl

theorem perform_poisoned (poisoned : w.vault.poisoned = true) :
    perform lib turn call w = some (.error .reloadRequired, w) := by
  cases call <;>
  · simp only [perform, insertSecretsWithRefsUsing, replaceSecretWithRefUsing,
      deleteSecretsUsing, replaceCommandHistoryUsing, changePassword, mergeEncryptedEnvelopeUsing,
      bind_bind]
    exact ensureUsable_bind_poisoned poisoned _

theorem draft_password_writes {vault : UnlockedVault} {reply : Reply}
    (currentPassword newPassword : Bytes) :
    draft lib turn vault (.changePassword currentPassword newPassword) ≠
      some (.ok (reply, none)) := by
  intro h
  simp only [draft, draftPassword, advance, Option.some.injEq, Check.bind_eq_ok] at h
  obtain ⟨wrap, -, revision, -, same⟩ := h
  cases same

theorem perform_cases (usable : w.vault.poisoned = false) (safe : ¬Overruns lib turn w.vault call)
    (h : perform lib turn call w = some (result, after)) :
    Performed lib turn w call result after := by
  rw [perform_eq_transact usable safe] at h
  unfold transact at h
  split at h
  · cases h
  · next e drafted =>
    cases h
    exact .kept (fun same => draft_avoids call drafted (congrArg _ (Except.error.inj same))) nofun
  · next drafted =>
    cases h
    refine .kept nofun fun reply _ current new same => ?_
    exact draft_password_writes current new (same ▸ drafted)
  · next reply next drafted =>
    obtain ⟨changed, revision, changes, after, rfl⟩ := draft_cases drafted
    have still : (changed.withRevision revision).poisoned = false := changes.usable.trans usable
    have outcome : Persisted lib turn ⟨changed.withRevision revision, w.file⟩ _ :=
      persist_cases still
    generalize persist lib turn ⟨changed.withRevision revision, w.file⟩ = saved at outcome h
    cases outcome with
    | failed definite =>
      simp only [definite, if_false] at h
      cases h
      exact .kept (fun same => definite (Except.error.inj same)) nofun
    | done encodes small =>
      cases h
      exact .written changes after encodes small
    | unknown applied encodes small =>
      simp only [if_true] at h
      cases h
      exact .unknown applied changes after encodes small

end

structure Exchange where
  before : World
  result : Except VaultFailure Reply
  after : World

def history (lib : Primitives) : List (Turn × Call) → World → List Exchange
  | [], _ => []
  | (turn, call) :: calls, w =>
    match perform lib turn call w with
    | none => []
    | some (result, after) => ⟨w, result, after⟩ :: history lib calls after

structure Exchange.Accounted (lib : Primitives) (x : Exchange) : Prop where
  mirrors : x.after.vault.poisoned = false → Mirrors lib x.after
  raised : x.after.file ≠ x.before.file → ∃ revision, fileRevision lib x.before = some revision ∧
      fileRevision lib x.after = some (revision + 1)
  kept : (∃ e, x.result = .error e ∧ e ≠ .commitStateUnknown) ∨
    x.after.vault = x.before.vault → x.after.file = x.before.file
  refuses : x.result = .error .commitStateUnknown → x.after.vault.poisoned = true

section

variable {lib : Primitives} {turn : Turn} {w after : World} {call : Call}
  {result : Except VaultFailure Reply} {calls : List (Turn × Call)}

theorem history_poisoned (poisoned : w.vault.poisoned = true) :
    ∀ x ∈ history lib calls w, x = ⟨w, .error .reloadRequired, w⟩ := by
  induction calls with
  | nil => simp [history]
  | cons step calls ih =>
    obtain ⟨turn, call⟩ := step
    rw [history, perform_poisoned poisoned]
    rintro x (_ | ⟨_, mem⟩)
    · rfl
    · exact ih x mem

theorem accounted_poisoned (poisoned : w.vault.poisoned = true) :
    (⟨w, .error .reloadRequired, w⟩ : Exchange).Accounted lib where
  mirrors usable := absurd (poisoned.symm.trans usable) nofun
  raised changed := (changed rfl).elim
  kept _ := rfl
  refuses := nofun

theorem Performed.accounted (sound : lib.Sound) (usable : w.vault.poisoned = false)
    (mirrors : Mirrors lib w) (h : Performed lib turn w call result after) :
    (⟨w, result, after⟩ : Exchange).Accounted lib := by
  cases h with
  | kept definite idle =>
    exact ⟨fun _ => mirrors, fun changed => (changed rfl).elim, fun _ => rfl,
      fun unknown => (definite unknown).elim⟩
  | written changes next encodes small =>
    have mirrored := encode_mirrors sound encodes
    have raised := (checkedNext_eq_ok next).2
    refine ⟨fun _ => mirrored, fun _ => ⟨_, mirrors.fileRevision,
      mirrored.fileRevision.trans (congrArg some raised)⟩, ?_, nofun⟩
    rintro (⟨e, failed, -⟩ | same)
    · cases failed
    · have still := congrArg (·.payload.revision.toNat) same
      exact absurd (raised.symm.trans still) (Nat.succ_ne_self _)
  | unknown applied changes next encodes small =>
    have mirrored := encode_mirrors sound encodes
    have raised := (checkedNext_eq_ok next).2
    refine ⟨nofun, fun written => ?_, ?_, fun _ => rfl⟩
    · cases applied with
      | false => exact absurd rfl written
      | true =>
        exact ⟨_, mirrors.fileRevision, mirrored.poison.fileRevision.trans (congrArg some raised)⟩
    · rintro (⟨e, failed, definite⟩ | same)
      · exact absurd (Except.error.inj failed).symm definite
      · have still : true = w.vault.poisoned := congrArg (·.poisoned) same
        exact absurd (still.trans usable) nofun

theorem Performed.revision_le (h : Performed lib turn w call result after) :
    after.vault.payload.revision.toNat ≤ w.vault.payload.revision.toNat + 1 := by
  cases h with
  | kept definite idle => exact Nat.le_succ _
  | written changes next encodes small => exact (checkedNext_eq_ok next).2.le
  | unknown applied changes next encodes small => exact (checkedNext_eq_ok next).2.le

theorem history_accounted (sound : lib.Sound) (mirrors : w.vault.poisoned = false → Mirrors lib w)
    (room : w.vault.payload.revision.toNat + calls.length < 2 ^ 64 - 1) :
    ∀ x ∈ history lib calls w, x.Accounted lib := by
  induction calls generalizing w with
  | nil => simp [history]
  | cons step calls ih =>
    obtain ⟨turn, call⟩ := step
    cases usable : w.vault.poisoned with
    | true =>
      intro x mem
      rw [history_poisoned usable x mem]
      exact accounted_poisoned usable
    | false =>
      rw [history]
      split
      · simp
      · next result after performed =>
        have safe : ¬Overruns lib turn w.vault call := fun overruns => by
          have last := overruns.1
          omega
        have done := perform_cases usable safe performed
        have accounted := done.accounted sound usable (mirrors usable)
        have le := done.revision_le
        have left : after.vault.payload.revision.toNat + calls.length < 2 ^ 64 - 1 := by
          rw [List.length_cons] at room
          omega
        rintro x (_ | ⟨_, mem⟩)
        · exact accounted
        · exact ih accounted.mirrors left x mem

theorem history_after_unknown
    (accounted : ∀ x ∈ history lib calls w, x.Accounted lib) {earlier later : List Exchange}
    {x : Exchange} (shape : history lib calls w = earlier ++ x :: later)
    (unknown : x.result = .error .commitStateUnknown) :
    ∀ y ∈ later, y = ⟨x.after, .error .reloadRequired, x.after⟩ := by
  induction calls generalizing w earlier with
  | nil => simp [history] at shape
  | cons step calls ih =>
    obtain ⟨turn, call⟩ := step
    rw [history] at shape accounted
    split at shape
    · simp at shape
    · next result after performed =>
      rw [performed] at accounted
      cases earlier with
      | nil =>
        obtain ⟨rfl, rfl⟩ := List.cons.inj shape
        exact history_poisoned ((accounted _ List.mem_cons_self).refuses unknown)
      | cons first earlier =>
        exact ih (fun y mem => accounted y (List.mem_cons_of_mem _ mem)) (List.cons.inj shape).2

theorem reads_poisoned (poisoned : w.vault.poisoned = true) :
    (∀ secretRef kind, readUnlockedSecret secretRef kind w = some (.error .reloadRequired, w)) ∧
      commandHistory w = some (.error .reloadRequired, w) :=
  ⟨fun _ _ => ensureUsable_bind_poisoned poisoned _, ensureUsable_bind_poisoned poisoned _⟩

/-- From a freshly unlocked vault with revisions to spare, the file says what the vault says
after every call, until the state of a write is unknown; from there on every call is refused
and nothing is written. -/
theorem mirrors_or_refuses (sound : lib.Sound) {vault : UnlockedVault} {file password : Bytes}
    (fresh : unlock lib turn file password = .ok vault) (calls : List (Turn × Call))
    (room : vault.payload.revision.toNat + calls.length < 2 ^ 64 - 1) :
    Mirrors lib ⟨vault, some file⟩ ∧
    (∀ x ∈ history lib calls ⟨vault, some file⟩, x.Accounted lib) ∧
    ∀ earlier x later, history lib calls ⟨vault, some file⟩ = earlier ++ x :: later →
      x.result = .error .commitStateUnknown →
      (∀ y ∈ later, y = ⟨x.after, .error .reloadRequired, x.after⟩) ∧
      (∀ secretRef kind,
        readUnlockedSecret secretRef kind x.after = some (.error .reloadRequired, x.after)) ∧
      commandHistory x.after = some (.error .reloadRequired, x.after) := by
  obtain ⟨-, opens⟩ := unlock_eq_ok.mp fresh
  have accounted : ∀ x ∈ history lib calls ⟨vault, some file⟩, x.Accounted lib :=
    history_accounted sound (fun _ => opens.mirrors) room
  refine ⟨opens.mirrors, accounted, fun earlier x later shape unknown => ?_⟩
  have poisoned := (accounted x (by simp [shape])).refuses unknown
  exact ⟨history_after_unknown accounted shape unknown, reads_poisoned poisoned⟩

end

def tabled (payloads : List VaultPayloadV1) (envelopes : List VaultEnvelope) : Primitives where
  argon2 _ _ := some blankKey
  encrypt _ _ _ message := some (0 :: message)
  decrypt _ _ _ ciphertext := some ciphertext.tail
  sha256Hex _ := ""
  keyWrapAad _ := some []
  payloadAad _ := some []
  encodePayload payload := (payloads.idxOf? payload).map (List.replicate · 0)
  decodePayload bytes := payloads[bytes.length]?
  encodeEnvelope envelope := (envelopes.idxOf? envelope).map fun i => List.replicate (i + 1) 0
  decodeEnvelope bytes := envelopes[bytes.length - 1]?

theorem getElem?_of_idxOf? {α : Type} [BEq α] [LawfulBEq α] {l : List α} {a : α} {i : Nat}
    (h : l.idxOf? a = some i) : l[i]? = some a := by
  obtain ⟨bound, found, -⟩ := List.idxOf?_eq_some_iff.mp h
  exact List.getElem?_eq_some_iff.mpr ⟨bound, found⟩

theorem tabled_sound (payloads : List VaultPayloadV1) (envelopes : List VaultEnvelope) :
    (tabled payloads envelopes).Sound where
  decrypts encrypted := by
    cases encrypted
    exact ⟨rfl, nofun⟩
  decodesPayload encoded := by
    obtain ⟨i, found, rfl⟩ := Option.map_eq_some_iff.mp encoded
    simp only [tabled, List.length_replicate]
    exact getElem?_of_idxOf? found
  decodesEnvelope encoded := by
    obtain ⟨i, found, rfl⟩ := Option.map_eq_some_iff.mp encoded
    simp only [tabled, List.length_replicate, Nat.add_sub_cancel]
    exact ⟨getElem?_of_idxOf? found, nofun⟩

def zeroNonce : Block nonceBytes := ⟨List.replicate nonceBytes 0, rfl⟩

def keyedPassword (revision : UInt64) : UnlockedVault :=
  (onePassword revision).withWrap
    ⟨kdfId, kdfProfile, kdfMemoryKib, kdfIterations, kdfParallelism,
      base64 (List.replicate saltBytes 0)⟩
    (sealedSection zeroNonce (0 :: List.replicate keyBytes 0))

def keyedLibrary (revision : UInt64) : Primitives :=
  tabled [(keyedPassword revision).payload]
    [(keyedPassword revision).envelope (sealedSection zeroNonce [0])]

section

variable (revision : UInt64)

theorem keyed_kdf :
    validateKdfParameters (keyedPassword revision).kdf = .ok () := by
  simp only [validateKdfParameters, Check.bind_eq_ok, Check.reject_eq_ok, orFail_eq_ok]
  exact ⟨(), by simp [keyedPassword, UnlockedVault.withWrap], _, fromBase64_base64 _, by decide⟩

theorem keyed_encodes :
    encodeCurrentEnvelope (keyedLibrary revision) { quiet with payloadNonce := some zeroNonce }
      (keyedPassword revision) = .ok [0] := by
  have payload : [(keyedPassword revision).payload].idxOf? (keyedPassword revision).payload =
    some 0 := by simp
  have envelope : [(keyedPassword revision).envelope (sealedSection zeroNonce [0])].idxOf?
    ((keyedPassword revision).envelope (sealedSection zeroNonce [0])) = some 0 := by simp
  simp only [encodeCurrentEnvelope, encryptPayload, Check.bind_eq_ok, orFail_eq_ok, fillRandom]
  refine ⟨[], ?_, _, ⟨zeroNonce, rfl, [], rfl, [0], rfl, rfl⟩, ?_⟩
  · exact congrArg (Option.map (List.replicate · 0)) payload
  · exact congrArg (Option.map fun i => List.replicate (i + 1) 0) envelope

theorem keyed_unwraps (password : Bytes) :
    UnwrapsWith (keyedLibrary revision) password (keyedPassword revision) := by
  refine ⟨⟨List.replicate keyBytes 0, rfl⟩, ?_, ?_⟩
  · simp only [deriveKey, keyed_kdf, Check.bind_eq_ok, orFail_eq_ok]
    exact ⟨(), trivial, _, fromBase64_base64 _, rfl⟩
  · simp only [unwrapVaultKeyParts, Check.bind_eq_ok, orFail_eq_ok]
    exact ⟨zeroNonce, decodeNonce_sealed _ _, _, fromBase64_base64 _, [], rfl, _, rfl, rfl⟩

theorem keyed_entries :
    ValidEntries (keyedPassword revision).payload.entries := by
  intro r entry found
  have mem := BTreeMap.mem_toList.mpr found
  cases List.mem_singleton.mp mem
  rfl

theorem keyed_opens (password : Bytes) :
    Opens (keyedLibrary revision) [0] password (keyedPassword revision) :=
  encode_opens (tabled_sound _ _)
    ⟨nofun, keyed_kdf revision, validate_sealed nofun, rfl, keyed_entries revision, rfl⟩
    (keyed_unwraps revision password) rfl (keyed_encodes revision) (by decide)

theorem keyed_unlock (password : Bytes) :
    unlock (keyedLibrary revision) quiet [0] password = .ok (keyedPassword revision) :=
  unlock_eq_ok.mpr ⟨rfl, keyed_opens revision password⟩

end

/-- A deletion that cannot be encoded, from a vault with revisions to spare. -/
theorem mirrors_or_refuses_keyed : (history (keyedLibrary 3) [(quiet, .deleteSecrets [7])]
      ⟨keyedPassword 3, some [0]⟩).map (·.result) = [.error .serialization] ∧
    ∀ x ∈ history (keyedLibrary 3) [(quiet, .deleteSecrets [7])] ⟨keyedPassword 3, some [0]⟩,
      x.Accounted (keyedLibrary 3) :=
  ⟨by decide +kernel, (mirrors_or_refuses (tabled_sound _ _) (keyed_unlock 3 []) _ (by decide)).2.1⟩

end NoriShell.Vault

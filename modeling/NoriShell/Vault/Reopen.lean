import NoriShell.Vault.Histories

namespace NoriShell.Vault

open Collections Collections.Check Stateful

/-- The last file that was written for certain, and the password in force then. -/
structure Saved where
  file : Bytes
  password : Bytes

structure Session where
  world : World
  saved : Saved

def passwordAfter (password : Bytes) : Call → Bytes
  | .changePassword _ newPassword => newPassword
  | _ => password

namespace Session

def record (s : Session) (call : Call) (result : Except VaultFailure Reply) (after : World) :
    Session where
  world := after
  saved :=
    match result, after.file with
    | .ok _, some file => ⟨file, passwordAfter s.saved.password call⟩
    | _, _ => s.saved

def run (lib : Primitives) : List (Turn × Call) → Session → Option Session
  | [], s => some s
  | (turn, call) :: calls, s =>
    match perform lib turn call s.world with
    | none => none
    | some (result, after) => run lib calls (s.record call result after)

/-- The sessions that `create` and `unlock` begin.  The identifiers of new vaults are not
nil. -/
inductive Opened (lib : Primitives) : Session → Prop
  | created {turn : Turn} {password file : Bytes} {vaultId : Uuid} {masterKey : Option Key}
    {w : World} (identified : vaultId ≠ 0)
    (done : create lib turn password vaultId masterKey = .ok w) (written : w.file = some file) :
    Opened lib ⟨w, file, password⟩
  | unlocked {turn : Turn} {file password : Bytes} {vault : UnlockedVault}
    (done : unlock lib turn file password = .ok vault) :
    Opened lib ⟨⟨vault, some file⟩, file, password⟩

end Session

section

variable {lib : Primitives} {turn : Turn} {vault changed : UnlockedVault} {password : Bytes}
  {call : Call}

variable {kdf : KdfHeader} {wrapped : CiphertextSection}

theorem deriveKey_valid {key : Key} (h : deriveKey lib password kdf = .ok key) :
    validateKdfParameters kdf = .ok () := by
  simp only [deriveKey, Check.bind_eq_ok] at h
  obtain ⟨_, valid, -⟩ := h
  exact valid

theorem wrapVaultKey_eq_ok (sound : lib.Sound) {vaultId : Uuid}
    {key masterKey : Key} {nonce : Option (Block nonceBytes)}
    (h : wrapVaultKey lib vaultId kdf key masterKey nonce = .ok wrapped) :
    validateCiphertextSection wrapped = .ok () ∧
      unwrapVaultKeyParts lib vaultId kdf wrapped key = .ok masterKey := by
  simp only [wrapVaultKey, fillRandom, Check.bind_eq_ok, orFail_eq_ok] at h
  obtain ⟨nonce, -, aad, bound, ciphertext, encrypted, made⟩ := h
  cases made
  obtain ⟨decrypted, nonempty⟩ := sound.decrypts encrypted
  refine ⟨validate_sealed nonempty, ?_⟩
  change unwrapVaultKeyParts lib vaultId kdf (sealedSection nonce ciphertext) key = _
  simp only [unwrapVaultKeyParts, decodeNonce_sealed, Check.bind_eq_ok, orFail_eq_ok]
  exact ⟨nonce, rfl, ciphertext, fromBase64_base64 ciphertext, aad, bound, masterKey.val, decrypted,
    dif_pos masterKey.property⟩

theorem wrapped_unwraps (sound : lib.Sound) {key : Key} {nonce : Option (Block nonceBytes)}
    (derived : deriveKey lib password kdf = .ok key)
    (made : wrapVaultKey lib vault.vaultId kdf key vault.vaultMasterKey nonce = .ok wrapped) :
    UnwrapsWith lib password (vault.withWrap kdf wrapped) :=
  ⟨key, derived, (wrapVaultKey_eq_ok sound made).2⟩

theorem newWrap_eq_ok {currentPassword newPassword : Bytes}
    (h : newWrap lib turn vault currentPassword newPassword = .ok (kdf, wrapped)) :
    ∃ key, deriveKey lib newPassword kdf = .ok key ∧
      wrapVaultKey lib vault.vaultId kdf key vault.vaultMasterKey turn.wrapNonce = .ok wrapped := by
  simp only [newWrap, Check.bind_eq_ok] at h
  obtain ⟨_, -, _, -, _, -, _, -, _, -, key, derived, _, made, same⟩ := h
  cases same
  exact ⟨key, derived, made⟩

theorem Changed.wellFormed (sound : lib.Sound) (h : Changed lib turn vault call changed)
    (formed : vault.WellFormed) : changed.WellFormed := by
  cases h with
  | contents samePassword validEntries validHistory =>
    exact { formed with
      entries := validEntries formed.entries
      history := validHistory formed.history }
  | wrap made =>
    obtain ⟨key, derived, made⟩ := newWrap_eq_ok made
    exact { formed with
      kdf := deriveKey_valid derived
      wrapped := (wrapVaultKey_eq_ok sound made).1 }

theorem Changed.unwraps (sound : lib.Sound) (h : Changed lib turn vault call changed)
    (unwraps : UnwrapsWith lib password vault) :
    UnwrapsWith lib (passwordAfter password call) changed := by
  cases h with
  | contents samePassword validEntries validHistory =>
    have same : passwordAfter password call = password := by
      cases call with
      | changePassword current new => exact absurd rfl (samePassword current new)
      | _ => rfl
    rw [same]
    exact unwraps
  | wrap made =>
    obtain ⟨key, derived, made⟩ := newWrap_eq_ok made
    exact wrapped_unwraps sound derived made

theorem newVault_eq_ok (sound : lib.Sound) {vaultId : Uuid} {masterKey : Option Key}
    (identified : vaultId ≠ 0) (h : newVault lib turn password vaultId masterKey = .ok vault) :
    vault.WellFormed ∧ UnwrapsWith lib password vault ∧ vault.poisoned = false := by
  simp only [newVault, Check.bind_eq_ok] at h
  obtain ⟨_, -, kdf, -, key, derived, master, -, wrapped, made, same⟩ := h
  cases same
  obtain ⟨valid, unwrapped⟩ := wrapVaultKey_eq_ok sound made
  refine ⟨⟨identified, deriveKey_valid derived, valid, rfl, ?_, rfl⟩, ⟨key, derived, unwrapped⟩, rfl⟩
  intro r entry found
  cases found

end

/-- A deletion that takes secrets out of a vault without a next revision. -/
def Loses (vault : UnlockedVault) (call : Call) : Prop :=
  vault.poisoned = false ∧ vault.payload.revision.toNat = 2 ^ 64 - 1 ∧
    ∃ secretRefs unique, call = .deleteSecrets secretRefs ∧ uniqueRefs secretRefs = .ok unique ∧
      removedEntries vault.payload.entries unique.toList ≠ []

namespace Session

/-- The vault is the one in the file.  At the last revision, its key wrap need not be. -/
structure Current (s : Session) (vault : UnlockedVault) : Prop where
  usable : s.world.vault.poisoned = false
  file : s.world.file = some s.saved.file
  payload : s.world.vault.payload = vault.payload
  same : s.world.vault.payload.revision.toNat ≠ 2 ^ 64 - 1 → s.world.vault = vault

/-- The vault has lost a secret for good, or is ahead of the file for good. -/
inductive Stale (s : Session) (vault : UnlockedVault) : Prop
  | lost {r : SecretRefId} (usable : s.world.vault.poisoned = false)
    (file : s.world.file = some s.saved.file)
    (last : s.world.vault.payload.revision.toNat = 2 ^ 64 - 1)
    (had : vault.payload.entries.get? r ≠ none)
    (gone : s.world.vault.payload.entries.get? r = none)
  | ahead (poisoned : s.world.vault.poisoned = true)
    (moved : s.world.vault.payload.revision ≠ vault.payload.revision)

section

variable {lib : Primitives} {turn : Turn} {s t : Session} {vault : UnlockedVault} {call : Call}
  {result : Except VaultFailure Reply} {after : World}

@[simp] theorem record_error {e : VaultFailure} :
    s.record call (.error e) after = ⟨after, s.saved⟩ := rfl

theorem record_kept (file : s.world.file = some s.saved.file)
    (idle : ∀ reply, result = .ok reply → ∀ current new, call ≠ .changePassword current new) :
    s.record call result s.world = s := by
  cases result with
  | error e => rfl
  | ok reply =>
    have same : passwordAfter s.saved.password call = s.saved.password := by
      cases call with
      | changePassword current new => exact absurd rfl (idle reply rfl current new)
      | _ => rfl
    simp only [record, file, same]

theorem perform_last (usable : s.world.vault.poisoned = false)
    (last : s.world.vault.payload.revision.toNat = 2 ^ 64 - 1)
    (file : s.world.file = some s.saved.file)
    (h : perform lib turn call s.world = some (result, after)) :
    result ≠ .error .commitStateUnknown ∧
    (s.record call result after = s ∧ ¬Loses s.world.vault call ∨
    (∃ kdf wrapped, s.record call result after =
      ⟨⟨s.world.vault.withWrap kdf wrapped, s.world.file⟩, s.saved⟩ ∧
      ¬Loses s.world.vault call) ∨
    ∃ refs, removedEntries s.world.vault.payload.entries refs ≠ [] ∧
      s.record call result after = ⟨⟨s.world.vault.withEntries
        (refs.foldl .erase s.world.vault.payload.entries), s.world.file⟩, s.saved⟩ ∧
      Loses s.world.vault call) := by
  by_cases overruns : Overruns lib turn s.world.vault call
  · obtain ⟨-, first⟩ := overruns
    cases call with
    | deleteSecrets secretRefs =>
      obtain ⟨unique, distinct, some_⟩ := first
      rw [perform_delete_overrun lib turn usable last distinct some_] at h
      cases h
      exact ⟨by decide, .inr (.inr ⟨unique.toList, some_, rfl,
        usable, last, secretRefs, unique, rfl, distinct, some_⟩)⟩
    | changePassword currentPassword newPassword =>
      obtain ⟨wrap, made, -⟩ := first
      rw [perform_password_eq lib turn usable made last] at h
      cases h
      refine ⟨by decide, .inr (.inl ⟨wrap.1, wrap.2, rfl, ?_⟩)⟩
      rintro ⟨-, -, _, _, same, -⟩
      cases same
    | insertSecretsWithRefs secrets => exact first.elim
    | replaceSecretWithRef secret => exact first.elim
    | replaceCommandHistory history => exact first.elim
    | mergeEncryptedEnvelope encryptedEnvelope sourcePassword reservedRefs => exact first.elim
  · have keeps : ¬Loses s.world.vault call := by
      rintro ⟨-, -, secretRefs, unique, rfl, distinct, some_⟩
      exact overruns ⟨last, unique, distinct, some_⟩
    cases perform_cases usable overruns h with
    | kept definite idle => exact ⟨definite, .inl ⟨record_kept file idle, keeps⟩⟩
    | written changes next encodes small => exact absurd last (checkedNext_eq_ok next).1
    | unknown applied changes next encodes small => exact absurd last (checkedNext_eq_ok next).1

theorem Stale.step (stale : s.Stale vault)
    (h : perform lib turn call s.world = some (result, after)) :
    (s.record call result after).Stale vault ∧ (s.record call result after).saved = s.saved := by
  cases stale with
  | ahead poisoned moved =>
    rw [perform_poisoned poisoned] at h
    cases h
    exact ⟨.ahead poisoned moved, rfl⟩
  | lost usable file last had gone =>
    obtain ⟨-, ⟨same, -⟩ | ⟨kdf, wrapped, same, -⟩ | ⟨refs, -, same, -⟩⟩ :=
      perform_last usable last file h
    · rw [same]
      exact ⟨.lost usable file last had gone, rfl⟩
    · rw [same]
      exact ⟨.lost usable file last had gone, rfl⟩
    · rw [same]
      refine ⟨.lost usable file last had ?_, rfl⟩
      change (refs.foldl .erase s.world.vault.payload.entries).get? _ = none
      rw [get?_eraseAll, gone, ite_self]

theorem Current.step (sound : lib.Sound) (opens : Opens lib s.saved.file s.saved.password vault)
    (current : s.Current vault) (h : perform lib turn call s.world = some (result, after)) :
    ∃ vault', Opens lib (s.record call result after).saved.file
        (s.record call result after).saved.password vault' ∧
      ((s.record call result after).Current vault' ∧ ¬Loses s.world.vault call ∧
          result ≠ .error .commitStateUnknown ∨
        (s.record call result after).Stale vault' ∧ (Loses s.world.vault call ∨
          result = .error .commitStateUnknown)) := by
  by_cases last : s.world.vault.payload.revision.toNat = 2 ^ 64 - 1
  · refine ⟨vault, ?_⟩
    obtain ⟨definite, ⟨same, keeps⟩ | ⟨kdf, wrapped, same, keeps⟩ | ⟨refs, some_, same, loses⟩⟩ :=
      perform_last current.usable last current.file h
    · rw [same]
      exact ⟨opens, .inl ⟨current, keeps, definite⟩⟩
    · rw [same]
      exact ⟨opens, .inl ⟨⟨current.usable, current.file, current.payload, (absurd last ·)⟩, keeps,
        definite⟩⟩
    · rw [same]
      obtain ⟨⟨r, entry⟩, mem⟩ := List.exists_mem_of_ne_nil _ some_
      obtain ⟨mem, found⟩ := mem_removedEntries.mp mem
      refine ⟨opens, .inr ⟨.lost (r := r) current.usable current.file last ?_ ?_, .inl loses⟩⟩
      · rw [← current.payload, found]
        nofun
      · change (refs.foldl .erase s.world.vault.payload.entries).get? r = none
        rw [get?_eraseAll, if_pos mem]
  · have same := current.same last
    have keeps : ¬Loses s.world.vault call := fun loses => last loses.2.1
    have safe : ¬Overruns lib turn s.world.vault call := fun overruns => last overruns.1
    cases perform_cases current.usable safe h with
    | kept definite idle =>
      rw [record_kept current.file idle]
      exact ⟨vault, opens, .inl ⟨current, keeps, definite⟩⟩
    | @written reply changed revision parent bytes changes next encodes small =>
      rw [same] at changes
      have formed := changes.wellFormed sound opens.wellFormed
      have unwraps := changes.unwraps sound opens.unwraps
      have usable := changes.usable.trans opens.usable
      exact ⟨(changed.withRevision revision).withParent parent,
        encode_opens sound { formed with } unwraps usable encodes small,
        .inl ⟨⟨usable, rfl, rfl, fun _ => rfl⟩, keeps, nofun⟩⟩
    | unknown applied changes next encodes small =>
      refine ⟨vault, opens, .inr ⟨.ahead rfl fun still => ?_, .inr rfl⟩⟩
      have raised := (checkedNext_eq_ok next).2
      rw [same] at raised
      exact absurd (raised.symm.trans (congrArg _ still)) (Nat.succ_ne_self _)

theorem Opened.current (sound : lib.Sound) (opened : Opened lib s) :
    ∃ vault, Opens lib s.saved.file s.saved.password vault ∧ s.Current vault := by
  cases opened with
  | unlocked done =>
    obtain ⟨-, opens⟩ := unlock_eq_ok.mp done
    exact ⟨_, opens, opens.usable, rfl, rfl, fun _ => rfl⟩
  | @created turn password file vaultId masterKey w identified done written =>
    obtain ⟨vault, made, done⟩ := Check.bind_eq_ok.mp done
    obtain ⟨formed, unwraps, usable⟩ := newVault_eq_ok sound identified made
    have outcome : Persisted lib turn ⟨vault, none⟩ _ := persist_cases usable
    split at done
    · next saved =>
      cases done
      rw [saved] at outcome
      cases outcome with
      | @done parent encoded encodes small =>
        cases written
        exact ⟨vault.withParent parent,
          encode_opens sound { formed with } unwraps usable encodes small, usable, rfl, rfl,
          fun _ => rfl⟩
    · cases done
    · cases done

end

end Session

end NoriShell.Vault

import NoriShell.Vault.Unlocked

/-! The operations of the unlocked vault as transactions: each proposes a vault, and keeps
the old one unless the proposal was written. -/

namespace NoriShell.Vault

open Collections Collections.Check Stateful

section

variable {α : Type} {w : World}

@[simp] theorem theVault_bind (rest : UnlockedVault → Action α) :
    (theVault >>= rest) w = rest w.vault w := rfl

@[simp] theorem update_bind (f : UnlockedVault → UnlockedVault) (rest : Unit → Action α) :
    (update f >>= rest) w = rest () { w with vault := f w.vault } := rfl

@[simp] theorem update_apply (f : UnlockedVault → UnlockedVault) :
    update f w = some (.ok (), { w with vault := f w.vault }) := rfl

theorem ensureUsable_bind (h : w.vault.poisoned = false) (rest : Unit → Action α) :
    (ensureUsable >>= rest) w = rest () w := by
  apply bind_of_ok
  simp [ensureUsable, h]

theorem ensureUsable_bind_poisoned (h : w.vault.poisoned = true) (rest : Unit → Action α) :
    (ensureUsable >>= rest) w = some (.error .reloadRequired, w) := by
  apply bind_of_error
  simp [ensureUsable, h]

end

section

variable {lib : Primitives} {turn : Turn}

@[simp] theorem orFail_avoids {ε α : Type} {value : Option α} {e e' : ε} (h : e' ≠ e) :
    Avoids e (orFail value e') := by
  cases value with
  | none => exact .error h
  | some value => exact .ok

@[simp] theorem encryptPayload_avoids (vaultId : Uuid) (key : Key) (plaintext : Bytes)
    (nonce : Option (Block nonceBytes)) :
    Avoids .commitStateUnknown (encryptPayload lib vaultId key plaintext nonce) := by
  simp [encryptPayload, fillRandom]

@[simp] theorem encodeCurrentEnvelope_avoids (vault : UnlockedVault) :
    Avoids .commitStateUnknown (encodeCurrentEnvelope lib turn vault) := by
  simp [encodeCurrentEnvelope]

@[simp] theorem FileError.failure_ne (error : FileError) : error.failure ≠ .commitStateUnknown := by
  cases error <;> simp [failure]

@[simp] theorem readBounded_avoids (file : Bytes) :
    Avoids .commitStateUnknown (readBounded turn file) := by
  unfold readBounded
  split <;> simp

theorem currentEnvelopeDigest_avoids (file : Option Bytes) :
    Avoids .commitStateUnknown (currentEnvelopeDigest lib turn file) := by
  cases file <;> simp [currentEnvelopeDigest]

inductive Persisted (lib : Primitives) (turn : Turn) (w : World) :
    Option (Except VaultFailure Unit × World) → Prop
  | failed {e : VaultFailure} (definite : e ≠ .commitStateUnknown) :
    Persisted lib turn w (some (.error e, w))
  | done {parent : Option String} {encoded : Bytes}
    (encodes : encodeCurrentEnvelope lib turn (w.vault.withParent parent) = .ok encoded)
    (small : encoded.length ≤ maxVaultFileBytes) :
    Persisted lib turn w (some (.ok (), ⟨w.vault.withParent parent, some encoded⟩))
  | unknown {parent : Option String} {encoded : Bytes} (applied : Bool)
    (encodes : encodeCurrentEnvelope lib turn (w.vault.withParent parent) = .ok encoded)
    (small : encoded.length ≤ maxVaultFileBytes) :
    Persisted lib turn w (some (.error .commitStateUnknown,
      ⟨(w.vault.withParent parent).poison, if applied then some encoded else w.file⟩))

theorem UnlockedVault.withParent_self (vault : UnlockedVault) (parent : Option String) :
    (vault.withParent parent).withParent vault.payload.parentEnvelopeSha256 = vault := rfl

theorem persist_cases {w : World} (usable : w.vault.poisoned = false) :
    Persisted lib turn w (persist lib turn w) := by
  rw [persist, ensureUsable_bind usable, theVault_bind, state_bind]
  cases digest : currentEnvelopeDigest lib turn w.file with
  | error e =>
    exact .failed fun same => currentEnvelopeDigest_avoids w.file (same ▸ digest)
  | ok parent =>
    rw [check_ok_bind, update_bind, theVault_bind]
    cases encodes : encodeCurrentEnvelope lib turn (w.vault.withParent parent) with
    | error e =>
      exact .failed fun same => encodeCurrentEnvelope_avoids _ (same ▸ encodes)
    | ok encoded =>
      by_cases large : encoded.length > maxVaultFileBytes
      · simp only [large, if_true]
        exact .failed (by decide)
      · simp only [large, if_false]
        have small : encoded.length ≤ maxVaultFileBytes := Nat.le_of_not_lt large
        rcases written : turn.write with _ | error | applied
        · rw [bind_of_ok (attempt_of_some (by simp only [atomicWrite, written]; rfl))]
          exact .done encodes small
        · rw [bind_of_ok (attempt_of_some (by simp only [atomicWrite, written]; rfl))]
          simp only [error.failure_ne, if_false]
          exact .failed error.failure_ne
        · rw [bind_of_ok (attempt_of_some (by simp only [atomicWrite, written]; rfl))]
          exact .unknown applied encodes small

end

abbrev Proposal := Reply × Option UnlockedVault

section

variable (lib : Primitives) (turn : Turn) (vault : UnlockedVault)

def advance (changed : UnlockedVault) : Except VaultFailure Proposal := do
  let revision ← checkedNext vault.payload.revision
  pure (.done, some (changed.withRevision revision))

def draftInsert (secrets : List VaultSecretInsert) : Except VaultFailure Proposal := do
  ofSecrets (validateSecretBatch vault.payload.entries secrets)
  advance vault (vault.withEntries (vault.payload.entries.extend
    (secrets.map fun secret => (secret.secretRefId, secret.entry))))

def draftReplace (secret : VaultSecretInsert) : Except VaultFailure Proposal := do
  ofSecrets (validateSecretBatch .empty [secret])
  let revision ← checkedNext vault.payload.revision
  let previous ← orFail (vault.payload.entries.get? secret.secretRefId)
    (.secretNotFound secret.secretRefId)
  reject (previous.kind ≠ secret.kind) (.vault (.secretKindMismatch previous.kind secret.kind))
  pure (.done, some ((vault.withEntries
    (vault.payload.entries.insert secret.secretRefId secret.entry)).withRevision revision))

def uniqueRefs (secretRefs : List SecretRefId) : Except VaultFailure (BTreeSet SecretRefId) := do
  reject (secretRefs = []) (.vault .emptySecretBatch)
  reject (secretRefs.length > maxSecretBatchEntries)
    (.vault (.secretBatchTooLarge maxSecretBatchEntries))
  ofSecrets (secretRefs.foldlM admitDeletion .empty)

def draftDelete (secretRefs : List SecretRefId) : Except VaultFailure Proposal := do
  let unique ← uniqueRefs secretRefs
  if removedEntries vault.payload.entries unique.toList = [] then pure (.done, none)
  else advance vault (vault.withEntries (unique.toList.foldl .erase vault.payload.entries))

def draftHistory (history : CommandHistoryPayload) : Except VaultFailure Proposal := do
  validateCommandHistory history
  advance vault (vault.withHistory history)

def draftPassword (currentPassword newPassword : Bytes) : Except VaultFailure Proposal := do
  let (kdf, wrapped) ← newWrap lib turn vault currentPassword newPassword
  advance vault (vault.withWrap kdf wrapped)

def openSource (encryptedEnvelope sourcePassword : Bytes) : Except VaultFailure VaultPayloadV1 := do
  let envelope ← parseEncryptedVaultEnvelope lib encryptedEnvelope
  let (_, source) ← unlockVaultEnvelope lib envelope sourcePassword
  pure source

def mergedHistory (payload source : VaultPayloadV1) : Option HistoryMerge :=
  source.commandHistory.entries.foldlM mergeHistoryEntry
    { entries := payload.commandHistory.entries
      historyIds := .ofList (payload.commandHistory.entries.map (·.entryId))
      ids := turn.ids
      summary := {} }

def usedRefs (payload source : VaultPayloadV1) (reservedRefs : List SecretRefId) :
    BTreeSet SecretRefId :=
  ((BTreeSet.ofList payload.entries.keys).extend reservedRefs).extend source.entries.keys

def draftSource (source : VaultPayloadV1) (reservedRefs : List SecretRefId) :
    Option (Except VaultFailure Proposal) := do
  let payload := vault.payload
  let merge ← mergedHistory turn payload source
  let history := { payload.commandHistory with entries := merge.entries }
  match validateCommandHistory history with
  | .error e => some (.error e)
  | .ok () =>
    let imported ← importSecrets (usedRefs payload source reservedRefs) merge.ids
      (source.entries.toList.map (·.2))
    let summary : VaultMergeSummary :=
      { merge.summary with importedSecrets := imported.length }
    if summary.importedSecrets = 0 ∧ summary.importedHistoryEntries = 0 then
      some (.ok (.merged summary, none))
    else
      some do
        let revision ← checkedNext payload.revision
        pure (.merged summary, some (((vault.withEntries
          (payload.entries.extend imported)).withHistory history).withRevision revision))

def draftMerge (encryptedEnvelope sourcePassword : Bytes) (reservedRefs : List SecretRefId) :
    Option (Except VaultFailure Proposal) :=
  match openSource lib encryptedEnvelope sourcePassword with
  | .error e => some (.error e)
  | .ok source => draftSource turn vault source reservedRefs

def draft : Call → Option (Except VaultFailure Proposal)
  | .insertSecretsWithRefs secrets => some (draftInsert vault secrets)
  | .replaceSecretWithRef secret => some (draftReplace vault secret)
  | .deleteSecrets secretRefs => some (draftDelete vault secretRefs)
  | .replaceCommandHistory history => some (draftHistory vault history)
  | .changePassword currentPassword newPassword =>
    some (draftPassword lib turn vault currentPassword newPassword)
  | .mergeEncryptedEnvelope encryptedEnvelope sourcePassword reservedRefs =>
    draftMerge lib turn vault encryptedEnvelope sourcePassword reservedRefs

end

/-- A transaction keeps the old world unless its proposal was written, or may have been. -/
def transact (save : Action Unit) (proposal : Option (Except VaultFailure Proposal)) :
    Action Reply := fun w =>
  match proposal with
  | none => none
  | some (.error e) => some (.error e, w)
  | some (.ok (reply, none)) => some (.ok reply, w)
  | some (.ok (reply, some next)) =>
    match save { w with vault := next } with
    | none => none
    | some (.ok (), written) => some (.ok reply, written)
    | some (.error e, left) => some (.error e, if e = .commitStateUnknown then left else w)

def deleteUnique (save : Action Unit) (unique : BTreeSet SecretRefId) : Action Unit := do
  let removed := removedEntries (← theVault).payload.entries unique.toList
  update fun vault => vault.withEntries (unique.toList.foldl .erase vault.payload.entries)
  if removed = [] then
    return ()
  else
    let previousRevision := (← theVault).payload.revision
    let nextRevision ← check (checkedNext previousRevision)
    update (·.withRevision nextRevision)
    persistOr save do
      update fun vault => vault.withEntries (vault.payload.entries.extend removed)
      update (·.withRevision previousRevision)

def mergeSource (save : Action Unit) (turn : Turn) (source : VaultPayloadV1)
    (reservedRefs : List SecretRefId) : Action VaultMergeSummary := do
  let payload := (← theVault).payload
  let history ← await (mergedHistory turn payload source)
  let mergedHistory := { payload.commandHistory with entries := history.entries }
  check (validateCommandHistory mergedHistory)
  let imported ← await (importSecrets (usedRefs payload source reservedRefs) history.ids
    (source.entries.toList.map (·.2)))
  let summary : VaultMergeSummary := { history.summary with importedSecrets := imported.length }
  if summary.importedSecrets = 0 ∧ summary.importedHistoryEntries = 0 then
    return summary
  else
    let previousRevision := payload.revision
    let nextRevision ← check (checkedNext previousRevision)
    update fun vault => vault.withEntries (vault.payload.entries.extend imported)
    update (·.withHistory mergedHistory)
    update (·.withRevision nextRevision)
    persistOr save do
      update fun vault => vault.withEntries
        ((imported.map (·.1)).foldl .erase vault.payload.entries)
      update (·.withHistory payload.commandHistory)
      update (·.withRevision previousRevision)
    return summary

section

variable {lib : Primitives} {turn : Turn} {w : World} {next : UnlockedVault}

/-- A write that is undone on a definite failure is a transaction. -/
theorem persistOr_eq_transact (usable : next.poisoned = false) {undo : Action Unit}
    (undone : undo { w with vault := next } = some (.ok (), w)) (reply : Reply) :
    (persistOr (persist lib turn) undo >>= fun _ => pure reply) { w with vault := next } =
      transact (persist lib turn) (some (.ok (reply, some next))) w := by
  have outcome : Persisted lib turn { w with vault := next } _ := persist_cases usable
  generalize saved : persist lib turn { w with vault := next } = result at outcome
  rw [persistOr, bind_bind]
  cases outcome with
  | failed definite =>
    rw [bind_of_ok (attempt_of_some saved), transact, saved]
    simp only [definite, if_false, bind_bind]
    rw [bind_of_ok undone]
    rfl
  | done encodes small =>
    rw [bind_of_ok (attempt_of_some saved), transact, saved]
    rfl
  | unknown applied encodes small =>
    rw [bind_of_ok (attempt_of_some saved), transact, saved]
    rfl

theorem rewritten_eq_transact (usable : next.poisoned = false) {undo : Action Unit}
    (undone : undo { w with vault := next } = some (.ok (), w)) (reply : Reply) :
    (attempt (persist lib turn) >>= fun result => (match result with
      | .ok () => pure ()
      | .error error => if error ≠ .commitStateUnknown then undo >>= fun _ => fail error
        else fail error) >>= fun _ => pure reply) { w with vault := next } =
      transact (persist lib turn) (some (.ok (reply, some next))) w := by
  have outcome : Persisted lib turn { w with vault := next } _ := persist_cases usable
  generalize saved : persist lib turn { w with vault := next } = result at outcome
  rw [transact, saved]
  cases outcome with
  | failed definite =>
    rw [bind_of_ok (attempt_of_some saved)]
    simp only [definite, ne_eq, not_false_eq_true, if_true, if_false, bind_bind]
    rw [bind_of_ok undone]
    rfl
  | done encodes small =>
    rw [bind_of_ok (attempt_of_some saved)]
    rfl
  | unknown applied encodes small =>
    rw [bind_of_ok (attempt_of_some saved)]
    rfl

abbrev overflow : VaultFailure := .invalidEnvelope "revision overflow"

theorem checkedNext_of_last {revision : UInt64} (h : revision.toNat = 2 ^ 64 - 1) :
    checkedNext revision = .error overflow := if_pos h

theorem checkedNext_of_ne {revision : UInt64} (h : revision.toNat ≠ 2 ^ 64 - 1) :
    checkedNext revision = .ok (revision + 1) := if_neg h

variable {entries : SecretEntries} {ids : List Uuid}

theorem returns_restored (h : entries = w.vault.payload.entries) :
    (some (.ok (), { w with vault := w.vault.withEntries entries }) :
      Option (Except VaultFailure Unit × World)) = some (.ok (), w) := by
  rw [h]
  rfl

theorem restore_inserted {added : List (SecretRefId × SecretEntry)}
    (fresh : ∀ r ∈ added.map Prod.fst, entries.get? r = none) :
    (added.map Prod.fst).foldl .erase (entries.extend added) = entries := by
  ext r
  rw [get?_eraseAll]
  by_cases mem : r ∈ added.map Prod.fst
  · rw [if_pos mem, fresh r mem]
  · rw [if_neg mem, BTreeMap.get?_extend_of_notMem mem]

theorem mem_removedEntries {refs : List SecretRefId} {r : SecretRefId}
    {entry : SecretEntry} :
    (r, entry) ∈ removedEntries entries refs ↔ r ∈ refs ∧ entries.get? r = some entry := by
  simp only [removedEntries, List.mem_filterMap, Option.map_eq_some_iff, Prod.mk.injEq]
  constructor
  · rintro ⟨r, mem, entry, found, rfl, rfl⟩
    exact ⟨mem, found⟩
  · rintro ⟨mem, found⟩
    exact ⟨r, mem, entry, found, rfl, rfl⟩

theorem removedEntries_keys (entries : SecretEntries) (refs : List SecretRefId) :
    (removedEntries entries refs).map Prod.fst = refs.filter fun r => entries.contains r := by
  induction refs with
  | nil => rfl
  | cons r refs ih =>
    simp only [removedEntries, List.filterMap_cons, List.filter_cons, BTreeMap.contains]
    cases entries.get? r with
    | none => exact ih
    | some entry => exact congrArg (r :: ·) ih

theorem restore_removed (entries : SecretEntries) {refs : List SecretRefId} (nodup : refs.Nodup) :
    (refs.foldl .erase entries).extend (removedEntries entries refs) = entries := by
  have keys : ((removedEntries entries refs).map Prod.fst).Nodup := by
    rw [removedEntries_keys]
    exact nodup.filter _
  ext r
  by_cases mem : r ∈ (removedEntries entries refs).map Prod.fst
  · obtain ⟨⟨r, entry⟩, removed, rfl⟩ := List.mem_map.mp mem
    rw [BTreeMap.get?_extend_of_mem keys removed, (mem_removedEntries.mp removed).2]
  · rw [BTreeMap.get?_extend_of_notMem mem, get?_eraseAll]
    rw [removedEntries_keys, List.mem_filter, not_and] at mem
    by_cases gone : r ∈ refs
    · have absent := mem gone
      rw [BTreeMap.contains, Option.not_isSome_iff_eq_none] at absent
      rw [if_pos gone, absent]
    · rw [if_neg gone]

theorem validateSecretBatch_fresh {secrets : List VaultSecretInsert}
    {u : Unit} (h : ofSecrets (validateSecretBatch entries secrets) = .ok u) :
    ∀ r ∈ (secrets.map fun secret => (secret.secretRefId, secret.entry)).map Prod.fst,
      entries.get? r = none := by
  cases valid : validateSecretBatch entries secrets with
  | error e => rw [valid] at h; cases h
  | ok u =>
    simp only [validateSecretBatch, Check.bind_eq_ok] at valid
    obtain ⟨_, _, _, _, _, admitted, _⟩ := valid
    obtain ⟨absent, -⟩ := admitSecrets_eq_ok admitted
    intro r mem
    simp only [List.map_map, List.mem_map, Function.comp_apply] at mem
    obtain ⟨secret, mem, rfl⟩ := mem
    exact (absent secret mem).1

theorem drawUnused_notMem {used : BTreeSet Uuid} {rest : List Uuid} {id : Uuid}
    (h : drawUnused used ids = some (id, rest)) : id ∉ used := by
  induction ids with
  | nil => cases h
  | cons first ids ih =>
    rw [drawUnused] at h
    split at h
    · exact ih h
    · cases h
      assumption

/-- The imported entries are those given, under distinct references that were unused. -/
theorem importSecrets_eq_some {used : BTreeSet Uuid} {entries : List SecretEntry}
    {imported : List (SecretRefId × SecretEntry)}
    (h : importSecrets used ids entries = some imported) :
    imported.map Prod.snd = entries ∧ (imported.map Prod.fst).Nodup ∧
      ∀ r ∈ imported.map Prod.fst, r ∉ used := by
  induction entries generalizing used ids imported with
  | nil =>
    cases h
    simp
  | cons entry entries ih =>
    simp only [importSecrets, Option.bind_eq_bind, Option.bind_eq_some_iff,
      Option.some.injEq] at h
    obtain ⟨⟨id, ids⟩, drawn, later, rest, rfl⟩ := h
    obtain ⟨same, distinct, unused⟩ := ih rest
    refine ⟨congrArg (entry :: ·) same, List.nodup_cons.mpr ⟨fun again => ?_, distinct⟩, ?_⟩
    · exact unused id again (BTreeSet.mem_insert.mpr (.inl rfl))
    · intro r mem
      rcases List.mem_cons.mp mem with rfl | mem
      · exact drawUnused_notMem drawn
      · exact fun used => unused r mem (BTreeSet.mem_insert.mpr (.inr used))

theorem importSecrets_fresh {payload source : VaultPayloadV1} {reservedRefs : List SecretRefId}
    {entries : List SecretEntry} {imported : List (SecretRefId × SecretEntry)}
    (h : importSecrets (usedRefs payload source reservedRefs) ids entries = some imported) :
    ∀ r ∈ imported.map Prod.fst, payload.entries.get? r = none := by
  intro r mem
  by_contra present
  obtain ⟨entry, present⟩ := Option.ne_none_iff_exists'.mp present
  apply (importSecrets_eq_some h).2.2 r mem
  have key := BTreeMap.mem_keys.mpr ⟨entry, present⟩
  simp [usedRefs, key]

variable (lib turn) (usable : w.vault.poisoned = false)

include usable

theorem perform_insert (secrets : List VaultSecretInsert) :
    perform lib turn (.insertSecretsWithRefs secrets) w =
      transact (persist lib turn) (draft lib turn w.vault (.insertSecretsWithRefs secrets)) w := by
  simp only [perform, insertSecretsWithRefsUsing, bind_bind, draft, draftInsert, advance]
  rw [ensureUsable_bind usable, theVault_bind]
  cases valid : ofSecrets (validateSecretBatch w.vault.payload.entries secrets) with
  | error e => rfl
  | ok _ =>
    rw [check_ok_bind, theVault_bind]
    cases next : checkedNext w.vault.payload.revision with
    | error e => rfl
    | ok revision =>
      rw [check_ok_bind, update_bind, update_bind]
      refine persistOr_eq_transact (w := w) ?_ ?_ .done
      · exact usable
      · have restored := restore_inserted (validateSecretBatch_fresh valid)
        rw [List.map_map] at restored
        exact returns_restored restored

theorem perform_replace (secret : VaultSecretInsert) :
    perform lib turn (.replaceSecretWithRef secret) w =
      transact (persist lib turn) (draft lib turn w.vault (.replaceSecretWithRef secret)) w := by
  simp only [perform, replaceSecretWithRefUsing, bind_bind, draft, draftReplace]
  rw [ensureUsable_bind usable]
  cases valid : ofSecrets (validateSecretBatch .empty [secret]) with
  | error e => rfl
  | ok _ =>
    rw [check_ok_bind, theVault_bind]
    cases next : checkedNext w.vault.payload.revision with
    | error e => rfl
    | ok revision =>
      rw [check_ok_bind, theVault_bind]
      cases found : w.vault.payload.entries.get? secret.secretRefId with
      | none => rfl
      | some previous =>
        simp only [orFail, check_ok_bind]
        rw [update_bind]
        have restored : w.vault.payload.entries.insert secret.secretRefId previous =
          w.vault.payload.entries := BTreeMap.insert_of_get? found
        change _ = transact _ (some (reject _ _ >>= fun _ => pure _)) w
        by_cases other : previous.kind ≠ secret.kind
        · rw [if_pos other, bind_bind, update_bind, fail_bind, fail_apply, reject, if_pos other]
          simp only [UnlockedVault.withEntries, BTreeMap.insert_erase, restored]
          rfl
        · rw [if_neg other, bind_bind, update_bind, bind_bind, update_bind, reject, if_neg other]
          simp only [UnlockedVault.withEntries, BTreeMap.insert_erase]
          refine persistOr_eq_transact (w := w) ?_ ?_ .done
          · exact usable
          · exact returns_restored ((BTreeMap.insert_insert _ _ _ _).trans restored)

theorem perform_delete_eq (secretRefs : List SecretRefId) :
    perform lib turn (.deleteSecrets secretRefs) w =
      (check (uniqueRefs secretRefs) >>= fun unique =>
        deleteUnique (persist lib turn) unique >>= fun _ => pure .done) w := by
  simp only [perform, deleteSecretsUsing, bind_bind, uniqueRefs]
  rw [ensureUsable_bind usable]
  by_cases empty : secretRefs = []
  · simp only [reject, empty, if_true]
    rfl
  by_cases large : secretRefs.length > maxSecretBatchEntries
  · simp only [reject, empty, large, if_true, if_false]
    rfl
  simp only [reject, empty, large, if_false, check_ok_bind, deleteUnique, bind_bind]
  rfl

theorem perform_delete (secretRefs : List SecretRefId)
    (safe : ∀ unique, uniqueRefs secretRefs = .ok unique →
      removedEntries w.vault.payload.entries unique.toList ≠ [] →
      w.vault.payload.revision.toNat ≠ 2 ^ 64 - 1) :
    perform lib turn (.deleteSecrets secretRefs) w =
      transact (persist lib turn) (draft lib turn w.vault (.deleteSecrets secretRefs)) w := by
  rw [perform_delete_eq lib turn usable]
  simp only [draft, draftDelete, advance]
  cases distinct : uniqueRefs secretRefs with
  | error e => rfl
  | ok unique =>
    rw [check_ok_bind, deleteUnique, bind_bind, theVault_bind, bind_bind, update_bind]
    have restored := restore_removed w.vault.payload.entries unique.toList_nodup
    change _ = transact _ (some (if _ then _ else _)) w
    by_cases nothing : removedEntries w.vault.payload.entries unique.toList = []
    · rw [if_pos nothing, if_pos nothing]
      rw [nothing] at restored
      exact bind_of_ok (returns_restored restored)
    · rw [if_neg nothing, if_neg nothing, bind_bind, theVault_bind, bind_bind]
      change (check (checkedNext w.vault.payload.revision) >>= _) _ = _
      rw [checkedNext_of_ne (safe unique distinct nothing), check_ok_bind, bind_bind, update_bind]
      refine persistOr_eq_transact (w := w) ?_ ?_ .done
      · exact usable
      · exact returns_restored restored

theorem perform_delete_overrun {secretRefs : List SecretRefId} {unique : BTreeSet SecretRefId}
    (last : w.vault.payload.revision.toNat = 2 ^ 64 - 1)
    (distinct : uniqueRefs secretRefs = .ok unique)
    (some_ : removedEntries w.vault.payload.entries unique.toList ≠ []) :
    perform lib turn (.deleteSecrets secretRefs) w = some (.error overflow, { w with
        vault := w.vault.withEntries (unique.toList.foldl .erase w.vault.payload.entries) }) := by
  rw [perform_delete_eq lib turn usable, distinct, check_ok_bind, deleteUnique, bind_bind,
    theVault_bind, bind_bind, update_bind, if_neg some_, bind_bind, theVault_bind, bind_bind]
  change (check (checkedNext w.vault.payload.revision) >>= _) _ = _
  rw [checkedNext_of_last last]
  rfl

theorem perform_password_eq {currentPassword newPassword : Bytes}
    {wrap : KdfHeader × CiphertextSection}
    (made : newWrap lib turn w.vault currentPassword newPassword = .ok wrap)
    (last : w.vault.payload.revision.toNat = 2 ^ 64 - 1) :
    perform lib turn (.changePassword currentPassword newPassword) w =
      some (.error overflow, { w with vault := w.vault.withWrap wrap.1 wrap.2 }) := by
  simp only [perform, changePassword, bind_bind]
  rw [ensureUsable_bind usable, theVault_bind, made, check_ok_bind, update_bind, theVault_bind]
  change (check (checkedNext w.vault.payload.revision) >>= _) _ = _
  rw [checkedNext_of_last last]
  rfl

theorem perform_password (currentPassword newPassword : Bytes)
    (safe : ∀ wrap, newWrap lib turn w.vault currentPassword newPassword = .ok wrap →
      w.vault.payload.revision.toNat = 2 ^ 64 - 1 → wrap = (w.vault.kdf, w.vault.wrappedVaultKey)) :
    perform lib turn (.changePassword currentPassword newPassword) w = transact (persist lib turn)
        (draft lib turn w.vault (.changePassword currentPassword newPassword)) w := by
  cases made : newWrap lib turn w.vault currentPassword newPassword with
  | error e =>
    simp only [perform, changePassword, bind_bind, draft, draftPassword, made]
    rw [ensureUsable_bind usable, theVault_bind, made]
    rfl
  | ok wrap =>
    simp only [draft, draftPassword, advance, made]
    by_cases last : w.vault.payload.revision.toNat = 2 ^ 64 - 1
    · rw [perform_password_eq lib turn usable made last, checkedNext_of_last last,
        safe wrap made last]
      rfl
    · simp only [perform, changePassword, bind_bind]
      rw [ensureUsable_bind usable, theVault_bind, made, check_ok_bind, update_bind, theVault_bind]
      change (check (checkedNext w.vault.payload.revision) >>= _) _ = _
      rw [checkedNext_of_ne last, check_ok_bind, update_bind]
      let next := (w.vault.withWrap wrap.1 wrap.2).withRevision (w.vault.payload.revision + 1)
      have undone : (do
          update (·.withWrap w.vault.kdf w.vault.wrappedVaultKey)
          update (·.withRevision w.vault.payload.revision) : Action Unit)
          { w with vault := next } = some (.ok (), w) := rfl
      have usable : next.poisoned = false := usable
      exact rewritten_eq_transact usable undone .done

theorem perform_history (history : CommandHistoryPayload) :
    perform lib turn (.replaceCommandHistory history) w =
      transact (persist lib turn) (draft lib turn w.vault (.replaceCommandHistory history)) w := by
  simp only [perform, replaceCommandHistoryUsing, bind_bind, draft, draftHistory, advance]
  rw [ensureUsable_bind usable]
  cases valid : validateCommandHistory history with
  | error e => rfl
  | ok _ =>
    rw [check_ok_bind, theVault_bind]
    cases next : checkedNext w.vault.payload.revision with
    | error e => rfl
    | ok revision =>
      rw [check_ok_bind, theVault_bind, update_bind, update_bind]
      refine persistOr_eq_transact (w := w) ?_ ?_ .done
      · exact usable
      · rfl

theorem perform_merge_eq (encryptedEnvelope sourcePassword : Bytes)
    (reservedRefs : List SecretRefId) :
    perform lib turn (.mergeEncryptedEnvelope encryptedEnvelope sourcePassword reservedRefs) w =
      (check (openSource lib encryptedEnvelope sourcePassword) >>= fun source =>
        mergeSource (persist lib turn) turn source reservedRefs >>= fun summary =>
          pure (.merged summary)) w := by
  simp only [perform, mergeEncryptedEnvelopeUsing, bind_bind]
  rw [ensureUsable_bind usable, openSource]
  cases parseEncryptedVaultEnvelope lib encryptedEnvelope with
  | error e => rfl
  | ok envelope =>
    rw [check_ok_bind]
    change _ = (check (unlockVaultEnvelope lib envelope sourcePassword >>= _) >>= _) w
    cases unlockVaultEnvelope lib envelope sourcePassword with
    | error e => rfl
    | ok opened =>
      rw [check_ok_bind, theVault_bind]
      simp only [mergeSource, bind_bind]
      rfl

theorem mergeSource_eq_transact (source : VaultPayloadV1) (reservedRefs : List SecretRefId) :
    (mergeSource (persist lib turn) turn source reservedRefs >>= fun summary =>
      pure (.merged summary)) w =
      transact (persist lib turn) (draftSource turn w.vault source reservedRefs) w := by
  rw [mergeSource, bind_bind, theVault_bind, draftSource]
  simp only [bind_bind]
  cases mergedHistory turn w.vault.payload source with
  | none => rfl
  | some merge =>
    simp only [await_some_bind, Option.bind_eq_bind, Option.bind_some]
    cases validateCommandHistory { w.vault.payload.commandHistory with entries := merge.entries } with
    | error e => rfl
    | ok u =>
      rw [check_ok_bind]
      cases made : importSecrets (usedRefs w.vault.payload source reservedRefs) merge.ids
        (source.entries.toList.map (·.2)) with
      | none => rfl
      | some imported =>
        simp only [await_some_bind, Option.bind_some]
        by_cases nothing : imported.length = 0 ∧ merge.summary.importedHistoryEntries = 0
        · rw [if_pos nothing, if_pos nothing]
          rfl
        · rw [if_neg nothing, if_neg nothing]
          cases checkedNext w.vault.payload.revision with
          | error e => rfl
          | ok revision =>
            rw [bind_bind, check_ok_bind]
            simp only [bind_bind]
            rw [update_bind, update_bind, update_bind]
            refine persistOr_eq_transact (w := w) ?_ ?_ _
            · exact usable
            · exact returns_restored (restore_inserted (importSecrets_fresh made))

theorem perform_merge (encryptedEnvelope sourcePassword : Bytes) (reservedRefs : List SecretRefId) :
    perform lib turn (.mergeEncryptedEnvelope encryptedEnvelope sourcePassword reservedRefs) w =
      transact (persist lib turn) (draft lib turn w.vault
        (.mergeEncryptedEnvelope encryptedEnvelope sourcePassword reservedRefs)) w := by
  rw [perform_merge_eq lib turn usable, draft, draftMerge]
  cases openSource lib encryptedEnvelope sourcePassword with
  | error e => rfl
  | ok source => exact mergeSource_eq_transact lib turn usable source reservedRefs

end

section

variable (lib : Primitives) (turn : Turn) (vault : UnlockedVault)

/-- The calls that have changed the vault by the time they look for its next revision. -/
def ChangesFirst : Call → Prop
  | .deleteSecrets secretRefs => ∃ unique, uniqueRefs secretRefs = .ok unique ∧
    removedEntries vault.payload.entries unique.toList ≠ []
  | .changePassword currentPassword newPassword =>
    ∃ wrap, newWrap lib turn vault currentPassword newPassword = .ok wrap ∧
      wrap ≠ (vault.kdf, vault.wrappedVaultKey)
  | _ => False

def Overruns (call : Call) : Prop :=
  vault.payload.revision.toNat = 2 ^ 64 - 1 ∧ ChangesFirst lib turn vault call

end

section

variable {lib : Primitives} {turn : Turn} {w : World} {call : Call}

theorem perform_eq_transact (usable : w.vault.poisoned = false)
    (safe : ¬Overruns lib turn w.vault call) :
    perform lib turn call w = transact (persist lib turn) (draft lib turn w.vault call) w := by
  cases call with
  | insertSecretsWithRefs secrets => exact perform_insert lib turn usable secrets
  | replaceSecretWithRef secret => exact perform_replace lib turn usable secret
  | deleteSecrets secretRefs =>
    refine perform_delete lib turn usable secretRefs fun unique distinct some_ last => ?_
    exact safe ⟨last, unique, distinct, some_⟩
  | replaceCommandHistory history => exact perform_history lib turn usable history
  | changePassword currentPassword newPassword =>
    refine perform_password lib turn usable currentPassword newPassword fun wrap made last => ?_
    by_contra other
    exact safe ⟨last, wrap, made, other⟩
  | mergeEncryptedEnvelope encryptedEnvelope sourcePassword reservedRefs =>
    exact perform_merge lib turn usable encryptedEnvelope sourcePassword reservedRefs

theorem transact_error {save : Action Unit} {proposal : Option (Except VaultFailure Proposal)}
    {e : VaultFailure} {left : World} (h : transact save proposal w = some (.error e, left))
    (definite : e ≠ .commitStateUnknown) : left = w := by
  unfold transact at h
  split at h
  · cases h
  · cases h
    rfl
  · cases h
  · split at h
    · cases h
    · cases h
    · cases h
      rw [if_neg definite]

theorem erased_ne {entries : SecretEntries} {refs : List SecretRefId}
    (h : removedEntries entries refs ≠ []) : refs.foldl .erase entries ≠ entries := by
  obtain ⟨⟨r, entry⟩, mem⟩ := List.exists_mem_of_ne_nil _ h
  obtain ⟨mem, found⟩ := mem_removedEntries.mp mem
  intro same
  have gone := get?_eraseAll refs entries r
  rw [same, found, if_pos mem] at gone
  cases gone

theorem perform_overrun (usable : w.vault.poisoned = false)
    (overruns : Overruns lib turn w.vault call) :
    ∃ left, perform lib turn call w = some (.error overflow, { w with vault := left }) ∧
      left ≠ w.vault := by
  obtain ⟨last, first⟩ := overruns
  cases call with
  | deleteSecrets secretRefs =>
    obtain ⟨unique, distinct, some_⟩ := first
    refine ⟨_, perform_delete_overrun lib turn usable last distinct some_, fun same => ?_⟩
    exact erased_ne some_ (congrArg (·.payload.entries) same)
  | changePassword currentPassword newPassword =>
    obtain ⟨wrap, made, other⟩ := first
    refine ⟨_, perform_password_eq lib turn usable made last, fun same => other ?_⟩
    exact Prod.ext (congrArg (·.kdf) same) (congrArg (·.wrappedVaultKey) same)
  | insertSecretsWithRefs secrets => exact first.elim
  | replaceSecretWithRef secret => exact first.elim
  | replaceCommandHistory history => exact first.elim
  | mergeEncryptedEnvelope encryptedEnvelope sourcePassword reservedRefs => exact first.elim

/-- A call that definitely fails leaves the vault as it was, unless it changed the vault
before it found that there is no next revision. -/
theorem failed_keeps_iff (usable : w.vault.poisoned = false) :
    (∀ e left, perform lib turn call w = some (.error e, left) → e ≠ .commitStateUnknown →
      left.vault = w.vault) ↔ ¬Overruns lib turn w.vault call := by
  constructor
  · intro keeps overruns
    obtain ⟨left, failed, changed⟩ := perform_overrun usable overruns
    exact changed (keeps _ _ failed (by decide))
  · intro safe e left failed definite
    rw [perform_eq_transact usable safe] at failed
    rw [transact_error failed definite]

end

def silent : Primitives where
  argon2 _ _ := none
  encrypt _ _ _ _ := none
  decrypt _ _ _ _ := none
  sha256Hex _ := ""
  keyWrapAad _ := none
  payloadAad _ := none
  encodePayload _ := none
  decodePayload _ := none
  encodeEnvelope _ := none
  decodeEnvelope _ := none

def quiet : Turn where
  salt := none
  wrapNonce := none
  payloadNonce := none
  ids := []
  readError := none
  write := .done

def lastRevision : UInt64 := 18446744073709551615

def blankKey : Key := ⟨List.replicate keyBytes 0, rfl⟩

def onePassword (revision : UInt64) : UnlockedVault where
  vaultId := 1
  kdf := ⟨kdfId, kdfProfile, kdfMemoryKib, kdfIterations, kdfParallelism, ""⟩
  wrappedVaultKey := ⟨cipherId, "", ""⟩
  vaultMasterKey := blankKey
  payload := {
    schemaVersion := payloadSchemaVersion
    revision
    parentEnvelopeSha256 := none
    entries := .ofList [(7, ⟨.password, [112]⟩)]
    commandHistory := {} }

theorem delete_at_last_revision :
    ((perform silent quiet (.deleteSecrets [7]) ⟨onePassword lastRevision, none⟩).map fun left =>
      (left.1, left.2.vault.payload.entries.keys)) = some (.error overflow, []) ∧
    (onePassword lastRevision).poisoned = false ∧
    (onePassword lastRevision).payload.entries.keys = [7] := by
  decide

theorem failed_keeps_before_last : perform silent quiet (.deleteSecrets [7]) ⟨onePassword 3, none⟩ =
      some (.error .serialization, ⟨onePassword 3, none⟩) ∧
    ∀ e left, perform silent quiet (.deleteSecrets [7]) ⟨onePassword 3, none⟩ =
      some (.error e, left) → e ≠ .commitStateUnknown → left.vault = onePassword 3 :=
  ⟨by decide, (failed_keeps_iff rfl).mpr fun overruns => absurd overruns.1 (by decide)⟩

end NoriShell.Vault

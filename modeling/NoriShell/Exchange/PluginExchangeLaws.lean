import NoriShell.Exchange.PluginExchange

namespace NoriShell.Exchange

open Collections Sync JsonText

section

open String

theorem utf8ByteSize_eq (s : String) : s.utf8ByteSize = utf8Len s.toList := by
  rw [← utf8ByteSize_ofList, ofList_toList]

theorem length_utf8 (text : List Char) : (utf8 text).length = utf8Len text :=
  utf8ByteSize_ofList text

theorem validateIdentifier_eq_ok {value : String} {maximum : Nat} :
    validateIdentifier value maximum = .ok () ↔
      value ≠ "" ∧ value.utf8ByteSize ≤ maximum ∧ ∀ c ∈ value.toList, isIdentifierChar c := by
  simp [validateIdentifier, Check.reject_eq_ok, not_or]

theorem validateOwnerText_eq_ok {value field : String} : validateOwnerText value field = .ok () ↔
      value ≠ "" ∧ value.utf8ByteSize ≤ maxOwnerTextBytes ∧
        ∀ c ∈ value.toList, Text.isControl c = false := by
  simp [validateOwnerText, Check.reject_eq_ok, not_or]

theorem range_of_isIdentifierChar {c : Char} (h : isIdentifierChar c) :
    45 ≤ c.toNat ∧ c.toNat ≤ 122 := by
  simp only [isIdentifierChar, Text.isAsciiAlphanumeric, Text.isAsciiDigit, Bool.or_eq_true,
    Bool.and_eq_true, decide_eq_true_eq, Char.le_def, UInt32.le_iff_toNat_le, List.mem_cons,
    List.not_mem_nil, or_false] at h
  rcases h with ((h | h) | h) | rfl | rfl | rfl | rfl
  · change 48 ≤ c.toNat ∧ c.toNat ≤ 57 at h
    omega
  · change 97 ≤ c.toNat ∧ c.toNat ≤ 122 at h
    omega
  · change 65 ≤ c.toNat ∧ c.toNat ≤ 90 at h
    omega
  all_goals decide

theorem isControl_eq_false {c : Char} (low : 32 ≤ c.toNat) (high : c.toNat ≤ 126) :
    Text.isControl c = false := by
  simp only [Text.isControl, Bool.or_eq_false_iff, Bool.and_eq_false_iff, decide_eq_false_iff_not]
  omega

theorem isLowerHex_digitChar : ∀ n < 16, isLowerHex (Nat.digitChar n) := by
  decide

theorem range_of_isLowerHex {c : Char} (h : isLowerHex c) : 48 ≤ c.toNat ∧ c.toNat ≤ 102 := by
  simp only [isLowerHex, Text.isAsciiDigit, Bool.or_eq_true, Bool.and_eq_true, decide_eq_true_eq,
    Char.le_def, UInt32.le_iff_toNat_le] at h
  rcases h with h | h
  · change 48 ≤ c.toNat ∧ c.toNat ≤ 57 at h
    omega
  · change 97 ≤ c.toNat ∧ c.toNat ≤ 102 at h
    omega

theorem utf8Len_of_ascii {s : List Char} (ascii : ∀ c ∈ s, c.toNat ≤ 126) : utf8Len s = s.length := by
  induction s with
  | nil => rfl
  | cons c s ih =>
    have one : c.utf8Size = 1 := by
      rw [Char.utf8Size_eq_one_iff, UInt32.le_iff_toNat_le]
      exact (ascii c List.mem_cons_self).trans (by decide)
    rw [utf8Len_cons, ih fun c mem => ascii c (List.mem_cons_of_mem _ mem), one, List.length_cons]

theorem validSha256_iff {value : String} : validSha256 value = true ↔
    value.utf8ByteSize = 64 ∧ ∀ c ∈ value.toList, isLowerHex c = true := by
  simp [validSha256]

theorem validSha256_hexText {bytes : List UInt8} (size : bytes.length = 32) :
    validSha256 (hexText bytes) := by
  have hex : ∀ c ∈ (hexText bytes).toList, isLowerHex c := by
    intro c mem
    rw [hexText, toList_ofList, List.mem_flatMap] at mem
    obtain ⟨byte, -, mem⟩ := mem
    have := byte.toNat_lt
    simp only [List.mem_cons, List.not_mem_nil, or_false] at mem
    rcases mem with rfl | rfl
    · exact isLowerHex_digitChar _ (by omega)
    · exact isLowerHex_digitChar _ (by omega)
  have length : (hexText bytes).toList.length = 64 := by
    simp [hexText, size]
  refine validSha256_iff.mpr ⟨?_, hex⟩
  rw [utf8ByteSize_eq, utf8Len_of_ascii fun c mem => ?_, length]
  have := (range_of_isLowerHex (hex c mem)).2
  omega

end

section

variable {code : Base64}

theorem canonicalBase64_encode (bytes : List UInt8) :
    canonicalBase64 code (encodeBase64 code bytes) := by
  simp [canonicalBase64, encodeBase64, Base64.decode_encode]

theorem standard_letter (d : Fin 64) :
    32 ≤ (Base64.standard.letter d).toNat ∧ (Base64.standard.letter d).toNat ≤ 126 ∧
      escape (Base64.standard.letter d) = [Base64.standard.letter d] := by
  revert d
  decide

theorem mem_encodeBase64 {bytes : List UInt8} {c : Char}
    (mem : c ∈ (encodeBase64 .standard bytes).toList) : c.toNat ≤ 126 ∧ escape c = [c] := by
  rw [encodeBase64, String.toList_ofList] at mem
  rcases Base64.mem_encode mem with rfl | ⟨d, rfl⟩
  · decide
  · exact (standard_letter d).2

theorem utf8Len_encodeBase64 (bytes : List UInt8) :
    String.utf8Len (encodeBase64 .standard bytes).toList = (bytes.length + 2) / 3 * 4 := by
  rw [utf8Len_of_ascii fun c mem => (mem_encodeBase64 mem).1, encodeBase64, String.toList_ofList,
    Base64.length_encode rfl]

@[simp] theorem decode_encodeBase64 (code : Base64) (bytes : List UInt8) :
    code.decode (encodeBase64 code bytes).toList = some bytes := by
  rw [encodeBase64, String.toList_ofList, Base64.decode_encode]

theorem decodeBase64_encode {bytes : List UInt8} {maximum : Nat} (small : bytes.length ≤ maximum) :
    decodeBase64 (encodeBase64 .standard bytes) maximum = .ok bytes := by
  have bounded : (encodeBase64 .standard bytes).utf8ByteSize ≤ (maximum + 2) / 3 * 4 + 4 := by
    rw [utf8ByteSize_eq, utf8Len_encodeBase64]
    omega
  simp only [decodeBase64, Check.bind_unit_eq_ok, Check.reject_eq_ok, decode_encodeBase64]
  exact ⟨not_lt.mpr bounded, by simp [not_lt.mpr small], rfl⟩

theorem decodeBase64urlFixed_encode {n : Nat} (bytes : Vector UInt8 n) (field : String) :
    decodeBase64urlFixed n (encodeBase64 .urlSafeNoPad bytes.toList) field = .ok bytes := by
  simp only [decodeBase64urlFixed, decode_encodeBase64, ne_eq, not_true_eq_false, if_false,
    Vector.length_toList, dite_true]
  congr 1

end

section

structure PluginExchangeBinding.Valid (binding : PluginExchangeBinding) : Prop where
  pluginId : validateIdentifier binding.pluginId 160 = .ok ()
  signer : validSha256 binding.signerFingerprintSha256
  profileId : validateIdentifier binding.profileId 160 = .ok ()
  revision : binding.revision ≠ 0
  baseRevision : binding.baseRevision.any (binding.revision ≤ ·) = false
  baseEtag : invalidEtag binding.baseEtag = false

variable {binding : PluginExchangeBinding}

theorem PluginExchangeBinding.validate_eq_ok : binding.validate = .ok () ↔ binding.Valid := by
  simp only [validate, Check.bind_unit_eq_ok, Check.reject_eq_ok, Bool.not_eq_true', not_or,
    Bool.not_eq_false, Bool.not_eq_true]
  constructor
  · rintro ⟨pluginId, signer, profileId, ⟨revision, baseRevision⟩, baseEtag⟩
    exact ⟨pluginId, signer, profileId, revision, baseRevision, baseEtag⟩
  · rintro ⟨pluginId, signer, profileId, revision, baseRevision, baseEtag⟩
    exact ⟨pluginId, signer, profileId, ⟨revision, baseRevision⟩, baseEtag⟩

theorem utf8ByteSize_repr_le {n k : Nat} (positive : 0 < k) (small : n < 10 ^ k) :
    (Nat.repr n).utf8ByteSize ≤ k := by
  rw [Nat.repr, String.utf8ByteSize_ofList]
  exact utf8Len_natural_le positive small

def Plain (s : String) : Prop :=
  ∀ c ∈ s.toList, Text.isControl c = false

theorem Plain.append {s t : String} (hs : Plain s) (ht : Plain t) : Plain (s ++ t) := by
  intro c mem
  rw [String.toList_append, List.mem_append] at mem
  exact mem.elim (hs c) (ht c)

theorem plain_identifier {value : String} {maximum : Nat}
    (ok : validateIdentifier value maximum = .ok ()) : Plain value := by
  intro c mem
  have range := range_of_isIdentifierChar ((validateIdentifier_eq_ok.mp ok).2.2 c mem)
  exact isControl_eq_false (by omega) (by omega)

theorem plain_repr (n : Nat) : Plain (Nat.repr n) := by
  intro c mem
  have digit : c.isDigit := by
    apply Nat.isDigit_of_mem_toDigits (b := 10) (n := n) (by omega) (by omega)
    simpa [Nat.repr] using mem
  simp only [Char.isDigit, Bool.and_eq_true, decide_eq_true_eq, ge_iff_le,
    UInt32.le_iff_toNat_le] at digit
  change 48 ≤ c.toNat ∧ c.toNat ≤ 57 at digit
  exact isControl_eq_false (by omega) (by omega)

namespace PluginExchangeBinding.Valid

theorem ownerId_size (valid : binding.Valid) : binding.ownerId.utf8ByteSize ≤ 416 := by
  have plugin := (validateIdentifier_eq_ok.mp valid.pluginId).2.1
  have profile := (validateIdentifier_eq_ok.mp valid.profileId).2.1
  have signer := (validSha256_iff.mp valid.signer).1
  have pluginLen : (Nat.repr binding.pluginId.utf8ByteSize).utf8ByteSize ≤ 3 :=
    utf8ByteSize_repr_le (by omega) (by omega)
  have profileLen : (Nat.repr binding.profileId.utf8ByteSize).utf8ByteSize ≤ 3 :=
    utf8ByteSize_repr_le (by omega) (by omega)
  have fixed : "plugin:".utf8ByteSize = 7 ∧ ":".utf8ByteSize = 1 ∧ ":signer:".utf8ByteSize = 8 ∧
      ":profile:".utf8ByteSize = 9 := by decide
  simp only [ownerId, String.utf8ByteSize_append]
  omega

theorem ownerId_plain (valid : binding.Valid) : Plain binding.ownerId := by
  have signer : Plain binding.signerFingerprintSha256 := by
    intro c mem
    have range := range_of_isLowerHex ((validSha256_iff.mp valid.signer).2 c mem)
    exact isControl_eq_false (by omega) (by omega)
  have fixed : Plain "plugin:" ∧ Plain ":" ∧ Plain ":signer:" ∧ Plain ":profile:" := by
    simp [Plain, Text.isControl]
  obtain ⟨plugin, colon, signed, profile⟩ := fixed
  unfold ownerId
  refine .append (.append (.append (.append (.append (.append (.append (.append
    (.append plugin ?_) colon) ?_) signed) signer) profile) ?_) colon) ?_
  · exact plain_repr _
  · exact plain_identifier valid.pluginId
  · exact plain_repr _
  · exact plain_identifier valid.profileId

theorem ownerId_accepted (valid : binding.Valid) (field : String) :
    validateOwnerText binding.ownerId field = .ok () := by
  refine validateOwnerText_eq_ok.mpr ⟨fun empty => ?_, ?_, valid.ownerId_plain⟩
  · have first : 'p' ∈ binding.ownerId.toList := by simp [ownerId]
    rw [empty] at first
    cases first
  · exact valid.ownerId_size.trans (by decide)

theorem validate_objectBinding_at (valid : binding.Valid) {keyVersion : UInt32}
    (positive : keyVersion ≠ 0) (schema : BundleSchema) :
    (objectBindingForSchema binding keyVersion schema).validate = .ok () := by
  have application : validateOwnerText "norishell" "application ID" = .ok () := by decide
  simp only [SyncObjectBinding.validate, objectBindingForSchema, Check.bind_unit_eq_ok]
  refine ⟨application, valid.ownerId_accepted _, Check.reject_eq_ok.mpr valid.revision,
    Check.reject_eq_ok.mpr ?_, Check.reject_eq_ok.mpr positive, Check.reject_eq_ok.mpr ?_⟩
  · exact Bool.not_eq_true _ ▸ valid.baseRevision
  · exact Bool.not_eq_true _ ▸ valid.baseEtag

theorem validate_objectBinding (valid : binding.Valid) (schema : BundleSchema) :
    (objectBindingForSchema binding 1 schema).validate = .ok () :=
  valid.validate_objectBinding_at (by decide) schema

end PluginExchangeBinding.Valid

end

section

open String

theorem utf8Len_quote_le_of_size {s : String} {n : Nat} (size : s.utf8ByteSize ≤ n) :
    utf8Len (quote s) ≤ 6 * n + 2 := by
  have := utf8Len_quote_le s
  rw [utf8ByteSize_eq] at size
  omega

theorem utf8Len_sha256_le {value : String} (valid : validSha256 value) :
    utf8Len (quote value) ≤ 6 * 64 + 2 :=
  utf8Len_quote_le_of_size (validSha256_iff.mp valid).1.le

theorem utf8Len_revision_le (revision : UInt64) : utf8Len (natural revision.toNat) ≤ 20 :=
  utf8Len_natural_le (by omega) (revision.toNat_lt.trans (by decide))

theorem utf8Len_owner_le {binding : PluginExchangeBinding} (valid : binding.Valid) :
    utf8Len binding.owner.text ≤ 5000 := by
  have plugin := utf8Len_quote_le_of_size (validateIdentifier_eq_ok.mp valid.pluginId).2.1
  have profile := utf8Len_quote_le_of_size (validateIdentifier_eq_ok.mp valid.profileId).2.1
  have signer := utf8Len_sha256_le valid.signer
  refine (utf8Len_object_le (by simp)).trans ?_
  have keys : "pluginId".utf8ByteSize = 8 ∧ "signerFingerprintSha256".utf8ByteSize = 23 ∧
      "profileId".utf8ByteSize = 9 := by decide
  simp only [PluginExchangeBinding.owner, List.map_cons, List.map_nil, List.sum_cons, List.sum_nil]
  omega

theorem utf8Len_binding_le {binding : PluginExchangeBinding} (valid : binding.Valid)
    (schema : BundleSchema) :
    utf8Len (objectBindingForSchema binding 1 schema).text ≤ 12000 := by
  have application : utf8Len (quote "norishell") ≤ 6 * 9 + 2 := utf8Len_quote_le_of_size (by decide)
  have account := utf8Len_quote_le_of_size valid.ownerId_size
  have schemaSize : utf8Len (quote (schemaName schema)) ≤ 6 * 31 + 2 := by
    apply utf8Len_quote_le_of_size
    cases schema <;> decide
  have kind : utf8Len (quote SyncObjectKind.sshProfileBundle.name) ≤ 6 * 16 + 2 :=
    utf8Len_quote_le_of_size (by decide)
  have revision := utf8Len_revision_le binding.revision
  have null : utf8Len ['n', 'u', 'l', 'l'] = 4 := by decide
  have baseRevision : utf8Len (optional (natural ·.toNat) binding.baseRevision) ≤ 20 := by
    cases binding.baseRevision with
    | none => exact null.le.trans (by omega)
    | some base => exact utf8Len_revision_le base
  have baseEtag : utf8Len (optional quote binding.baseEtag) ≤ 6 * 1024 + 2 := by
    have bounded := valid.baseEtag
    cases etag : binding.baseEtag with
    | none => exact null.le.trans (by omega)
    | some value =>
      simp only [etag, invalidEtag, Option.any_some, decide_eq_false_iff_not, not_or] at bounded
      exact utf8Len_quote_le_of_size (not_lt.mp bounded.2.1)
  have keyVersion : utf8Len (natural (1 : UInt32).toNat) ≤ 10 :=
    utf8Len_natural_le (by omega) (by decide)
  refine (utf8Len_object_le (by simp)).trans ?_
  have keys : "applicationId".utf8ByteSize = 13 ∧ "accountId".utf8ByteSize = 9 ∧
      "schema".utf8ByteSize = 6 ∧ "objectKind".utf8ByteSize = 10 ∧ "revision".utf8ByteSize = 8 ∧
      "baseRevision".utf8ByteSize = 12 ∧ "baseEtag".utf8ByteSize = 8 ∧
      "keyVersion".utf8ByteSize = 10 := by decide
  simp only [objectBindingForSchema, List.map_cons, List.map_nil, List.sum_cons, List.sum_nil]
  omega

theorem utf8Len_base64 (bytes : List UInt8) :
    utf8Len (quote (encodeBase64 .standard bytes)) = (bytes.length + 2) / 3 * 4 + 2 := by
  rw [utf8Len_quote fun c mem => (mem_encodeBase64 mem).2, utf8Len_encodeBase64]

theorem utf8Len_recovery_le {recovery : RecoveryWire} {envelope : List UInt8}
    (text : recovery.envelope = encodeBase64 .standard envelope)
    (small : envelope.length ≤ maxVaultKeyEnvelopeBytes)
    (sha : validSha256 recovery.envelopeSha256) : utf8Len recovery.text ≤ 90000 := by
  have size := utf8Len_base64 envelope
  have sha := utf8Len_sha256_le sha
  unfold maxVaultKeyEnvelopeBytes at small
  refine (utf8Len_object_le (by simp)).trans ?_
  have keys : "envelope".utf8ByteSize = 8 ∧ "envelopeSha256".utf8ByteSize = 14 := by decide
  simp only [List.map_cons, List.map_nil, List.sum_cons, List.sum_nil, text]
  omega

theorem utf8Len_le_four_mul (text : List Char) : utf8Len text ≤ 4 * text.length := by
  induction text with
  | nil => simp
  | cons c text ih =>
    have := c.utf8Size_le_four
    rw [utf8Len_cons, List.length_cons]
    omega

theorem utf8Len_nonce_le (nonce : Nonce) :
    utf8Len (quote (encodeBase64 .urlSafeNoPad nonce.toList)) ≤ 6 * 128 + 2 := by
  apply utf8Len_quote_le_of_size
  have letters : (Base64.urlSafeNoPad.encode nonce.toList).length ≤
      (nonce.toList.length + 2) / 3 * 4 := Base64.length_encode_le _
  have bytes := utf8Len_le_four_mul (Base64.urlSafeNoPad.encode nonce.toList)
  rw [encodeBase64, utf8ByteSize_ofList]
  rw [Vector.length_toList] at letters
  omega

theorem utf8Len_encrypted_le {encrypted : EncryptedWire} {nonce : Nonce} {ciphertext : List UInt8}
    (algorithm : encrypted.algorithm = serviceSyncAlgorithm)
    (nonceText : encrypted.nonce = encodeBase64 .urlSafeNoPad nonce.toList)
    (text : encrypted.ciphertext = encodeBase64 .standard ciphertext)
    (small : ciphertext.length ≤ maxBundlePlaintextBytes + 16)
    (sha : validSha256 encrypted.ciphertextSha256) : utf8Len encrypted.text ≤ 89500000 := by
  have algorithmSize : utf8Len (quote serviceSyncAlgorithm) ≤ 6 * 22 + 2 :=
    utf8Len_quote_le_of_size (by decide)
  have nonceSize := utf8Len_nonce_le nonce
  have size := utf8Len_base64 ciphertext
  have sha := utf8Len_sha256_le sha
  unfold maxBundlePlaintextBytes at small
  refine (utf8Len_object_le (by simp)).trans ?_
  have keys : "algorithm".utf8ByteSize = 9 ∧ "nonce".utf8ByteSize = 5 ∧
      "ciphertext".utf8ByteSize = 10 ∧ "ciphertextSha256".utf8ByteSize = 16 := by decide
  simp only [List.map_cons, List.map_nil, List.sum_cons, List.sum_nil, text, algorithm, nonceText]
  omega

end

section

variable {libs : ExchangeLibraries} {binding : PluginExchangeBinding} {bundle : PortableBundleV1}
  {key : SyncKey} {nonce : Nonce} {envelope plaintext : List UInt8}

namespace ExchangeLibraries

theorem validSha256_sha256Hex (bytes : List UInt8) : validSha256 (libs.sha256Hex bytes) :=
  validSha256_hexText Vector.length_toList

def encryptedObject (libs : ExchangeLibraries) (key : SyncKey) (nonce : Nonce)
    (binding : SyncObjectBinding) (plaintext : List UInt8) : EncryptedSyncObject where
  algorithm := serviceSyncAlgorithm
  nonceBase64url := encodeBase64 .urlSafeNoPad nonce.toList
  ciphertext := libs.encrypt key nonce (utf8 binding.text) plaintext
  ciphertextSha256 := libs.sha256Hex (libs.encrypt key nonce (utf8 binding.text) plaintext)

theorem encryptBundleForService_eq_ok {object : SyncObjectBinding}
    (valid : object.validate = .ok ()) (revision : object.revision.toNat = bundle.revision)
    (schema : object.schema = bundle.schema)
    (fits : libs.bundles.canonicalBundleBytes bundle = .ok plaintext) :
    libs.encryptBundleForService bundle key nonce object =
      .ok (libs.encryptedObject key nonce object plaintext) := by
  simp [encryptBundleForService, valid, reject, revision, schema, fits, encryptedObject, bind,
    Except.bind, pure, Except.pure]

theorem decryptBundleFromService_eq_ok {object : SyncObjectBinding} (valid : bundle.Valid)
    (checked : object.validate = .ok ()) (revision : object.revision.toNat = bundle.revision)
    (schema : object.schema = bundle.schema)
    (fits : libs.bundles.canonicalBundleBytes bundle = .ok plaintext) :
    libs.decryptBundleFromService (libs.encryptedObject key nonce object plaintext) key object =
      .ok bundle.sorted := by
  obtain ⟨encoded, small⟩ := (BundleCodec.canonicalBundleBytes_eq_ok valid).mp fits
  have size : (libs.encrypt key nonce (utf8 object.text) plaintext).length ≤
      maxBundlePlaintextBytes + 16 := by
    rw [libs.length_encrypt]
    omega
  have decoded := BundleCodec.decodeBundle_canonical libs.inverts valid encoded small
  simp [decryptBundleFromService, checked, reject, encryptedObject, not_lt.mpr size,
    decodeBase64urlFixed_encode, libs.decrypt_encrypt, decoded, PortableBundleV1.sorted, revision,
    schema, bind, Except.bind, pure, Except.pure]

structure Accepted (libs : ExchangeLibraries) (bundle : PortableBundleV1) (envelope : List UInt8)
    (binding : PluginExchangeBinding) (plaintext : List UInt8) : Prop where
  bound : binding.Valid
  schema : bundle.schema ∈ [BundleSchema.v3, .v4, .v5, .v6]
  revision : binding.revision.toNat = bundle.revision
  nonempty : envelope ≠ []
  small : envelope.length ≤ maxVaultKeyEnvelopeBytes
  valid : bundle.Valid
  fits : libs.bundles.canonicalBundleBytes bundle = .ok plaintext

theorem checkExchangeInputs_eq_ok : checkExchangeInputs bundle envelope binding = .ok () ↔
    binding.validate = .ok () ∧ bundle.schema ∈ [BundleSchema.v3, .v4, .v5, .v6] ∧
      bundle.revision = binding.revision.toNat ∧ envelope ≠ [] ∧
      envelope.length ≤ maxVaultKeyEnvelopeBytes := by
  simp only [checkExchangeInputs, Check.bind_unit_eq_ok, Check.reject_eq_ok, not_or, not_not,
    not_lt, gt_iff_lt, ne_eq]

theorem accepted_of_checks (checked : checkExchangeInputs bundle envelope binding = .ok ())
    (fits : libs.bundles.canonicalBundleBytes bundle = .ok plaintext) :
    Accepted libs bundle envelope binding plaintext := by
  obtain ⟨valid, schema, revision, nonempty, small⟩ := checkExchangeInputs_eq_ok.mp checked
  have validated : bundle.validate = .ok () := by
    simp only [BundleCodec.canonicalBundleBytes, PortableBundleV1.canonicalized,
      Check.bind_eq_ok] at fits
    obtain ⟨_, ⟨_, validated, -⟩, -⟩ := fits
    exact validated
  exact ⟨PluginExchangeBinding.validate_eq_ok.mp valid, schema, revision.symm, nonempty, small,
    PortableBundleV1.validate_eq_ok.mp validated, fits⟩

def createdWire (libs : ExchangeLibraries) (bundle : PortableBundleV1) (key : SyncKey)
    (nonce : Nonce) (envelope : List UInt8) (binding : PluginExchangeBinding)
    (plaintext : List UInt8) : ExchangeWire :=
  libs.exchangeWire
    (libs.encryptedObject key nonce (objectBindingForSchema binding 1 bundle.schema) plaintext)
    envelope binding bundle.schema

namespace Accepted

abbrev wire (_ : Accepted libs bundle envelope binding plaintext) (key : SyncKey) (nonce : Nonce) :
    ExchangeWire :=
  libs.createdWire bundle key nonce envelope binding plaintext

variable (h : Accepted libs bundle envelope binding plaintext)

include h

theorem plaintext_small : plaintext.length ≤ maxBundlePlaintextBytes :=
  ((BundleCodec.canonicalBundleBytes_eq_ok h.valid).mp h.fits).2

theorem wire_size (key : SyncKey) (nonce : Nonce) :
    (h.wire key nonce).toVec.length ≤ maxExchangeBytes := by
  have owner := utf8Len_owner_le h.bound
  have object := utf8Len_binding_le h.bound bundle.schema
  have recovery : String.utf8Len (h.wire key nonce).recovery.text ≤ 90000 :=
    utf8Len_recovery_le rfl h.small (validSha256_sha256Hex _)
  have encrypted : String.utf8Len (h.wire key nonce).encrypted.text ≤ 89500000 := by
    refine utf8Len_encrypted_le rfl rfl rfl ?_ (validSha256_sha256Hex _)
    rw [encryptedObject, libs.length_encrypt]
    exact Nat.add_le_add_right h.plaintext_small 16
  have format : String.utf8Len (quote vaultExchangeFormat) ≤ 6 * 31 + 2 :=
    utf8Len_quote_le_of_size (by decide)
  rw [ExchangeWire.toVec, length_utf8]
  refine (utf8Len_object_le (by simp)).trans ?_
  have keys : "format".utf8ByteSize = 6 ∧ "owner".utf8ByteSize = 5 ∧ "binding".utf8ByteSize = 7 ∧
      "recovery".utf8ByteSize = 8 ∧ "encrypted".utf8ByteSize = 9 := by decide
  unfold maxExchangeBytes
  simp only [List.map_cons, List.map_nil, List.sum_cons, List.sum_nil]
  simp only [createdWire, exchangeWire] at recovery encrypted ⊢
  omega

theorem create_eq_ok : libs.createPluginExchangeWithKey bundle key nonce envelope binding =
    .ok (h.wire key nonce).toVec := by
  have inputs : checkExchangeInputs bundle envelope binding = .ok () :=
    checkExchangeInputs_eq_ok.mpr ⟨PluginExchangeBinding.validate_eq_ok.mpr h.bound, h.schema,
      h.revision.symm, h.nonempty, h.small⟩
  have encrypted : libs.encryptBundleForService bundle key nonce
      (objectBindingForSchema binding 1 bundle.schema) = _ :=
    encryptBundleForService_eq_ok (h.bound.validate_objectBinding bundle.schema) h.revision rfl
      h.fits
  have size := h.wire_size key nonce
  unfold wire createdWire at size ⊢
  simp [createPluginExchangeWithKey, inputs, encrypted, reject, not_lt.mpr size, bind, Except.bind,
    pure, Except.pure]

theorem parse_eq_ok : libs.parseWire (h.wire key nonce).toVec = .ok (h.wire key nonce) := by
  have size := h.wire_size key nonce
  have nonempty : (h.wire key nonce).toVec ≠ [] := by
    apply List.ne_nil_of_length_pos
    rw [ExchangeWire.toVec, length_utf8, ExchangeWire.text, object]
    · rw [utf8Len_members '{' rfl]
      omega
    · simp
  simp [parseWire, reject, nonempty, not_lt.mpr size, libs.fromSlice_toVec, bind, Except.bind]

theorem validate_eq_ok : validateWireCommon (h.wire key nonce) binding = .ok () := by
  have readable : authenticatedObjectBinding binding 1 bundle.schema =
      .ok (objectBindingForSchema binding 1 bundle.schema) := by
    have := h.schema
    cases schema : bundle.schema with
    | v1 => simp [schema] at this
    | v2 | v3 | v4 | v5 | v6 => rfl
  simp [validateWireCommon, createdWire, exchangeWire, encryptedObject,
    PluginExchangeBinding.validate_eq_ok.mpr h.bound, objectBindingForSchema] at readable ⊢
  simp [readable, reject, canonicalBase64_encode, validSha256_sha256Hex, bind, Except.bind]

theorem validateWithFormat_eq_ok :
    validateWireWithFormat (h.wire key nonce) binding vaultExchangeFormat = .ok () := by
  simp only [validateWireWithFormat, Check.bind_unit_eq_ok, Check.reject_eq_ok]
  exact ⟨fun differs => differs rfl, h.validate_eq_ok⟩

theorem open_eq_ok :
    libs.openPluginExchangeWithKey (h.wire key nonce).toVec key binding = .ok bundle.sorted := by
  have ciphertext : decodeBase64 (h.wire key nonce).encrypted.ciphertext (64 * 1024 * 1024 + 16) =
      .ok (libs.encryptedObject key nonce (objectBindingForSchema binding 1 bundle.schema)
        plaintext).ciphertext := by
    refine decodeBase64_encode ?_
    rw [encryptedObject, libs.length_encrypt]
    exact Nat.add_le_add_right h.plaintext_small 16
  simp only [openPluginExchangeWithKey, h.parse_eq_ok, h.validateWithFormat_eq_ok, ciphertext, bind,
    Except.bind]
  exact decryptBundleFromService_eq_ok h.valid (h.bound.validate_objectBinding bundle.schema)
    h.revision rfl h.fits

theorem envelope_eq_ok :
    libs.pluginExchangeVaultKeyEnvelope (h.wire key nonce).toVec binding = .ok envelope := by
  have decoded : decodeBase64 (h.wire key nonce).recovery.envelope maxVaultKeyEnvelopeBytes =
      .ok envelope :=
    decodeBase64_encode h.small
  simp only [pluginExchangeVaultKeyEnvelope, h.parse_eq_ok, h.validateWithFormat_eq_ok, decoded,
    bind, Except.bind]
  simp [reject, createdWire, exchangeWire, pure, Except.pure]

theorem inspect_eq_ok : ∃ summary, libs.inspectPluginExchangeDataOwner (h.wire key nonce).toVec
    binding.pluginId binding.profileId = .ok (binding, summary) := by
  have supported : validateWireAnySupported (h.wire key nonce) binding = .ok () := by
    simp only [validateWireAnySupported, Check.bind_unit_eq_ok, Check.reject_eq_ok]
    exact ⟨fun differs => differs.2 rfl, h.validate_eq_ok⟩
  simp only [inspectPluginExchangeDataOwner, h.parse_eq_ok, bind, Except.bind, inspectWireOwner]
  erw [supported]
  exact ⟨_, rfl⟩

/-- The exchange names its binding, so it opens under no other. -/
theorem eq_of_open_eq_ok {other : PluginExchangeBinding} {anyKey : SyncKey}
    {opened : PortableBundleV1}
    (ok : libs.openPluginExchangeWithKey (h.wire key nonce).toVec anyKey other = .ok opened) :
    other = binding := by
  obtain ⟨wire, parsed, ok⟩ := Check.bind_eq_ok.mp ok
  rw [h.parse_eq_ok] at parsed
  cases parsed
  obtain ⟨_, validated, _⟩ := Check.bind_eq_ok.mp ok
  simp only [validateWireWithFormat, validateWireCommon, Check.bind_eq_ok, Check.reject_eq_ok,
    not_or, not_not] at validated
  obtain ⟨-, -, -, -, object, readable, -, ⟨owner, same⟩, -⟩ := validated
  have expected : object = objectBindingForSchema other 1 bundle.schema := by
    unfold authenticatedObjectBinding at readable
    split at readable <;> cases readable
    rfl
  rw [expected] at same
  cases other
  cases binding
  simp only [createdWire, exchangeWire, PluginExchangeBinding.owner, objectBindingForSchema,
    ExchangeOwnerWire.mk.injEq, SyncObjectBinding.mk.injEq] at owner same
  simp_all

end Accepted

end ExchangeLibraries

end

/-- Every exchange that passes the checks is created, opens to the canonical bundle, gives back
the envelope and its binding, and does not open under any other binding. -/
theorem plugin_exchange_reads_back (libs : ExchangeLibraries) (bundle : PortableBundleV1)
    (key : SyncKey) (nonce : Nonce) (envelope : List UInt8) (binding : PluginExchangeBinding)
    (checked : ExchangeLibraries.checkExchangeInputs bundle envelope binding = .ok ())
    (plaintext : List UInt8)
    (fits : libs.bundles.canonicalBundleBytes bundle = .ok plaintext) :
    ∃ bytes canonical,
      libs.createPluginExchangeWithKey bundle key nonce envelope binding = .ok bytes ∧
      bundle.canonicalized = .ok canonical ∧
      libs.openPluginExchangeWithKey bytes key binding = .ok canonical ∧
      libs.pluginExchangeVaultKeyEnvelope bytes binding = .ok envelope ∧
      (∃ summary, libs.inspectPluginExchangeDataOwner bytes binding.pluginId binding.profileId =
        .ok (binding, summary)) ∧
      ∀ other anyKey, other.validate = .ok () → other ≠ binding →
        ∃ e, libs.openPluginExchangeWithKey bytes anyKey other = .error e := by
  have h := ExchangeLibraries.accepted_of_checks checked fits
  refine ⟨_, bundle.sorted, h.create_eq_ok, PortableBundleV1.canonicalized_eq h.valid, h.open_eq_ok,
    h.envelope_eq_ok, h.inspect_eq_ok, fun other anyKey _ differs => ?_⟩
  cases opened : libs.openPluginExchangeWithKey
      (libs.createdWire bundle key nonce envelope binding plaintext).toVec anyKey other with
  | error e => exact ⟨e, rfl⟩
  | ok found => exact absurd (h.eq_of_open_eq_ok opened) differs

def readSchema (name : String) : Option BundleSchema :=
  [BundleSchema.v1, .v2, .v3, .v4, .v5, .v6].find? (schemaName · = name)

def readKind (name : String) : Option SyncObjectKind :=
  if name = SyncObjectKind.sshProfileBundle.name then some .sshProfileBundle else none

def readRevision : List Char → Option (UInt64 × List Char) :=
  readAs readNatural (some <| UInt64.ofNat ·)

def readOwner (input : List Char) : Option (ExchangeOwnerWire × List Char) := do
  let (pluginId, input) ← readMember '{' "pluginId" readString input
  let (signerFingerprintSha256, input) ←
    readMember ',' "signerFingerprintSha256" readString input
  let (profileId, input) ← readMember ',' "profileId" readString input
  let input ← expect ['}'] input
  some ({ pluginId, signerFingerprintSha256, profileId }, input)

def readBinding (input : List Char) : Option (SyncObjectBinding × List Char) := do
  let (applicationId, input) ← readMember '{' "applicationId" readString input
  let (accountId, input) ← readMember ',' "accountId" readString input
  let (schema, input) ← readMember ',' "schema" (readAs readString readSchema) input
  let (objectKind, input) ← readMember ',' "objectKind" (readAs readString readKind) input
  let (revision, input) ← readMember ',' "revision" readRevision input
  let (baseRevision, input) ← readMember ',' "baseRevision" (readOptional readRevision) input
  let (baseEtag, input) ← readMember ',' "baseEtag" (readOptional readString) input
  let (keyVersion, input) ←
    readMember ',' "keyVersion" (readAs readNatural (some <| UInt32.ofNat ·)) input
  let input ← expect ['}'] input
  some (⟨applicationId, accountId, schema, objectKind, revision, baseRevision, baseEtag,
    keyVersion⟩, input)

def readRecovery (input : List Char) : Option (RecoveryWire × List Char) := do
  let (envelope, input) ← readMember '{' "envelope" readString input
  let (envelopeSha256, input) ← readMember ',' "envelopeSha256" readString input
  let input ← expect ['}'] input
  some ({ envelope, envelopeSha256 }, input)

def readEncrypted (input : List Char) : Option (EncryptedWire × List Char) := do
  let (algorithm, input) ← readMember '{' "algorithm" readString input
  let (nonce, input) ← readMember ',' "nonce" readString input
  let (ciphertext, input) ← readMember ',' "ciphertext" readString input
  let (ciphertextSha256, input) ← readMember ',' "ciphertextSha256" readString input
  let input ← expect ['}'] input
  some ({ algorithm, nonce, ciphertext, ciphertextSha256 }, input)

def readWire (input : List Char) : Option (ExchangeWire × List Char) := do
  let (format, input) ← readMember '{' "format" readString input
  let (owner, input) ← readMember ',' "owner" readOwner input
  let (binding, input) ← readMember ',' "binding" readBinding input
  let (recovery, input) ← readMember ',' "recovery" readRecovery input
  let (encrypted, input) ← readMember ',' "encrypted" readEncrypted input
  let input ← expect ['}'] input
  some ({ format, owner, binding, recovery, encrypted }, input)

def readExchange (bytes : List UInt8) : Except SyncCodecError ExchangeWire :=
  match (String.fromUTF8? ⟨bytes.toArray⟩).bind fun text => readWire text.toList with
  | some (wire, []) => .ok wire
  | _ => .error .serialization

theorem readRevision_natural (revision : UInt64) :
    Reads readRevision (natural revision.toNat) revision :=
  (readNatural_natural _).as (by rw [UInt64.ofNat_toNat])

theorem natural_ne_null {n : Nat} (rest : List Char) : natural n ≠ 'n' :: rest := by
  intro eq
  have digit : 'n'.isDigit := by
    apply Nat.isDigit_of_mem_toDigits (b := 10) (n := n) (by omega) (by omega)
    rw [← natural, eq]
    exact List.mem_cons_self
  exact absurd digit (by decide)

theorem expect_end (rest : List Char) : expect ['}'] (members ',' [] ++ rest) = some rest :=
  expect_append ['}'] rest

theorem readOwner_text (owner : ExchangeOwnerWire) (rest : List Char) :
    readOwner (owner.text ++ rest) = some (owner, rest) := by
  simp only [readOwner, ExchangeOwnerWire.text, object, Option.bind_eq_bind,
    readMember_members (readString_quote _), expect_end, Option.bind_some]

theorem readBinding_text (binding : SyncObjectBinding) (rest : List Char) :
    readBinding (binding.text ++ rest) = some (binding, rest) := by
  have schema : readSchema (schemaName binding.schema) = some binding.schema := by
    cases binding.schema <;> decide
  have kind : readKind binding.objectKind.name = some binding.objectKind := rfl
  have base := readOptional_optional readRevision_natural
    (fun revision rest => natural_ne_null rest) binding.baseRevision
  have etag := readOptional_optional readString_quote
    (fun value rest => by simp [quote]) binding.baseEtag
  have version : Reads (readAs readNatural (some <| UInt32.ofNat ·))
      (natural binding.keyVersion.toNat) binding.keyVersion :=
    (readNatural_natural _).as (by rw [UInt32.ofNat_toNat])
  simp only [readBinding, SyncObjectBinding.text, object, Option.bind_eq_bind,
    readMember_members (readString_quote _), readMember_members ((readString_quote _).as schema),
    readMember_members ((readString_quote _).as kind),
    readMember_members (readRevision_natural _), readMember_members base, readMember_members etag,
    readMember_members version, expect_end, Option.bind_some]

theorem readRecovery_text (recovery : RecoveryWire) (rest : List Char) :
    readRecovery (recovery.text ++ rest) = some (recovery, rest) := by
  simp only [readRecovery, RecoveryWire.text, object, Option.bind_eq_bind,
    readMember_members (readString_quote _), expect_end, Option.bind_some]

theorem readEncrypted_text (encrypted : EncryptedWire) (rest : List Char) :
    readEncrypted (encrypted.text ++ rest) = some (encrypted, rest) := by
  simp only [readEncrypted, EncryptedWire.text, object, Option.bind_eq_bind,
    readMember_members (readString_quote _), expect_end, Option.bind_some]

theorem readWire_text (wire : ExchangeWire) (rest : List Char) :
    readWire (wire.text ++ rest) = some (wire, rest) := by
  have owner : Reads readOwner wire.owner.text wire.owner := fun _ _ _ => readOwner_text _ _
  have binding : Reads readBinding wire.binding.text wire.binding :=
    fun _ _ _ => readBinding_text _ _
  have recovery : Reads readRecovery wire.recovery.text wire.recovery :=
    fun _ _ _ => readRecovery_text _ _
  have encrypted : Reads readEncrypted wire.encrypted.text wire.encrypted :=
    fun _ _ _ => readEncrypted_text _ _
  simp only [readWire, ExchangeWire.text, object, Option.bind_eq_bind,
    readMember_members (readString_quote _), readMember_members owner, readMember_members binding,
    readMember_members recovery, readMember_members encrypted, expect_end, Option.bind_some]

theorem fromUTF8?_utf8 (text : List Char) :
    String.fromUTF8? ⟨(utf8 text).toArray⟩ = some (String.ofList text) := by
  have bytes : (⟨(utf8 text).toArray⟩ : ByteArray) = (String.ofList text).toByteArray := by
    simp [utf8]
  rw [bytes, String.fromUTF8?, dif_pos (String.isValidUTF8 _)]
  rfl

theorem readExchange_toVec (wire : ExchangeWire) : readExchange wire.toVec = .ok wire := by
  have text : String.fromUTF8? ⟨wire.toVec.toArray⟩ = some (String.ofList wire.text) :=
    fromUTF8?_utf8 wire.text
  have read := readWire_text wire []
  rw [List.append_nil] at read
  simp [readExchange, text, read]

def sampleLibraries : ExchangeLibraries where
  bundles := identityPairCodec
  inverts := identityPairCodec_inverts
  fromSlice := readExchange
  fromSlice_toVec := readExchange_toVec
  sha256 _ := Vector.replicate 32 0
  encrypt _ _ _ message := message ++ List.replicate 16 0
  decrypt _ _ _ ciphertext := some (ciphertext.take (ciphertext.length - 16))
  decrypt_encrypt _ _ _ message := by simp
  length_encrypt _ _ _ message := by simp

def sampleBinding : PluginExchangeBinding where
  pluginId := "sync"
  signerFingerprintSha256 := hexText (List.replicate 32 171)
  profileId := "home"
  revision := 1
  baseRevision := none
  baseEtag := none

theorem plugin_exchange_reads_back_sample :
    ∃ bytes, sampleLibraries.createPluginExchangeWithKey identityPair (Vector.replicate 32 1)
        (Vector.replicate 24 2) [3] sampleBinding = .ok bytes ∧
      sampleLibraries.openPluginExchangeWithKey bytes (Vector.replicate 32 1) sampleBinding =
        .ok identityPair.sorted := by
  have fits : sampleLibraries.bundles.canonicalBundleBytes identityPair = .ok [123, 125] := by
    decide +kernel
  have canonical : identityPair.canonicalized = .ok identityPair.sorted := by
    decide +kernel
  have checked : ExchangeLibraries.checkExchangeInputs identityPair [3] sampleBinding = .ok () := by
    decide +kernel
  obtain ⟨bytes, found, created, sorted, opened, -⟩ := plugin_exchange_reads_back sampleLibraries
    identityPair (Vector.replicate 32 1) (Vector.replicate 24 2) [3] sampleBinding checked
    [123, 125] fits
  rw [canonical] at sorted
  cases sorted
  exact ⟨bytes, created, opened⟩

end NoriShell.Exchange

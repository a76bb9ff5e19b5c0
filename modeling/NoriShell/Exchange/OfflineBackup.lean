import NoriShell.Exchange.PluginExchangeLaws

/-! The backup file that is locked with a password, and the sizes it can carry. -/

namespace NoriShell.Exchange.OfflineBackup

open Collections Sync JsonText

def format : String := "norishell-offline-backup-v1"
def kdf : String := "argon2id-v1:m=65536,t=3,p=1"
def cipher : String := "xchacha20poly1305-v1"

def associatedData : String :=
  "norishell:offline-backup:v1:argon2id-v1:m=65536,t=3,p=1:xchacha20poly1305-v1"

def maxPlaintextBytes : Nat := 192 * 1024 * 1024
def maxFileBytes : Nat := 256 * 1024 * 1024

abbrev Salt := Vector UInt8 16

structure Envelope where
  format : String
  kdf : String
  cipher : String
  salt : String
  nonce : String
  ciphertext : String
  deriving DecidableEq

def Envelope.text (envelope : Envelope) : List Char :=
  object [("format", quote envelope.format), ("kdf", quote envelope.kdf),
    ("cipher", quote envelope.cipher),
    ("salt", quote envelope.salt),
    ("nonce", quote envelope.nonce),
    ("ciphertext", quote envelope.ciphertext)]

def Envelope.toVec (envelope : Envelope) : List UInt8 :=
  utf8 envelope.text

inductive BackupError
  | codec (error : SyncCodecError)
  | unsupportedKdfProfile
  deriving DecidableEq

/-- Key derivation, the cipher and the JSON reader, as `ExchangeLibraries` has them. -/
structure BackupLibraries where
  fromSlice : List UInt8 → Except SyncCodecError Envelope
  fromSlice_toVec : ∀ envelope, fromSlice envelope.toVec = .ok envelope
  deriveKey : (password : List UInt8) → Salt → SyncKey
  encrypt : SyncKey → Nonce → (associated message : List UInt8) → List UInt8
  decrypt : SyncKey → Nonce → (associated ciphertext : List UInt8) → Option (List UInt8)
  decrypt_encrypt : ∀ key nonce associated message,
    decrypt key nonce associated (encrypt key nonce associated message) = some message
  length_encrypt : ∀ key nonce associated message,
    (encrypt key nonce associated message).length = message.length + 16

def decodeFixed (n : Nat) (value field : String) : Except SyncCodecError (Vector UInt8 n) := do
  let decoded ← (Base64.standard.decode value.toList).elim (.error (.invalidBundle field)) .ok
  reject (encodeBase64 .standard decoded ≠ value) (.invalidBundle field)
  if h : decoded.length = n then .ok ⟨decoded.toArray, h⟩ else .error (.invalidBundle field)

def decodeCiphertext (value : String) : Except SyncCodecError (List UInt8) :=
  match Base64.standard.decode value.toList with
  | none => .error (.invalidBundle "offline backup ciphertext")
  | some decoded =>
    if encodeBase64 .standard decoded ≠ value then
      .error (.invalidBundle "offline backup ciphertext")
    else .ok decoded

namespace BackupLibraries

variable (libs : BackupLibraries)

def envelopeOf (password : List UInt8) (salt : Salt) (nonce : Nonce) (plaintext : List UInt8) :
    Envelope where
  format := OfflineBackup.format
  kdf := OfflineBackup.kdf
  cipher := OfflineBackup.cipher
  salt := encodeBase64 .standard salt.toList
  nonce := encodeBase64 .standard nonce.toList
  ciphertext := encodeBase64 .standard
    (libs.encrypt (libs.deriveKey password salt) nonce (utf8 associatedData.toList) plaintext)

/-- The salt and the nonce are the ones drawn for this file. -/
def encryptOfflineBackup (password : List UInt8) (salt : Salt) (nonce : Nonce)
    (plaintext : List UInt8) : Except BackupError (List UInt8) := do
  reject (plaintext = []) (.codec (.invalidBundle "offline backup payload is empty"))
  reject (plaintext.length > maxPlaintextBytes)
    (.codec (.boundExceeded "offline backup payload"))
  let encoded := (libs.envelopeOf password salt nonce plaintext).toVec
  reject (encoded.length > maxFileBytes) (.codec (.boundExceeded "offline backup file"))
  pure encoded

def decryptOfflineBackup (password encoded : List UInt8) : Except BackupError (List UInt8) := do
  reject (encoded = [] ∨ encoded.length > maxFileBytes)
    (.codec (.boundExceeded "offline backup file"))
  let envelope ← (libs.fromSlice encoded).mapError .codec
  reject (envelope.format ≠ OfflineBackup.format ∨ envelope.cipher ≠ OfflineBackup.cipher)
    (.codec (.invalidBundle "offline backup format"))
  reject (envelope.kdf ≠ OfflineBackup.kdf) .unsupportedKdfProfile
  let salt ← (decodeFixed 16 envelope.salt "offline backup salt").mapError .codec
  let nonce ← (decodeFixed 24 envelope.nonce "offline backup nonce").mapError .codec
  reject (envelope.ciphertext.utf8ByteSize > (maxPlaintextBytes + 16 + 2) / 3 * 4 + 4)
    (.codec (.boundExceeded "offline backup ciphertext"))
  let ciphertext ← (decodeCiphertext envelope.ciphertext).mapError .codec
  match libs.decrypt (libs.deriveKey password salt) nonce (utf8 associatedData.toList) ciphertext with
  | none => .error (.codec .authenticationFailed)
  | some plaintext =>
    reject (plaintext = [] ∨ plaintext.length > maxPlaintextBytes)
      (.codec (.boundExceeded "offline backup payload"))
    pure plaintext

end BackupLibraries

section

open String

variable (libs : BackupLibraries) (password : List UInt8) (salt : Salt) (nonce : Nonce)
  (plaintext : List UInt8)

theorem decodeFixed_encode {n : Nat} (bytes : Vector UInt8 n) (field : String) :
    decodeFixed n (encodeBase64 .standard bytes.toList) field = .ok bytes := by
  rw [decodeFixed, decode_encodeBase64, Check.bind_eq_ok]
  refine ⟨bytes.toList, rfl, Check.bind_unit_eq_ok.2 ⟨Check.reject_eq_ok.2 (by simp), ?_⟩⟩
  simp only [Vector.length_toList, dite_true]
  congr 1

theorem decodeCiphertext_encode (bytes : List UInt8) :
    decodeCiphertext (encodeBase64 .standard bytes) = .ok bytes := by
  simp [decodeCiphertext]

theorem utf8Len_quote_encodeBase64 (bytes : List UInt8) :
    utf8Len (quote (encodeBase64 .standard bytes)) = (bytes.length + 2) / 3 * 4 + 2 := by
  rw [utf8Len_quote fun c mem => (mem_encodeBase64 mem).2, utf8Len_encodeBase64]

theorem length_toVec_envelopeOf : (libs.envelopeOf password salt nonce plaintext).toVec.length =
      (plaintext.length + 16 + 2) / 3 * 4 + 201 := by
  have fixed : utf8Len (quote OfflineBackup.format) = 29 ∧ utf8Len (quote OfflineBackup.kdf) = 29 ∧
      utf8Len (quote OfflineBackup.cipher) = 22 := by decide +kernel
  have keys : utf8Len (quote "format") = 8 ∧ utf8Len (quote "kdf") = 5 ∧
      utf8Len (quote "cipher") = 8 ∧ utf8Len (quote "salt") = 6 ∧ utf8Len (quote "nonce") = 7 ∧
      utf8Len (quote "ciphertext") = 12 := by decide +kernel
  rw [Envelope.toVec, length_utf8, Envelope.text, object.eq_2 _ (by simp), utf8Len_members '{' rfl]
  simp only [BackupLibraries.envelopeOf, List.map_cons, List.map_nil, List.sum_cons, List.sum_nil,
    utf8Len_quote_encodeBase64, fixed, keys, libs.length_encrypt, Vector.length_toList]
  omega

theorem encryptOfflineBackup_eq_ok {file : List UInt8} :
    libs.encryptOfflineBackup password salt nonce plaintext = .ok file ↔
      plaintext ≠ [] ∧ plaintext.length ≤ maxPlaintextBytes ∧
        (libs.envelopeOf password salt nonce plaintext).toVec = file ∧
        file.length ≤ maxFileBytes := by
  simp only [BackupLibraries.encryptOfflineBackup, Check.bind_unit_eq_ok, Check.reject_eq_ok,
    not_lt]
  constructor
  · rintro ⟨nonempty, small, fits, same⟩
    cases same
    exact ⟨nonempty, small, rfl, fits⟩
  · rintro ⟨nonempty, small, rfl, fits⟩
    exact ⟨nonempty, small, fits, rfl⟩

theorem decryptOfflineBackup_toVec (nonempty : plaintext ≠ [])
    (small : plaintext.length ≤ maxPlaintextBytes)
    (fits : (libs.envelopeOf password salt nonce plaintext).toVec.length ≤ maxFileBytes) :
    libs.decryptOfflineBackup password (libs.envelopeOf password salt nonce plaintext).toVec =
      .ok plaintext := by
  have length := length_toVec_envelopeOf libs password salt nonce plaintext
  have written : (libs.envelopeOf password salt nonce plaintext).toVec ≠ [] := by
    intro empty
    rw [empty] at length
    simp at length
  have short : (libs.envelopeOf password salt nonce plaintext).ciphertext.utf8ByteSize ≤
      (maxPlaintextBytes + 16 + 2) / 3 * 4 + 4 := by
    rw [BackupLibraries.envelopeOf, utf8ByteSize_eq, utf8Len_encodeBase64, libs.length_encrypt]
    omega
  have first : ¬((libs.envelopeOf password salt nonce plaintext).toVec = [] ∨
      (libs.envelopeOf password salt nonce plaintext).toVec.length > maxFileBytes) := by
    simp [written, fits]
  simp only [BackupLibraries.decryptOfflineBackup, Check.reject_eq_ok, Check.bind_eq_ok,
    libs.fromSlice_toVec]
  refine ⟨(), first, _, rfl, (), by simp [BackupLibraries.envelopeOf], (),
    by simp [BackupLibraries.envelopeOf], salt, ?_, nonce, ?_, (), not_lt.mpr short,
    libs.encrypt (libs.deriveKey password salt) nonce (utf8 associatedData.toList) plaintext,
    ?_, ?_⟩
  · rw [BackupLibraries.envelopeOf, decodeFixed_encode]
    rfl
  · rw [BackupLibraries.envelopeOf, decodeFixed_encode]
    rfl
  · rw [BackupLibraries.envelopeOf, decodeCiphertext_encode]
    rfl
  · rw [libs.decrypt_encrypt]
    simp [nonempty, small, pure, Except.pure]

theorem encryptOfflineBackup_too_large (nonempty : plaintext ≠ [])
    (small : plaintext.length ≤ maxPlaintextBytes)
    (large : maxFileBytes < (libs.envelopeOf password salt nonce plaintext).toVec.length) :
    libs.encryptOfflineBackup password salt nonce plaintext =
      .error (.codec (.boundExceeded "offline backup file")) := by
  simp [BackupLibraries.encryptOfflineBackup, reject, nonempty, not_lt.mpr small, large, bind,
    Except.bind]

/-- A payload goes through a backup exactly up to a size that lies 169 bytes below the stated
one. -/
theorem backup_reads_back_iff (nonempty : plaintext ≠ [])
    (small : plaintext.length ≤ maxPlaintextBytes) :
    (∃ file, libs.encryptOfflineBackup password salt nonce plaintext = .ok file ∧
        libs.decryptOfflineBackup password file = .ok plaintext) ↔
      plaintext.length ≤ maxPlaintextBytes - 169 := by
  have length := length_toVec_envelopeOf libs password salt nonce plaintext
  have limit : (libs.envelopeOf password salt nonce plaintext).toVec.length ≤ maxFileBytes ↔
      plaintext.length ≤ maxPlaintextBytes - 169 := by
    rw [length, maxFileBytes, maxPlaintextBytes]
    omega
  simp only [encryptOfflineBackup_eq_ok]
  rw [← limit]
  constructor
  · rintro ⟨file, ⟨-, -, rfl, fits⟩, -⟩
    exact fits
  · intro fits
    exact ⟨_, ⟨nonempty, small, rfl, fits⟩,
      decryptOfflineBackup_toVec libs password salt nonce plaintext nonempty small fits⟩

end

def readEnvelope (input : List Char) : Option (Envelope × List Char) := do
  let (format, input) ← readMember '{' "format" readString input
  let (kdf, input) ← readMember ',' "kdf" readString input
  let (cipher, input) ← readMember ',' "cipher" readString input
  let (salt, input) ← readMember ',' "salt" readString input
  let (nonce, input) ← readMember ',' "nonce" readString input
  let (ciphertext, input) ← readMember ',' "ciphertext" readString input
  let input ← expect ['}'] input
  some ({ format, kdf, cipher, salt, nonce, ciphertext }, input)

def readFile (bytes : List UInt8) : Except SyncCodecError Envelope :=
  match (String.fromUTF8? ⟨bytes.toArray⟩).bind fun text => readEnvelope text.toList with
  | some (envelope, []) => .ok envelope
  | _ => .error .serialization

theorem readFile_toVec (envelope : Envelope) : readFile envelope.toVec = .ok envelope := by
  have text : String.fromUTF8? ⟨envelope.toVec.toArray⟩ = some (String.ofList envelope.text) :=
    fromUTF8?_utf8 envelope.text
  have read : readEnvelope (envelope.text ++ []) = some (envelope, []) := by
    simp only [readEnvelope, Envelope.text, object, Option.bind_eq_bind,
      readMember_members (readString_quote _), expect_end, Option.bind_some]
  rw [List.append_nil] at read
  simp [readFile, text, read]

theorem take_padded (message : List UInt8) : some ((message ++ List.replicate 16 0).take
      ((message ++ List.replicate 16 0).length - 16)) = some message := by
  simp

theorem length_padded (message : List UInt8) :
    (message ++ List.replicate 16 0).length = message.length + 16 := by
  simp

def plainLibraries : BackupLibraries where
  fromSlice := readFile
  fromSlice_toVec := readFile_toVec
  deriveKey _ _ := Vector.replicate 32 0
  encrypt _ _ _ message := message ++ List.replicate 16 0
  decrypt _ _ _ ciphertext := some (ciphertext.take (ciphertext.length - 16))
  decrypt_encrypt _ _ _ message := take_padded message
  length_encrypt _ _ _ message := length_padded message

theorem backup_reads_back_one_byte :
    ∃ file, plainLibraries.encryptOfflineBackup [] (Vector.replicate 16 0)
        (Vector.replicate 24 0) [7] = .ok file ∧
      plainLibraries.decryptOfflineBackup [] file = .ok [7] :=
  (backup_reads_back_iff plainLibraries [] (Vector.replicate 16 0) (Vector.replicate 24 0) [7]
    (by decide) (by decide)).mpr (by decide)

/-- The largest payload of the stated size. -/
theorem largest_payload_rejected :
    plainLibraries.encryptOfflineBackup [] (Vector.replicate 16 0) (Vector.replicate 24 0)
        (List.replicate maxPlaintextBytes 0) =
      .error (.codec (.boundExceeded "offline backup file")) := by
  apply encryptOfflineBackup_too_large
  · rw [ne_eq, List.replicate_eq_nil_iff]
    decide
  · rw [List.length_replicate]
  · rw [length_toVec_envelopeOf, List.length_replicate]
    decide

end NoriShell.Exchange.OfflineBackup

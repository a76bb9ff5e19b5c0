import NoriShell.Collections.Codes
import NoriShell.Exchange.PluginExchangeLaws

/-! The text that an exchange is bound to, as the account of its owner. -/

namespace NoriShell.Exchange

open Collections Sync

structure RecoveryOwnerBinding where
  applicationId : String
  accountId : String
  keyVersion : UInt32
  deriving DecidableEq

def RecoveryOwnerBinding.validate (binding : RecoveryOwnerBinding) :
    Except SyncCodecError Unit := do
  validateOwnerText binding.applicationId "application ID"
  validateOwnerText binding.accountId "account ID"
  reject (binding.keyVersion = 0) (.invalidBundle "sync key version must be positive")

def recoveryOwner (binding : PluginExchangeBinding) (keyVersion : UInt32) : RecoveryOwnerBinding :=
  ⟨"norishell", binding.ownerId, keyVersion⟩

def NoDigit (rest : List Char) : Prop := ∀ c ∈ rest.head?, c.isDigit = false

theorem noDigit_colon (rest : List Char) : NoDigit (':' :: rest) := by
  simp [NoDigit]

theorem isDigit_of_mem_repr {n : Nat} {c : Char} (mem : c ∈ (Nat.repr n).toList) : c.isDigit := by
  apply Nat.isDigit_of_mem_toDigits (b := 10) (n := n) (by omega) (by omega)
  simpa [Nat.repr] using mem

theorem legible_repr : Legible (fun n => (Nat.repr n).toList) NoDigit := by
  apply Legible.spanned
  · intro m n same
    exact Nat.repr_inj.1 (String.toList_injective same)
  · intro n c mem
    exact isDigit_of_mem_repr mem

theorem utf8ByteSize_eq_sum (s : String) : s.utf8ByteSize = (s.toList.map Char.utf8Size).sum := by
  rw [utf8ByteSize_eq]
  induction s.toList with
  | nil => rfl
  | cons c text ih => rw [String.utf8Len_cons, ih, List.map_cons, List.sum_cons, Nat.add_comm]

def sizedText (text : List Char) : List Char :=
  (Nat.repr (text.map Char.utf8Size).sum).toList ++ ':' :: text

theorem legible_sizedText (next : List Char → Prop) : Legible sizedText next :=
  legible_repr.sized Char.utf8Size Char.utf8Size_pos ':' noDigit_colon

abbrev Fingerprint := {text : List Char // text.length = 64}

theorem legible_fingerprint (next : List Char → Prop) :
    Legible (fun fingerprint : Fingerprint => fingerprint.1) next :=
  .fixed Subtype.val_injective fun a b => a.2.trans b.2.symm

def ownerText (owner : List Char × Fingerprint × List Char) : List Char :=
  "plugin:".toList ++ (sizedText owner.1 ++ ':' :: ("signer:".toList ++ (owner.2.1.1 ++ ':' ::
    ("profile:".toList ++ sizedText owner.2.2))))

theorem legible_ownerText : Legible ownerText (fun _ => True) := by
  have profile := (legible_sizedText fun _ => True).behind "profile:".toList
  have signer := (legible_fingerprint fun _ => True).separated profile ':' fun _ => trivial
  have plugin := (legible_sizedText fun _ => True).separated (signer.behind "signer:".toList) ':'
    fun _ => trivial
  exact plugin.behind "plugin:".toList

theorem ownerText_injective : Function.Injective ownerText := fun a b same =>
  (legible_ownerText a b [] [] trivial trivial (by rw [same])).1

namespace PluginExchangeBinding

variable {a b : PluginExchangeBinding}

theorem Valid.signer_length (valid : a.Valid) : a.signerFingerprintSha256.toList.length = 64 := by
  have signer := validSha256_iff.mp valid.signer
  have ascii : ∀ c ∈ a.signerFingerprintSha256.toList, c.toNat ≤ 126 := fun c mem =>
    (range_of_isLowerHex (signer.2 c mem)).2.trans (by decide)
  rw [← utf8Len_of_ascii ascii, ← utf8ByteSize_eq]
  exact signer.1

theorem Valid.ownerId_toList (valid : a.Valid) : a.ownerId.toList = ownerText (a.pluginId.toList,
      ⟨a.signerFingerprintSha256.toList, valid.signer_length⟩, a.profileId.toList) := by
  -- the fixed parts stay variables here, so that nothing unfolds them
  have parts (plugin colon signer profile n id fingerprint m name : String)
      (afterSigner afterProfile : List Char) (one : colon.toList = [':'])
      (signerParts : signer.toList = ':' :: afterSigner)
      (profileParts : profile.toList = ':' :: afterProfile) :
      (plugin ++ n ++ colon ++ id ++ signer ++ fingerprint ++ profile ++ m ++ colon ++ name).toList =
        plugin.toList ++ ((n.toList ++ ':' :: id.toList) ++ ':' :: (afterSigner ++
          (fingerprint.toList ++ ':' :: (afterProfile ++ (m.toList ++ ':' :: name.toList))))) := by
    simp [one, signerParts, profileParts]
  unfold ownerId ownerText sizedText
  rw [utf8ByteSize_eq_sum, utf8ByteSize_eq_sum]
  exact parts "plugin:" ":" ":signer:" ":profile:" _ _ _ _ _ "signer:".toList "profile:".toList
    (by decide) (by decide) (by decide)

theorem Valid.owner_eq_of_ownerId_eq (valid : a.Valid) (valid' : b.Valid)
    (same : a.ownerId = b.ownerId) : a.pluginId = b.pluginId ∧
      a.signerFingerprintSha256 = b.signerFingerprintSha256 ∧ a.profileId = b.profileId := by
  have texts := congrArg String.toList same
  rw [valid.ownerId_toList, valid'.ownerId_toList] at texts
  have parts := ownerText_injective texts
  simp only [Prod.mk.injEq, Subtype.mk.injEq] at parts
  exact ⟨String.toList_injective parts.1, String.toList_injective parts.2.1,
    String.toList_injective parts.2.2⟩

theorem Valid.validate_recoveryOwner (valid : a.Valid) {keyVersion : UInt32}
    (positive : keyVersion ≠ 0) : (recoveryOwner a keyVersion).validate = .ok () := by
  have application : validateOwnerText "norishell" "application ID" = .ok () := by decide
  simp only [RecoveryOwnerBinding.validate, recoveryOwner, Check.bind_unit_eq_ok]
  exact ⟨application, valid.ownerId_accepted _, Check.reject_eq_ok.mpr positive⟩

/-- Owner ids of valid bindings tell their owners apart, and are accepted as accounts. -/
theorem ownerId_identifies_owner (a : PluginExchangeBinding) (valid : a.validate = .ok ()) :
    (∀ b : PluginExchangeBinding, b.validate = .ok () → a.ownerId = b.ownerId →
      a.pluginId = b.pluginId ∧ a.signerFingerprintSha256 = b.signerFingerprintSha256 ∧
        a.profileId = b.profileId) ∧
    (∀ field, validateOwnerText a.ownerId field = .ok ()) ∧
    ∀ keyVersion : UInt32, keyVersion ≠ 0 →
      (∀ schema, (objectBindingForSchema a keyVersion schema).validate = .ok ()) ∧
        (recoveryOwner a keyVersion).validate = .ok () := by
  have valid := validate_eq_ok.1 valid
  refine ⟨?_, valid.ownerId_accepted, ?_⟩
  · intro b valid' same
    exact valid.owner_eq_of_ownerId_eq (validate_eq_ok.1 valid') same
  · intro keyVersion positive
    exact ⟨valid.validate_objectBinding_at positive, valid.validate_recoveryOwner positive⟩

def separatorBinding : PluginExchangeBinding where
  pluginId := "a:signer:0:profile:1:b"
  signerFingerprintSha256 := "0000000000000000000000000000000000000000000000000000000000000000"
  profileId := "12:c:profile:3:d"
  revision := 1
  baseRevision := none
  baseEtag := none

theorem ownerId_identifies_owner_with_separators : separatorBinding.validate = .ok () ∧
      validateOwnerText separatorBinding.ownerId "account ID" = .ok () := by
  have valid : separatorBinding.validate = .ok () := by decide +kernel
  exact ⟨valid, (ownerId_identifies_owner separatorBinding valid).2.1 "account ID"⟩

end PluginExchangeBinding

end NoriShell.Exchange

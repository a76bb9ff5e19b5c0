import NoriShell.Sync.ObjectChecks

/-! Validation of preferences and of a whole bundle. -/

namespace NoriShell.Sync

open Collections

namespace JsonValue

def escapedLen (c : Char) : Nat :=
  if c = '"' ∨ c = '\\' ∨ c.toNat ∈ [0x08, 0x09, 0x0a, 0x0c, 0x0d] then 2
  else if c.toNat < 0x20 then 6
  else c.utf8Size

def stringLen (s : String) : Nat :=
  2 + (s.toList.map escapedLen).sum

def integerLen (n : Int) : Nat :=
  (Nat.toDigits 10 n.natAbs).length + if n < 0 then 1 else 0

end JsonValue

mutual

def JsonValue.encodedLen : JsonValue → Nat
  | .null => 4
  | .bool value => if value then 4 else 5
  | .integer value => JsonValue.integerLen value
  | .float text => text.utf8ByteSize
  | .string value => JsonValue.stringLen value
  | .array items => 2 + (items.encodedLen - 1)
  | .object fields => 2 + (fields.encodedLen - 1)

def JsonItems.encodedLen : JsonItems → Nat
  | .nil => 0
  | .cons head tail => head.encodedLen + 1 + tail.encodedLen

def JsonFields.encodedLen : JsonFields → Nat
  | .nil => 0
  | .cons key value tail =>
    JsonValue.stringLen key + 1 + value.encodedLen + 1 + tail.encodedLen

end

def JsonFields.keys : JsonFields → List String
  | .nil => []
  | .cons key _ tail => key :: tail.keys

def JsonFields.ofList : List (String × JsonValue) → JsonFields
  | [] => .nil
  | (key, value) :: tail => .cons key value (ofList tail)

def JsonValue.asObject : JsonValue → Option JsonFields
  | .object fields => some fields
  | _ => none

namespace PortablePreferencesV1

def groupShapes : List (String × List String) :=
  [("application",
      ["themePreference", "locale", "uiZoom", "terminalStartupBehavior", "newTerminalBehavior",
        "singlePaneTabCloseBehavior"]),
    ("appearance",
      ["terminalThemeMode", "terminalFontFamily", "terminalFontSize", "terminalFontWeight",
        "terminalBoldFontWeight", "terminalLineHeight", "terminalLetterSpacing",
        "terminalCursorStyle", "terminalCursorBlink", "customTerminalPalette",
        "customTerminalPaletteName"]),
    ("interaction", ["interaction", "pasteWarning"]),
    ("highlights", ["enabled", "rules"]),
    ("shortcuts", ["version", "bindings"]),
    ("files", ["browser", "rememberLastDirectory"]),
    ("desktop", ["windowCloseBehavior", "trayShowStatus", "trayRecentLimit", "trayShowHostNames",
        "notificationBackgroundOnly", "notificationFailureOnly", "notifyTransferCompleted",
        "notifyTransferFailed", "notifyDisconnected"]),
    ("commandNotifications", ["notificationsEnabled", "notificationThresholdSeconds"])]

def toJson (p : PortablePreferencesV1) : JsonValue :=
  .object (.ofList
    [("product", .string p.product), ("version", .integer p.version.toNat),
      ("groups", .object (.ofList p.groups.toList))])

def validateGroup (p : PortablePreferencesV1) (group : String) (keys : List String) :
    Except SyncCodecError Unit :=
  match (p.groups.get? group).bind JsonValue.asObject with
  | none => .error (.invalidBundle "missing preferences group")
  | some fields =>
    let optionalAppTheme := group == "appearance" && fields.keys.contains "appTheme"
    reject (fields.keys.length ≠ keys.length + optionalAppTheme.toNat ∨ fields.keys.any fun key =>
          !keys.contains key && !(group == "appearance" && key == "appTheme"))
      (.invalidBundle "invalid preferences group shape")

def validate (p : PortablePreferencesV1) : Except SyncCodecError Unit := do
  reject (p.product ≠ "NoriShell" ∨ p.version ≠ 1 ∨ p.groups.size ≠ groupShapes.length)
    (.invalidBundle "invalid preferences transfer header")
  reject (p.toJson.encodedLen > 256 * 1024) (.boundExceeded "preferences")
  each groupShapes fun (group, keys) => p.validateGroup group keys

end PortablePreferencesV1

namespace BundleSchema

def supportsDesktopProfiles : BundleSchema → Bool
  | .v3 | .v4 | .v5 | .v6 => true
  | .v1 | .v2 => false

def supportsUpdateTimes : BundleSchema → Bool
  | .v5 | .v6 => true
  | _ => false

end BundleSchema

namespace PortableCredentialMaterial

def secretRefs : PortableCredentialMaterial → List (PortableObjectId × PortableSecretKind)
  | .password passwordSecretId => [(passwordSecretId, .password)]
  | .privateKey _ _ privateKeySecretId passphraseSecretId =>
    (privateKeySecretId, .privateKey) :: passphraseSecretId.toList.map (·, .passphrase)
  | .certificate _ _ certificateSecretId privateKeySecretId passphraseSecretId =>
    (certificateSecretId, .certificate) :: (privateKeySecretId.toList.map (·, .privateKey) ++
        passphraseSecretId.toList.map (·, .passphrase))
  | .keyboardInteractive _ => []

def isPassword : PortableCredentialMaterial → Bool
  | .password _ => true
  | _ => false

end PortableCredentialMaterial

def RouteIngress.credentialId : RouteIngress → Option PortableObjectId
  | .direct => none
  | .httpConnect _ _ _ credentialId => credentialId
  | .socks5 _ _ _ credentialId _ => credentialId

def LoginAutomationStep.secretId : LoginAutomationStep → Option PortableObjectId
  | .sendSecret secretId _ _ _ => some secretId
  | _ => none

namespace PortableBundleV1

def idsOf (b : PortableBundleV1) (k : PortableObjectKind) : List PortableObjectId :=
  (b.items k).map k.valueId

/-- The last value with the given id, as collecting the list into a map keeps it. -/
def credentialById (b : PortableBundleV1) (id : PortableObjectId) : Option PortableCredential :=
  (BTreeMap.ofList (b.objects.credentials.map fun c => (c.id, c))).get? id

def identityCredentialIds (b : PortableBundleV1) (id : PortableObjectId) :
    Option (List PortableObjectId) :=
  (BTreeMap.ofList (b.objects.identities.map fun i => (i.id, i.credentialIds))).get? id

def secretKindById (b : PortableBundleV1) (id : PortableObjectId) : Option PortableSecretKind :=
  (BTreeMap.ofList (b.secrets.map fun s => (s.id, s.kind))).get? id

def hostDangling (b : PortableBundleV1) (host : PortableHost) : Bool :=
  !(b.idsOf .route).contains host.routeId ||
    !(b.idsOf .authenticationPlan).contains host.authenticationPlanId ||
    !(b.idsOf .algorithmPolicy).contains host.algorithmPolicyId ||
    !(b.idsOf .heartbeatPolicy).contains host.heartbeatPolicyId ||
    !(b.idsOf .monitoringPolicy).contains host.monitoringPolicyId ||
    host.identityId.any (fun id => !(b.idsOf .identity).contains id) ||
    host.loginAutomationId.any (fun id => !(b.idsOf .loginAutomation).contains id)

/-- A desktop may use only a password credential that its identity lists. -/
def desktopDangling (b : PortableBundleV1) (desktop : PortableDesktopProfile) : Bool :=
  desktop.hostId.any (fun id => !(b.idsOf .host).contains id) ||
    desktop.gatewayHostId.any (fun id => !(b.idsOf .host).contains id) ||
    desktop.credentialId.any fun id =>
      match b.credentialById id with
      | none => true
      | some credential =>
        !credential.material.isPassword ||
          !(b.identityCredentialIds credential.identityId).any (·.contains id)

def identityDangling (b : PortableBundleV1) (identity : PortableIdentity) : Bool :=
  identity.credentialIds.any fun id => !(b.idsOf .credential).contains id

def credentialDangling (b : PortableBundleV1) (credential : PortableCredential) : Bool :=
  !(b.idsOf .identity).contains credential.identityId ||
    credential.material.secretRefs.any fun (id, expected) => b.secretKindById id ≠ some expected

def routeDangling (b : PortableBundleV1) (route : PortableRoute) : Bool :=
  route.jumpHops.any (fun hop => !(b.idsOf .host).contains hop.hostId) ||
    route.ingress.credentialId.any fun id =>
      !((b.credentialById id).any fun credential => credential.material.isPassword)

def planDangling (b : PortableBundleV1) (plan : PortableAuthenticationPlan) : Bool :=
  plan.credentialIds.any fun id => !(b.idsOf .credential).contains id

def automationDangling (b : PortableBundleV1) (automation : PortableLoginAutomation) : Bool :=
  automation.steps.any fun step =>
    step.secretId.any fun id => b.secretKindById id ≠ some .loginAutomation

def dangling (b : PortableBundleV1) : (k : PortableObjectKind) → k.Value → Bool
  | .host => b.hostDangling
  | .desktopProfile => b.desktopDangling
  | .identity => b.identityDangling
  | .credential => b.credentialDangling
  | .route => b.routeDangling
  | .authenticationPlan => b.planDangling
  | .loginAutomation => b.automationDangling
  | .algorithmPolicy | .heartbeatPolicy | .monitoringPolicy | .secret => fun _ => false

def validateReferences (b : PortableBundleV1) : Except SyncCodecError Unit :=
  each PortableObjectKind.all fun k =>
    each (b.items k) fun v => reject (b.dangling k v) .danglingObjectReference

def requiresDesktopModeSchema (b : PortableBundleV1) : Bool :=
  b.objects.desktopProfiles.any PortableDesktopProfile.requiresModeSchema

def validateSelectedCategories (b : PortableBundleV1) (selected : List PortableDataCategory) :
    Except SyncCodecError Unit := do
  reject (b.schema ≠ .v6 ∨ selected = [] ∨ selected.length > 3 ∨
      (selected.zip selected.tail).any fun pair => decide (pair.1 ≥ pair.2))
    (.invalidBundle "invalid selected categories")
  reject (b.allNodes.any fun node => !selected.contains (PortableDataCategory.forKind node.kind))
    (.invalidBundle "exchange contains an unselected category")
  reject (!selected.contains .credentials ∧ b.skippedMachineBound ≠ [])
    (.invalidBundle "exchange contains an unselected category")

def validateScope (b : PortableBundleV1) : Except SyncCodecError Unit :=
  match b.selectedCategories with
  | some selected => b.validateSelectedCategories selected
  | none => .ok ()

def validatePreferences (b : PortableBundleV1) : Except SyncCodecError Unit :=
  match b.schema, b.preferences with
  | .v4, some preferences | .v5, some preferences | .v6, some preferences => preferences.validate
  | .v4, none | .v5, none => .error (.invalidBundle "bundle v4/v5 requires preferences")
  | _, some _ => .error (.invalidBundle "preferences require bundle v4")
  | _, none => .ok ()

def validateObjects (b : PortableBundleV1) : Except SyncCodecError Unit := do
  each PortableObjectKind.objectKinds fun k => validateCount (b.items k).length k.countName
  each PortableObjectKind.objectKinds fun k => each (b.items k) k.validateValue

def validateUpdateTimes (present : List ObjectNode) :
    List ObjectNode → List PortableItemUpdateTime → Except SyncCodecError Unit
  | _, [] => .ok ()
  | timed, item :: rest => do
    reject (item.updateTimeUnixMs ≤ 0 ∨ item.node ∉ present ∨ item.node ∈ timed)
      (.invalidBundle "invalid item update time")
    validateUpdateTimes present (item.node :: timed) rest

def validateIds : List PortableObjectId → List PortableObjectId → Except SyncCodecError Unit
  | _, [] => .ok ()
  | seen, id :: rest => do
    reject (id = PortableObjectId.nil) (.invalidBundle "portable object ID must not be nil")
    reject (id ∈ seen) .duplicateObjectId
    validateIds (id :: seen) rest

def hasPreferenceGroup (b : PortableBundleV1) (group : String) : Bool :=
  b.preferences.any fun preferences => preferences.groups.contains group

def validate (b : PortableBundleV1) : Except SyncCodecError Unit := do
  b.validateScope
  reject (b.revision = 0) (.invalidBundle "revision must be positive")
  validateCount b.secrets.length "secrets"
  validateCount b.skippedMachineBound.length "skipped objects"
  validateCount b.tombstones.length "tombstones"
  reject (b.schema = .v1 ∧ b.tombstones ≠ [])
    (.invalidBundle "bundle v1 cannot contain tombstones")
  reject (b.schema ≠ .v6 ∧ b.requiresDesktopModeSchema)
    (.invalidBundle "desktop display modes require bundle v6")
  reject (!b.schema.supportsDesktopProfiles ∧ b.objects.desktopProfiles ≠ [])
    (.invalidBundle "desktop profiles require bundle v3")
  reject (!b.schema.supportsDesktopProfiles ∧ b.tombstones.any (·.kind = .desktopProfile))
    (.invalidBundle "desktop profile tombstones require bundle v3")
  b.validatePreferences
  b.validateObjects
  reject (!b.schema.supportsUpdateTimes ∧
      (b.updateTimes ≠ [] ∨ b.preferenceUpdateTimes.toList ≠ []))
    (.invalidBundle "update times require bundle v5")
  reject (b.updateTimes.length > 12 * maxObjectsPerKind) (.boundExceeded "update times")
  validateUpdateTimes b.allNodes [] b.updateTimes
  each b.preferenceUpdateTimes.toList fun (group, time) =>
    reject (time ≤ 0 ∨ !b.hasPreferenceGroup group)
      (.invalidBundle "invalid preference update time")
  validateIds [] b.allIds
  each b.secrets fun secret =>
    reject (!secret.selectedByUser)
      (.invalidBundle "secret payload was not explicitly selected by the user")
  b.validateReferences

def validateCurrentBusinessExchange (b : PortableBundleV1) : Except SyncCodecError Unit := do
  b.validate
  reject (b.schema ≠ .v6 ∨ b.preferences.isSome ∨ b.preferenceUpdateTimes.toList ≠ [])
    (.invalidBundle "current exchange must contain only business data")

end PortableBundleV1

end NoriShell.Sync

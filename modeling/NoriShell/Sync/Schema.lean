import NoriShell.Collections.BTreeMap
import NoriShell.Collections.Widths

/-! The portable bundle: the data that one profile exchanges with its remote
copy.  Each object kind has its own value type, collected in the family
`PortableObjectKind.Value`, so that the passes over all kinds are stated once. -/

namespace NoriShell.Sync

open Collections

inductive BundleSchema
  | v1 | v2 | v3 | v4 | v5 | v6
  deriving DecidableEq

inductive PortableDataCategory
  | hosts
  | credentials
  | desktopProfiles
  deriving DecidableEq

namespace PortableDataCategory

def ordinal : PortableDataCategory → Nat
  | .hosts => 0
  | .credentials => 1
  | .desktopProfiles => 2

theorem ordinal_injective : Function.Injective ordinal := by
  intro a b h
  cases a <;> cases b <;> first | rfl | cases h

instance : LinearOrder PortableDataCategory :=
  orderByKey ordinal ordinal_injective

def all : List PortableDataCategory :=
  [.hosts, .credentials, .desktopProfiles]

theorem mem_all (c : PortableDataCategory) : c ∈ all := by
  cases c <;> decide

end PortableDataCategory

/-- A portable object id is a UUID, ordered by its 128 bits; the nil UUID is zero. -/
abbrev PortableObjectId := Fin (2 ^ 128)

namespace PortableObjectId

def nil : PortableObjectId := 0

end PortableObjectId

inductive PortableObjectKind
  | host
  | desktopProfile
  | identity
  | credential
  | route
  | authenticationPlan
  | algorithmPolicy
  | heartbeatPolicy
  | monitoringPolicy
  | loginAutomation
  | secret
  deriving DecidableEq

namespace PortableObjectKind

def ordinal : PortableObjectKind → Nat
  | .host => 0
  | .desktopProfile => 1
  | .identity => 2
  | .credential => 3
  | .route => 4
  | .authenticationPlan => 5
  | .algorithmPolicy => 6
  | .heartbeatPolicy => 7
  | .monitoringPolicy => 8
  | .loginAutomation => 9
  | .secret => 10

theorem ordinal_injective : Function.Injective ordinal := by
  intro a b h
  cases a <;> cases b <;> first | rfl | cases h

instance : LinearOrder PortableObjectKind :=
  orderByKey ordinal ordinal_injective

def all : List PortableObjectKind :=
  [.host, .desktopProfile, .identity, .credential, .route, .authenticationPlan, .algorithmPolicy,
    .heartbeatPolicy, .monitoringPolicy, .loginAutomation, .secret]

def objectKinds : List PortableObjectKind :=
  [.host, .desktopProfile, .identity, .credential, .route, .authenticationPlan, .algorithmPolicy,
    .heartbeatPolicy, .monitoringPolicy, .loginAutomation]

theorem mem_all (k : PortableObjectKind) : k ∈ all := by
  cases k <;> decide

theorem mem_objectKinds {k : PortableObjectKind} : k ∈ objectKinds ↔ k ≠ .secret := by
  cases k <;> decide

theorem nodup_all : all.Nodup := by
  decide

end PortableObjectKind

namespace PortableDataCategory

def forKind : PortableObjectKind → PortableDataCategory
  | .host | .route | .authenticationPlan | .algorithmPolicy | .heartbeatPolicy
  | .monitoringPolicy | .loginAutomation => .hosts
  | .identity | .credential | .secret => .credentials
  | .desktopProfile => .desktopProfiles

end PortableDataCategory

/-- An object of the bundle graph, named by its kind and id. -/
@[ext]
structure ObjectNode where
  kind : PortableObjectKind
  id : PortableObjectId
  deriving DecidableEq

namespace ObjectNode

def key (n : ObjectNode) : PortableObjectKind ×ₗ PortableObjectId :=
  toLex (n.kind, n.id)

theorem key_injective : Function.Injective key := by
  rintro ⟨k, i⟩ ⟨k', i'⟩ h
  cases h
  rfl

instance : LinearOrder ObjectNode :=
  orderByKey key key_injective

end ObjectNode

inductive PortableDesktopProtocol
  | rdp | vnc
  deriving DecidableEq

inductive PortableVncProtocolVersion
  | auto | rfb33 | rfb37 | rfb38
  deriving DecidableEq

inductive PortableVncResolutionMode
  | server | fixed | adaptive
  deriving DecidableEq

inductive PortableRdpTransportMode
  | auto | tcpOnly | udpRequired
  deriving DecidableEq

inductive PortableRdpGraphicsMode
  | auto | remoteFx | avc420 | bitmap
  deriving DecidableEq

inductive PortableRdpResolutionMode
  | fixed | adaptive
  deriving DecidableEq

structure PortableHost where
  id : PortableObjectId
  label : String
  address : String
  port : UInt16
  username : Option String
  favorite : Bool
  tags : BTreeSet String
  identityId : Option PortableObjectId
  routeId : PortableObjectId
  authenticationPlanId : PortableObjectId
  algorithmPolicyId : PortableObjectId
  heartbeatPolicyId : PortableObjectId
  monitoringPolicyId : PortableObjectId
  loginAutomationId : Option PortableObjectId
  deriving DecidableEq

structure PortableDesktopProfile where
  id : PortableObjectId
  label : String
  protocol : PortableDesktopProtocol
  address : String
  port : UInt16
  username : String
  domain : String
  hostId : Option PortableObjectId
  gatewayHostId : Option PortableObjectId
  credentialId : Option PortableObjectId
  width : UInt16
  height : UInt16
  clipboardEnabled : Bool
  audioPlaybackEnabled : Bool
  vncProtocolVersion : PortableVncProtocolVersion
  vncResolutionMode : PortableVncResolutionMode
  rdpTransportMode : PortableRdpTransportMode
  rdpGraphicsMode : PortableRdpGraphicsMode
  rdpResolutionMode : PortableRdpResolutionMode
  deriving DecidableEq

structure PortableIdentity where
  id : PortableObjectId
  label : String
  username : Option String
  credentialIds : List PortableObjectId
  deriving DecidableEq

inductive PublicKeyAlgorithm
  | ed25519 | rsaSha256 | rsaSha512 | ecdsaP256 | ecdsaP384 | ecdsaP521
  deriving DecidableEq

inductive PortableSecretKind
  | password | privateKey | passphrase | certificate | loginAutomation
  deriving DecidableEq

inductive PortableCredentialMaterial
  | password (passwordSecretId : PortableObjectId)
  | privateKey (algorithm : PublicKeyAlgorithm) (publicKeyFingerprint : String)
      (privateKeySecretId : PortableObjectId) (passphraseSecretId : Option PortableObjectId)
  | certificate (algorithm : PublicKeyAlgorithm) (publicKeyFingerprint : String)
      (certificateSecretId : PortableObjectId) (privateKeySecretId : Option PortableObjectId)
      (passphraseSecretId : Option PortableObjectId)
  | keyboardInteractive (maxRounds : UInt8)
  deriving DecidableEq

structure PortableCredential where
  id : PortableObjectId
  identityId : PortableObjectId
  label : String
  material : PortableCredentialMaterial
  deriving DecidableEq

inductive RouteIngress
  | direct
  | httpConnect (host : String) (port : UInt16) (username : Option String)
      (credentialId : Option PortableObjectId)
  | socks5 (host : String) (port : UInt16) (username : Option String)
      (credentialId : Option PortableObjectId) (resolveDnsRemotely : Bool)
  deriving DecidableEq

structure JumpHop where
  hostId : PortableObjectId
  deriving DecidableEq

structure PortableRoute where
  id : PortableObjectId
  ingress : RouteIngress
  jumpHops : List JumpHop
  deriving DecidableEq

structure PortableAuthenticationPlan where
  id : PortableObjectId
  credentialIds : List PortableObjectId
  deriving DecidableEq

inductive PortableAlgorithmCategory
  | keyExchange | hostKey | cipher | mac
  deriving DecidableEq

structure PortableAlgorithmCompatibilityException where
  category : PortableAlgorithmCategory
  exceptionId : String
  reason : Option String
  deriving DecidableEq

structure PortableAlgorithmPolicy where
  id : PortableObjectId
  policyId : String
  compatibilityExceptions : List PortableAlgorithmCompatibilityException
  deriving DecidableEq

inductive PortableShellHeartbeatLineEnding
  | none | cr | lf | crlf
  deriving DecidableEq

inductive HeartbeatMode
  | disabled
  | transportKeepalive (intervalSeconds replyTimeoutSeconds : UInt32) (maxMissedReplies : UInt8)
  | shellHeartbeat (intervalSeconds idleSeconds : UInt32) (payload : String)
      (lineEnding : PortableShellHeartbeatLineEnding)
  deriving DecidableEq

structure PortableHeartbeatPolicy where
  id : PortableObjectId
  mode : HeartbeatMode
  deriving DecidableEq

inductive MonitoringResource
  | cpu | memory | rootDisk | aggregateNonLoopbackNetwork
  deriving DecidableEq

namespace MonitoringResource

def ordinal : MonitoringResource → Nat
  | .cpu => 0
  | .memory => 1
  | .rootDisk => 2
  | .aggregateNonLoopbackNetwork => 3

theorem ordinal_injective : Function.Injective ordinal := by
  intro a b h
  cases a <;> cases b <;> first | rfl | cases h

instance : LinearOrder MonitoringResource :=
  orderByKey ordinal ordinal_injective

end MonitoringResource

structure PortableMonitoringPolicy where
  id : PortableObjectId
  enabled : Bool
  intervalSeconds : UInt32
  timeoutSeconds : UInt32
  intervalMillis : Option UInt32
  timeoutMillis : Option UInt32
  resources : BTreeSet MonitoringResource
  deriving DecidableEq

inductive LoginAutomationStep
  | expect (pattern : String) (timeoutSeconds : UInt32)
  | sendText (text : String) (appendEnter : Bool) (timeoutSeconds : UInt32)
  | sendSecret (secretId : PortableObjectId) (secretLabel : String) (appendEnter : Bool)
      (timeoutSeconds : UInt32)
  deriving DecidableEq

structure PortableLoginAutomation where
  id : PortableObjectId
  steps : List LoginAutomationStep
  deriving DecidableEq

/-- A secret payload holds between one byte and sixteen mebibytes. -/
structure SecretBytes where
  bytes : List UInt8
  nonempty : bytes ≠ []
  bounded : bytes.length ≤ 16 * 1024 * 1024
  deriving DecidableEq

structure PortableSecret where
  id : PortableObjectId
  kind : PortableSecretKind
  selectedByUser : Bool
  payload : SecretBytes
  deriving DecidableEq

inductive MachineBoundKind
  | sshAgent | fido | hardwareKey
  deriving DecidableEq

inductive MachineBoundSkipReason
  | machineBound
  deriving DecidableEq

structure SkippedMachineBoundObject where
  id : PortableObjectId
  kind : MachineBoundKind
  reason : MachineBoundSkipReason
  deriving DecidableEq

structure PortableTombstone where
  kind : PortableObjectKind
  id : PortableObjectId
  deriving DecidableEq

def PortableTombstone.node (t : PortableTombstone) : ObjectNode :=
  ⟨t.kind, t.id⟩

structure PortableItemUpdateTime where
  kind : PortableObjectKind
  id : PortableObjectId
  updateTimeUnixMs : Int
  deriving DecidableEq

def PortableItemUpdateTime.node (t : PortableItemUpdateTime) : ObjectNode :=
  ⟨t.kind, t.id⟩

mutual

/-- A JSON value; a floating-point number is kept by its shortest decimal text. -/
inductive JsonValue
  | null
  | bool (value : Bool)
  | integer (value : Int)
  | float (text : String)
  | string (value : String)
  | array (items : JsonItems)
  | object (fields : JsonFields)
  deriving DecidableEq

inductive JsonItems
  | nil
  | cons (head : JsonValue) (tail : JsonItems)
  deriving DecidableEq

inductive JsonFields
  | nil
  | cons (key : String) (value : JsonValue) (tail : JsonFields)
  deriving DecidableEq

end

structure PortablePreferencesV1 where
  product : String
  version : UInt16
  groups : BTreeMap String JsonValue
  deriving DecidableEq

structure PortableObjects where
  hosts : List PortableHost := []
  desktopProfiles : List PortableDesktopProfile := []
  identities : List PortableIdentity := []
  credentials : List PortableCredential := []
  routes : List PortableRoute := []
  authenticationPlans : List PortableAuthenticationPlan := []
  algorithmPolicies : List PortableAlgorithmPolicy := []
  heartbeatPolicies : List PortableHeartbeatPolicy := []
  monitoringPolicies : List PortableMonitoringPolicy := []
  loginAutomations : List PortableLoginAutomation := []
  deriving DecidableEq

structure PortableBundleV1 where
  schema : BundleSchema
  selectedCategories : Option (List PortableDataCategory)
  revision : Nat
  objects : PortableObjects
  preferences : Option PortablePreferencesV1
  secrets : List PortableSecret
  skippedMachineBound : List SkippedMachineBoundObject
  tombstones : List PortableTombstone
  updateTimes : List PortableItemUpdateTime
  preferenceUpdateTimes : BTreeMap String Int
  deriving DecidableEq

namespace PortableObjectKind

def Value : PortableObjectKind → Type
  | .host => PortableHost
  | .desktopProfile => PortableDesktopProfile
  | .identity => PortableIdentity
  | .credential => PortableCredential
  | .route => PortableRoute
  | .authenticationPlan => PortableAuthenticationPlan
  | .algorithmPolicy => PortableAlgorithmPolicy
  | .heartbeatPolicy => PortableHeartbeatPolicy
  | .monitoringPolicy => PortableMonitoringPolicy
  | .loginAutomation => PortableLoginAutomation
  | .secret => PortableSecret

instance : (k : PortableObjectKind) → DecidableEq k.Value
  | .host => inferInstanceAs (DecidableEq PortableHost)
  | .desktopProfile => inferInstanceAs (DecidableEq PortableDesktopProfile)
  | .identity => inferInstanceAs (DecidableEq PortableIdentity)
  | .credential => inferInstanceAs (DecidableEq PortableCredential)
  | .route => inferInstanceAs (DecidableEq PortableRoute)
  | .authenticationPlan => inferInstanceAs (DecidableEq PortableAuthenticationPlan)
  | .algorithmPolicy => inferInstanceAs (DecidableEq PortableAlgorithmPolicy)
  | .heartbeatPolicy => inferInstanceAs (DecidableEq PortableHeartbeatPolicy)
  | .monitoringPolicy => inferInstanceAs (DecidableEq PortableMonitoringPolicy)
  | .loginAutomation => inferInstanceAs (DecidableEq PortableLoginAutomation)
  | .secret => inferInstanceAs (DecidableEq PortableSecret)

def valueId : (k : PortableObjectKind) → k.Value → PortableObjectId
  | .host => PortableHost.id
  | .desktopProfile => PortableDesktopProfile.id
  | .identity => PortableIdentity.id
  | .credential => PortableCredential.id
  | .route => PortableRoute.id
  | .authenticationPlan => PortableAuthenticationPlan.id
  | .algorithmPolicy => PortableAlgorithmPolicy.id
  | .heartbeatPolicy => PortableHeartbeatPolicy.id
  | .monitoringPolicy => PortableMonitoringPolicy.id
  | .loginAutomation => PortableLoginAutomation.id
  | .secret => PortableSecret.id

def node (k : PortableObjectKind) (v : k.Value) : ObjectNode :=
  ⟨k, k.valueId v⟩

end PortableObjectKind

namespace PortableObjects

def items (o : PortableObjects) (secrets : List PortableSecret) :
    (k : PortableObjectKind) → List k.Value
  | .host => o.hosts
  | .desktopProfile => o.desktopProfiles
  | .identity => o.identities
  | .credential => o.credentials
  | .route => o.routes
  | .authenticationPlan => o.authenticationPlans
  | .algorithmPolicy => o.algorithmPolicies
  | .heartbeatPolicy => o.heartbeatPolicies
  | .monitoringPolicy => o.monitoringPolicies
  | .loginAutomation => o.loginAutomations
  | .secret => secrets

def ofItems (f : (k : PortableObjectKind) → List k.Value) : PortableObjects where
  hosts := f .host
  desktopProfiles := f .desktopProfile
  identities := f .identity
  credentials := f .credential
  routes := f .route
  authenticationPlans := f .authenticationPlan
  algorithmPolicies := f .algorithmPolicy
  heartbeatPolicies := f .heartbeatPolicy
  monitoringPolicies := f .monitoringPolicy
  loginAutomations := f .loginAutomation

@[simp] theorem items_ofItems (f : (k : PortableObjectKind) → List k.Value)
    (k : PortableObjectKind) : (ofItems f).items (f .secret) k = f k := by
  cases k <;> rfl

@[simp] theorem ofItems_items (o : PortableObjects) (secrets : List PortableSecret) :
    ofItems (o.items secrets) = o :=
  rfl

theorem items_ext {o o' : PortableObjects} {s s' : List PortableSecret}
    (h : ∀ k, o.items s k = o'.items s' k) : o = o' ∧ s = s' := by
  have same : o.items s = o'.items s' := funext h
  exact ⟨by rw [← ofItems_items o s, same, ofItems_items], congrFun same .secret⟩

end PortableObjects

namespace PortableBundleV1

def items (b : PortableBundleV1) : (k : PortableObjectKind) → List k.Value :=
  b.objects.items b.secrets

theorem eq_of_items {a b : PortableBundleV1} (schema : a.schema = b.schema)
    (selectedCategories : a.selectedCategories = b.selectedCategories)
    (revision : a.revision = b.revision) (items : ∀ k, a.items k = b.items k)
    (preferences : a.preferences = b.preferences)
    (skipped : a.skippedMachineBound = b.skippedMachineBound)
    (tombstones : a.tombstones = b.tombstones) (updateTimes : a.updateTimes = b.updateTimes)
    (preferenceUpdateTimes : a.preferenceUpdateTimes = b.preferenceUpdateTimes) : a = b := by
  obtain ⟨objects, secrets⟩ := PortableObjects.items_ext items
  cases a
  cases b
  simp_all only

def liveNodes (b : PortableBundleV1) : List ObjectNode :=
  PortableObjectKind.all.flatMap fun k => (b.items k).map k.node

def tombstoneNodes (b : PortableBundleV1) : List ObjectNode :=
  b.tombstones.map PortableTombstone.node

def allNodes (b : PortableBundleV1) : List ObjectNode :=
  b.liveNodes ++ b.tombstoneNodes

def allIds (b : PortableBundleV1) : List PortableObjectId :=
  b.liveNodes.map ObjectNode.id ++ b.skippedMachineBound.map SkippedMachineBoundObject.id ++
    b.tombstones.map PortableTombstone.id

theorem mem_liveNodes {b : PortableBundleV1} {n : ObjectNode} :
    n ∈ b.liveNodes ↔ ∃ v ∈ b.items n.kind, n.kind.valueId v = n.id := by
  obtain ⟨kind, id⟩ := n
  simp only [liveNodes, List.mem_flatMap, List.mem_map, PortableObjectKind.node,
    ObjectNode.mk.injEq]
  constructor
  · rintro ⟨k, -, v, hv, rfl, rfl⟩
    exact ⟨v, hv, rfl⟩
  · rintro ⟨v, hv, rfl⟩
    exact ⟨kind, kind.mem_all, v, hv, rfl, rfl⟩

end PortableBundleV1

end NoriShell.Sync

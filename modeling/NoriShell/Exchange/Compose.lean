import NoriShell.Exchange.Projection
import NoriShell.Sync.Merge

/-! Composing a reviewed selection: one decision for every object or tombstone
of the two snapshots. -/

namespace NoriShell.Exchange

open Collections Sync

inductive DataObjectSource
  | fromLocal
  | fromRemote
  deriving DecidableEq

structure DataObjectDecision where
  objectHandle : String
  source : DataObjectSource
  deriving DecidableEq

structure DataLocalSnapshot (Key : Type) where
  pluginId : String
  dataOwnerSha256 : String
  profileId : String
  selectedBundle : PortableBundleV1
  categories : List PluginDataCategory
  key : Option Key

structure DataExchangeInspection (Key : Type) where
  pluginId : String
  signerFingerprintSha256 : String
  profileId : String
  bundle : PortableBundleV1
  categories : List PluginDataCategory
  key : Key

section

def kindName : PortableObjectKind → String
  | .host => "\"host\""
  | .desktopProfile => "\"desktopProfile\""
  | .identity => "\"identity\""
  | .credential => "\"credential\""
  | .route => "\"route\""
  | .authenticationPlan => "\"authenticationPlan\""
  | .algorithmPolicy => "\"algorithmPolicy\""
  | .heartbeatPolicy => "\"heartbeatPolicy\""
  | .monitoringPolicy => "\"monitoringPolicy\""
  | .loginAutomation => "\"loginAutomation\""
  | .secret => "\"secret\""

def hexDigits : Nat → Nat → List Char
  | 0, _ => []
  | width + 1, value => hexDigits width (value / 16) ++ [Nat.digitChar (value % 16)]

def hyphenate : List Nat → List Char → List Char
  | [], digits => digits
  | width :: widths, digits => digits.take width ++ '-' :: hyphenate widths (digits.drop width)

def uuidText (id : PortableObjectId) : List Char :=
  hyphenate [8, 4, 4, 4] (hexDigits 32 id)

def handleMaterial (node : ObjectNode) : String :=
  String.ofList ("norishell:data-object-handle:v1".toList ++
    '\x00' :: (kindName node.kind).toList ++ '\x00' :: uuidText node.id)

variable {Key : Type} (baselineDigest : Key → String → String)

/-- The handle under which a plugin names an object: a keyed digest in hexadecimal. -/
def objectHandle (key : Key) (node : ObjectNode) : String :=
  baselineDigest key (handleMaterial node)

end

def objectKeys (b : PortableBundleV1) : BTreeSet ObjectNode :=
  .ofList b.liveNodes

def snapshotKeys (b : PortableBundleV1) : BTreeSet ObjectNode :=
  (objectKeys b).extend b.tombstoneNodes

/-- Records one decision; an unknown handle and a second decision for an object
are refused. -/
def chooseObject (handles : BTreeMap String ObjectNode)
    (choices : BTreeMap ObjectNode DataObjectSource) (decision : DataObjectDecision) :
    Except BrokerError (BTreeMap ObjectNode DataObjectSource) :=
  match handles.get? decision.objectHandle with
  | none => .error (.operationRejected "broker.data_exchange.selection_invalid")
  | some key =>
    if choices.contains key then
      .error (.operationRejected "broker.data_exchange.selection_duplicate")
    else .ok (choices.insert key decision.source)

def collectChoices (handles : BTreeMap String ObjectNode) (decisions : List DataObjectDecision) :
    Except BrokerError (BTreeMap ObjectNode DataObjectSource) :=
  decisions.foldlM (chooseObject handles) .empty

section

variable (loc remote : PortableBundleV1) (choices : BTreeMap ObjectNode DataObjectSource)

def sourceBundle : DataObjectSource → PortableBundleV1
  | .fromLocal => loc
  | .fromRemote => remote

def chooseItems (kind : PortableObjectKind) : List kind.Value :=
  choices.toList.filterMap fun (key, source) =>
    if key.kind = kind then
      ((sourceBundle loc remote source).items kind).find? fun v => kind.valueId v = key.id
    else none

def composedObjects : PortableBundleV1 :=
  { remote with
    objects := .ofItems (chooseItems loc remote choices)
    secrets := chooseItems loc remote choices .secret
    tombstones := []
    updateTimes := [] }

/-- The bundle of the general path: a decided node that the chosen side does not
hold becomes a tombstone. -/
def composedBundle : PortableBundleV1 :=
  let present := objectKeys (composedObjects loc remote choices)
  { composedObjects loc remote choices with
    tombstones := (choices.toList.filter fun (key, _) => key ∉ present).map
      fun (key, _) => ⟨key.kind, key.id⟩
    updateTimes := choices.toList.filterMap fun (key, source) =>
      (sourceBundle loc remote source).updateTimes.find? fun item => item.node = key }

/-- Taking everything from a remote side that knows every local key needs no
rebuilding. -/
def takesRemote : Bool :=
  (snapshotKeys loc).toList.all (· ∈ snapshotKeys remote) &&
    choices.toList.all fun (_, source) => source = .fromRemote

def composeChoices : Except BrokerError PortableBundleV1 :=
  if takesRemote loc remote choices then .ok remote
  else
    let bundle := composedBundle loc remote choices
    match bundle.validateCurrentBusinessExchange with
    | .error _ => .error (.mergeInvalid "broker.data_exchange.compose_references")
    | .ok () => .ok bundle

end

variable {Key : Type} (baselineDigest : Key → String → String)

def sameBinding (loc : DataLocalSnapshot Key) (remote : DataExchangeInspection Key)
    (key : Key) : Prop :=
  loc.pluginId = remote.pluginId ∧ loc.dataOwnerSha256 = remote.signerFingerprintSha256 ∧
    loc.profileId = remote.profileId ∧ loc.categories = remote.categories ∧
    baselineDigest key "norishell:data-key-check:v1" =
      baselineDigest remote.key "norishell:data-key-check:v1"

instance (loc : DataLocalSnapshot Key) (remote : DataExchangeInspection Key) (key : Key) :
    Decidable (sameBinding baselineDigest loc remote key) :=
  inferInstanceAs (Decidable (_ ∧ _))

def allKeys (loc remote : PortableBundleV1) : BTreeSet ObjectNode :=
  (snapshotKeys loc).extend (snapshotKeys remote).toList

def handleMap (key : Key) (keys : BTreeSet ObjectNode) : BTreeMap String ObjectNode :=
  .ofList (keys.toList.map fun node => (objectHandle baselineDigest key node, node))

def composeSelectedObjects (loc : DataLocalSnapshot Key) (remote : DataExchangeInspection Key)
    (decisions : List DataObjectDecision) : Except BrokerError PortableBundleV1 :=
  match loc.key with
  | none => .error .localKeyUnavailable
  | some key => do
    reject (¬sameBinding baselineDigest loc remote key) .keyBindingConflict
    let keys := allKeys loc.selectedBundle remote.bundle
    reject (decisions.length ≠ keys.size)
      (.operationRejected "broker.data_exchange.selection_incomplete")
    let choices ← collectChoices (handleMap baselineDigest key keys) decisions
    composeChoices loc.selectedBundle remote.bundle choices

end NoriShell.Exchange

import NoriShell.Collections.SortByKey
import NoriShell.Sync.Graph

/-! The projection of a bundle to selected data categories. -/

namespace NoriShell.Exchange

open Collections Sync

inductive PluginDataCategory
  | hosts
  | credentials
  | desktopProfiles
  | appPreferences
  | terminalHistory
  deriving DecidableEq

inductive BrokerError
  | remoteDataInvalid
  | keyBindingConflict
  | localKeyUnavailable
  | mergeInvalid (code : String)
  | operationRejected (code : String)
  deriving DecidableEq

namespace PluginDataCategory

def business : List PluginDataCategory :=
  [.hosts, .credentials, .desktopProfiles]

/-- The bundle's own name of a category.  The source treats every other category
as unreachable, after the check of the list. -/
def portableCategory : PluginDataCategory → Option PortableDataCategory
  | .hosts => some .hosts
  | .credentials => some .credentials
  | .desktopProfiles => some .desktopProfiles
  | .appPreferences | .terminalHistory => none

end PluginDataCategory

def categoryForKind : PortableObjectKind → PluginDataCategory
  | .host | .route | .authenticationPlan | .algorithmPolicy | .heartbeatPolicy
  | .monitoringPolicy | .loginAutomation => .hosts
  | .identity | .credential | .secret => .credentials
  | .desktopProfile => .desktopProfiles

def validateCategories (categories : List PluginDataCategory) : Except BrokerError Unit :=
  reject (categories = [] ∨ categories.length > 3 ∨
      categories.any (fun category => category ∉ PluginDataCategory.business) ∨
      ¬categories.Nodup)
    (.operationRejected "broker.data_exchange.categories_invalid")

def hostReferencesCredentials (source : PortableBundleV1) (host : PortableHost) : Bool :=
  host.identityId.isSome || source.objects.authenticationPlans.any (fun plan =>
      plan.id = host.authenticationPlanId && !plan.credentialIds.isEmpty) ||
    source.objects.routes.any (fun route =>
      route.id = host.routeId && route.ingress.credentialId.isSome) ||
    host.loginAutomationId.any fun id =>
      source.objects.loginAutomations.any fun automation =>
        automation.id = id && automation.steps.any (·.secretId.isSome)

def desktopsNeedHosts (source : PortableBundleV1) (categories : List PluginDataCategory) : Bool :=
  categories.contains .desktopProfiles && !categories.contains .hosts &&
    source.objects.desktopProfiles.any fun desktop =>
      desktop.hostId.isSome || desktop.gatewayHostId.isSome

def desktopsNeedCredentials (source : PortableBundleV1)
    (categories : List PluginDataCategory) : Bool :=
  categories.contains .desktopProfiles && !categories.contains .credentials &&
    source.objects.desktopProfiles.any fun desktop => desktop.credentialId.isSome

def hostsNeedCredentials (source : PortableBundleV1)
    (categories : List PluginDataCategory) : Bool :=
  !categories.contains .credentials &&
    if categories.contains .hosts then
      source.objects.hosts.any (hostReferencesCredentials source)
    else
      categories.contains .desktopProfiles &&
        source.objects.desktopProfiles.any fun desktop =>
          source.objects.hosts.any fun host =>
            (desktop.hostId = some host.id || desktop.gatewayHostId = some host.id) &&
              hostReferencesCredentials source host

def requiredDependencyCategories (source : PortableBundleV1)
    (categories : List PluginDataCategory) : Except BrokerError (List PluginDataCategory) := do
  validateCategories categories
  let required : List PluginDataCategory :=
    (if desktopsNeedHosts source categories then [.hosts] else []) ++
      if desktopsNeedCredentials source categories then [.credentials] else []
  pure (if hostsNeedCredentials source categories && !required.contains .credentials then
    required ++ [.credentials] else required)

def requiredCode : List PluginDataCategory → String
  | [.hosts] => "broker.data_exchange.requires_hosts"
  | [.credentials] => "broker.data_exchange.requires_credentials"
  | _ => "broker.data_exchange.requires_hosts_and_credentials"

def nodesOf (source : PortableBundleV1) (kind : PortableObjectKind) : List ObjectNode :=
  (source.items kind).map kind.node

def selectedSeeds (source : PortableBundleV1) (categories : List PluginDataCategory) :
    List ObjectNode :=
  (if categories.contains .hosts then nodesOf source .host else []) ++
    (if categories.contains .credentials then
      nodesOf source .identity ++ nodesOf source .credential ++ nodesOf source .secret else []) ++
    if categories.contains .desktopProfiles then nodesOf source .desktopProfile else []

/-- The kinds that name no other object; the loop does not even look them up. -/
def leafKinds : List PortableObjectKind :=
  [.algorithmPolicy, .heartbeatPolicy, .monitoringPolicy, .secret]

def dependencies (source : PortableBundleV1) (node : ObjectNode) :
    Except BrokerError (List ObjectNode) :=
  if node.kind ∈ leafKinds then .ok []
  else
    match (source.items node.kind).find? fun v => node.kind.valueId v = node.id with
    | some v => .ok (node.kind.references v)
    | none => .error .remoteDataInvalid

/-- Everything the seeds lead to.  Each node pushes its references once, which
bounds the fuel. -/
def includedNodes (source : PortableBundleV1) (categories : List PluginDataCategory) :
    Except BrokerError (BTreeSet ObjectNode) :=
  let seeds := selectedSeeds source categories
  let pushes := (PortableObjectKind.all.map fun k =>
    ((source.items k).map fun v => (k.references v).length).sum).sum
  Worklist.drain (dependencies source) (seeds.length + pushes) .empty seeds.reverse

def businessBundle (source : PortableBundleV1) (categories : List PluginDataCategory) :
    PortableBundleV1 :=
  { source with
    schema := .v6
    selectedCategories :=
      if categories.length ≠ 3 then
        some (sortByKey id (categories.filterMap PluginDataCategory.portableCategory))
      else none
    preferences := none
    preferenceUpdateTimes := .empty }

def retainIncluded (source : PortableBundleV1) (categories : List PluginDataCategory)
    (included : BTreeSet ObjectNode) : PortableBundleV1 :=
  let result := businessBundle source categories
  let items := fun k => (source.items k).filter fun v => k.node v ∈ included
  let tombstones := source.tombstones.filter fun t => categories.contains (categoryForKind t.kind)
  let included := included.extend (tombstones.map PortableTombstone.node)
  { result with
    objects := .ofItems items
    secrets := items .secret
    skippedMachineBound :=
      if categories.contains .credentials then source.skippedMachineBound else []
    tombstones := tombstones
    updateTimes := source.updateTimes.filter fun t => t.node ∈ included }

/-- A codec error of the bundle is reported as invalid remote data. -/
def remoteChecked (checked : Except SyncCodecError Unit) : Except BrokerError Unit :=
  checked.mapError fun _ => .remoteDataInvalid

def projectComplete (source : PortableBundleV1) (categories : List PluginDataCategory) :
    Except BrokerError PortableBundleV1 :=
  if categories.length = 3 then do
    let result := businessBundle source categories
    remoteChecked result.validateCurrentBusinessExchange
    pure result
  else do
    let included ← includedNodes source categories
    let result := retainIncluded source categories included
    remoteChecked result.validateCurrentBusinessExchange
    pure result

def projectSelectedBundle (source : PortableBundleV1) (categories : List PluginDataCategory) :
    Except BrokerError PortableBundleV1 := do
  validateCategories categories
  remoteChecked source.validate
  reject (source.selectedCategories.any fun selected =>
      categories.any fun category =>
        category.portableCategory.any fun portable => !selected.contains portable)
    (.operationRejected "broker.data_exchange.category_not_in_source")
  let required ← requiredDependencyCategories source categories
  reject (required ≠ []) (.operationRejected (requiredCode required))
  projectComplete source categories

end NoriShell.Exchange

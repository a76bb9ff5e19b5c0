import NoriShell.Collections.Worklist
import NoriShell.Sync.Validate

/-! The reference graph of a bundle: which objects each object names, the
undirected conflict graph, and the reverse-reachability check. -/

namespace NoriShell.Sync

open Collections

def optionalNode (kind : PortableObjectKind) (id : Option PortableObjectId) : List ObjectNode :=
  id.toList.map (ObjectNode.mk kind)

namespace PortableHost

/-- The objects that belong to exactly one host. -/
def ownedChildren (host : PortableHost) : List ObjectNode :=
  [⟨.route, host.routeId⟩, ⟨.authenticationPlan, host.authenticationPlanId⟩,
    ⟨.algorithmPolicy, host.algorithmPolicyId⟩, ⟨.heartbeatPolicy, host.heartbeatPolicyId⟩,
    ⟨.monitoringPolicy, host.monitoringPolicyId⟩]

def references (host : PortableHost) : List ObjectNode :=
  host.ownedChildren ++ optionalNode .identity host.identityId ++
    optionalNode .loginAutomation host.loginAutomationId

end PortableHost

def PortableDesktopProfile.references (desktop : PortableDesktopProfile) : List ObjectNode :=
  optionalNode .host desktop.hostId ++ optionalNode .host desktop.gatewayHostId ++
    optionalNode .credential desktop.credentialId

def PortableIdentity.references (identity : PortableIdentity) : List ObjectNode :=
  identity.credentialIds.map (ObjectNode.mk .credential)

def PortableCredentialMaterial.secretIds (material : PortableCredentialMaterial) :
    List PortableObjectId :=
  material.secretRefs.map Prod.fst

def PortableCredential.references (credential : PortableCredential) : List ObjectNode :=
  ⟨.identity, credential.identityId⟩ :: credential.material.secretIds.map (ObjectNode.mk .secret)

def PortableRoute.references (route : PortableRoute) : List ObjectNode :=
  route.jumpHops.map (fun hop => ⟨.host, hop.hostId⟩) ++
    optionalNode .credential route.ingress.credentialId

def PortableAuthenticationPlan.references (plan : PortableAuthenticationPlan) : List ObjectNode :=
  plan.credentialIds.map (ObjectNode.mk .credential)

def PortableLoginAutomation.secretIds (automation : PortableLoginAutomation) :
    List PortableObjectId :=
  automation.steps.filterMap LoginAutomationStep.secretId

def PortableLoginAutomation.references (automation : PortableLoginAutomation) : List ObjectNode :=
  automation.secretIds.map (ObjectNode.mk .secret)

/-- The nodes a value names, in the order the source lists them. -/
def PortableObjectKind.references : (k : PortableObjectKind) → k.Value → List ObjectNode
  | .host => PortableHost.references
  | .desktopProfile => PortableDesktopProfile.references
  | .identity => PortableIdentity.references
  | .credential => PortableCredential.references
  | .route => PortableRoute.references
  | .authenticationPlan => PortableAuthenticationPlan.references
  | .loginAutomation => PortableLoginAutomation.references
  | .algorithmPolicy | .heartbeatPolicy | .monitoringPolicy | .secret => fun _ => []

section

variable {n : ObjectNode} {host : PortableHost} {desktop : PortableDesktopProfile}

@[simp] theorem mem_optionalNode {kind : PortableObjectKind} {id : Option PortableObjectId} :
    n ∈ optionalNode kind id ↔ ∃ named, id = some named ∧ ⟨kind, named⟩ = n := by
  simp [optionalNode]

@[simp] theorem PortableHost.mem_references : n ∈ host.references ↔
    n = ⟨.route, host.routeId⟩ ∨ n = ⟨.authenticationPlan, host.authenticationPlanId⟩ ∨
      n = ⟨.algorithmPolicy, host.algorithmPolicyId⟩ ∨
      n = ⟨.heartbeatPolicy, host.heartbeatPolicyId⟩ ∨
      n = ⟨.monitoringPolicy, host.monitoringPolicyId⟩ ∨
      (∃ id, host.identityId = some id ∧ ⟨.identity, id⟩ = n) ∨
      ∃ id, host.loginAutomationId = some id ∧ ⟨.loginAutomation, id⟩ = n := by
  simp [references, ownedChildren]

@[simp] theorem PortableDesktopProfile.mem_references : n ∈ desktop.references ↔
    (∃ id, desktop.hostId = some id ∧ ⟨.host, id⟩ = n) ∨
      (∃ id, desktop.gatewayHostId = some id ∧ ⟨.host, id⟩ = n) ∨
      ∃ id, desktop.credentialId = some id ∧ ⟨.credential, id⟩ = n := by
  simp [references]

end

abbrev ConflictGraph := BTreeMap ObjectNode (BTreeSet ObjectNode)

namespace ConflictGraph

def addArc (graph : ConflictGraph) (left right : ObjectNode) : ConflictGraph :=
  graph.insert left (((graph.get? left).getD .empty).insert right)

def addEdge (graph : ConflictGraph) (left right : ObjectNode) : ConflictGraph :=
  addArc (addArc graph left right) right left

def addEdges (graph : ConflictGraph) (edges : List (ObjectNode × ObjectNode)) : ConflictGraph :=
  edges.foldl (fun graph edge => addEdge graph edge.1 edge.2) graph

def neighbours (graph : ConflictGraph) (node : ObjectNode) : List ObjectNode :=
  (graph.get? node).elim [] BTreeSet.toList

end ConflictGraph

def edgeKinds : List PortableObjectKind :=
  [.host, .desktopProfile, .identity, .authenticationPlan, .credential, .route, .loginAutomation]

namespace PortableBundleV1

def edges (b : PortableBundleV1) : List (ObjectNode × ObjectNode) :=
  edgeKinds.flatMap fun k =>
    (b.items k).flatMap fun v => (k.references v).map fun target => (k.node v, target)

def addBundleEdges (graph : ConflictGraph) (b : PortableBundleV1) : ConflictGraph :=
  graph.addEdges b.edges

end PortableBundleV1

def conflictGraph (bundles : List PortableBundleV1) : ConflictGraph :=
  bundles.foldl PortableBundleV1.addBundleEdges .empty

/-- Everything connected to the conflicts through references of any bundle.  Each
node enters the queue at most once, which bounds the fuel. -/
def expandConflictClosure (bundles : List PortableBundleV1) (conflicts : BTreeSet ObjectNode) :
    BTreeSet ObjectNode :=
  let graph := conflictGraph bundles
  Worklist.expand graph.neighbours (conflicts.size + graph.size) conflicts conflicts.toList

namespace PortableBundleV1

def hostChildren (b : PortableBundleV1) : BTreeSet ObjectNode :=
  .ofList (b.objects.hosts.flatMap fun host =>
    host.ownedChildren ++ optionalNode .loginAutomation host.loginAutomationId)

/-- The kinds whose objects may exist only under a host. -/
def hostChildKinds : List PortableObjectKind :=
  [.route, .authenticationPlan, .algorithmPolicy, .heartbeatPolicy, .monitoringPolicy,
    .loginAutomation]

def referencedCredentials (b : PortableBundleV1) : BTreeSet PortableObjectId :=
  .ofList (b.objects.identities.flatMap PortableIdentity.credentialIds ++
    b.objects.authenticationPlans.flatMap PortableAuthenticationPlan.credentialIds ++
    b.objects.routes.flatMap (fun route => route.ingress.credentialId.toList) ++
    b.objects.desktopProfiles.flatMap (fun desktop => desktop.credentialId.toList))

def referencedSecrets (b : PortableBundleV1) : BTreeSet PortableObjectId :=
  .ofList (b.objects.credentials.flatMap (fun credential => credential.material.secretIds) ++
    b.objects.loginAutomations.flatMap PortableLoginAutomation.secretIds)

def validateReverseReachability (b : PortableBundleV1) : Except SyncCodecError Unit := do
  each hostChildKinds fun kind =>
    reject ((b.idsOf kind).any fun id => ⟨kind, id⟩ ∉ b.hostChildren) .danglingObjectReference
  reject (b.objects.credentials.any fun credential => credential.id ∉ b.referencedCredentials)
    .danglingObjectReference
  reject (b.secrets.any fun secret => secret.id ∉ b.referencedSecrets) .danglingObjectReference

end PortableBundleV1

end NoriShell.Sync

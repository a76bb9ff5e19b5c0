import NoriShell.Exchange.Projection
import NoriShell.Sync.PartLaws

namespace NoriShell.Exchange

open Collections Sync

def Refers (s : PortableBundleV1) (n m : ObjectNode) : Prop :=
  ∃ v ∈ s.items n.kind, n.kind.valueId v = n.id ∧ m ∈ n.kind.references v

def seedKinds : List PortableObjectKind :=
  [.host, .desktopProfile, .identity, .credential, .secret]

def Disclosed (s : PortableBundleV1) (categories : List PluginDataCategory)
    (n : ObjectNode) : Prop :=
  ∃ seed ∈ s.liveNodes, seed.kind ∈ seedKinds ∧ categoryForKind seed.kind ∈ categories ∧
    Relation.ReflTransGen (Refers s) seed n

def MissingDependency (s : PortableBundleV1) (categories : List PluginDataCategory) : Prop :=
  ∃ n, Disclosed s categories n ∧ categoryForKind n.kind ∉ categories

variable {s : PortableBundleV1} {categories : List PluginDataCategory}

theorem Disclosed.step {n m : ObjectNode} (h : Disclosed s categories n) (refers : Refers s n m) :
    Disclosed s categories m := by
  obtain ⟨seed, live, kind, selected, path⟩ := h
  exact ⟨seed, live, kind, selected, path.tail refers⟩

theorem Disclosed.of_seed {n : ObjectNode} (live : n ∈ s.liveNodes) (kind : n.kind ∈ seedKinds)
    (selected : categoryForKind n.kind ∈ categories) : Disclosed s categories n :=
  ⟨n, live, kind, selected, .refl⟩

theorem live_of_mem {k : PortableObjectKind} {v : k.Value} (mem : v ∈ s.items k) :
    k.node v ∈ s.liveNodes :=
  PortableBundleV1.mem_liveNodes.mpr ⟨v, mem, rfl⟩

theorem live_of_mem_idsOf {k : PortableObjectKind} {id : PortableObjectId} (mem : id ∈ s.idsOf k) :
    (⟨k, id⟩ : ObjectNode) ∈ s.liveNodes :=
  PortableBundleV1.mem_liveNodes.mpr (PortableBundleV1.mem_idsOf.mp mem)

section

variable (h : s.Valid)
include h

variable {n : ObjectNode}

theorem references_live {k : PortableObjectKind} {v : k.Value} (mem : v ∈ s.items k)
    (named : n ∈ k.references v) : n ∈ s.liveNodes := by
  have sound := h.references k v mem
  have credential {id : PortableObjectId} {c : PortableCredential}
      (found : s.credentialById id = some c) : (⟨.credential, id⟩ : ObjectNode) ∈ s.liveNodes := by
    obtain ⟨held, rfl⟩ :=
      (PortableBundleV1.credentialById_eq_some (h.nodup_valueIds .credential)).mp found
    exact live_of_mem (k := .credential) held
  have secret {id : PortableObjectId} {kind : PortableSecretKind}
      (found : s.secretKindById id = some kind) : (⟨.secret, id⟩ : ObjectNode) ∈ s.liveNodes := by
    obtain ⟨w, held, rfl, -⟩ :=
      (PortableBundleV1.secretKindById_eq_some (h.nodup_valueIds .secret)).mp found
    exact live_of_mem (k := .secret) held
  cases k with
  | host =>
    simp only [PortableBundleV1.dangling, PortableBundleV1.hostDangling, Bool.or_eq_false_iff,
      Bool.not_eq_false', List.contains_iff_mem, Option.any_eq_false] at sound
    obtain ⟨⟨⟨⟨⟨⟨route, plan⟩, algorithm⟩, heartbeat⟩, monitoring⟩, identity⟩, automation⟩ := sound
    rcases PortableHost.mem_references.mp named with
      rfl | rfl | rfl | rfl | rfl | ⟨id, eq, rfl⟩ | ⟨id, eq, rfl⟩
    · exact live_of_mem_idsOf route
    · exact live_of_mem_idsOf plan
    · exact live_of_mem_idsOf algorithm
    · exact live_of_mem_idsOf heartbeat
    · exact live_of_mem_idsOf monitoring
    · exact live_of_mem_idsOf (identity id eq)
    · exact live_of_mem_idsOf (automation id eq)
  | desktopProfile =>
    simp only [PortableBundleV1.dangling, PortableBundleV1.desktopDangling, Bool.or_eq_false_iff,
      Bool.not_eq_false', List.contains_iff_mem, Option.any_eq_false] at sound
    obtain ⟨⟨host, gateway⟩, used⟩ := sound
    rcases PortableDesktopProfile.mem_references.mp named with
      ⟨id, eq, rfl⟩ | ⟨id, eq, rfl⟩ | ⟨id, eq, rfl⟩
    · exact live_of_mem_idsOf (host id eq)
    · exact live_of_mem_idsOf (gateway id eq)
    · have used := used id eq
      cases found : s.credentialById id with
      | none => simp [found] at used
      | some c => exact credential found
  | identity =>
    simp only [PortableBundleV1.dangling, PortableBundleV1.identityDangling, List.any_eq_false,
      Bool.not_eq_true, Bool.not_eq_false', List.contains_iff_mem] at sound
    obtain ⟨id, listed, rfl⟩ := List.mem_map.mp named
    exact live_of_mem_idsOf (sound id listed)
  | credential =>
    simp only [PortableBundleV1.dangling, PortableBundleV1.credentialDangling,
      Bool.or_eq_false_iff, Bool.not_eq_false', List.contains_iff_mem, List.any_eq_false,
      decide_eq_true_eq, not_not] at sound
    rcases List.mem_cons.mp named with rfl | named
    · exact live_of_mem_idsOf sound.1
    · obtain ⟨id, needed, rfl⟩ := List.mem_map.mp named
      obtain ⟨ref, used, rfl⟩ := List.mem_map.mp needed
      exact secret (sound.2 ref used)
  | route =>
    simp only [PortableBundleV1.dangling, PortableBundleV1.routeDangling, Bool.or_eq_false_iff,
      List.any_eq_false, Bool.not_eq_true, Bool.not_eq_false', List.contains_iff_mem,
      Option.any_eq_false] at sound
    simp only [PortableObjectKind.references, PortableRoute.references, List.mem_append,
      List.mem_map, mem_optionalNode] at named
    rcases named with ⟨hop, used, rfl⟩ | ⟨id, eq, rfl⟩
    · exact live_of_mem_idsOf (sound.1 hop used)
    · have used := sound.2 id eq
      cases found : s.credentialById id with
      | none => simp [found] at used
      | some c => exact credential found
  | authenticationPlan =>
    simp only [PortableBundleV1.dangling, PortableBundleV1.planDangling, List.any_eq_false,
      Bool.not_eq_true, Bool.not_eq_false', List.contains_iff_mem] at sound
    obtain ⟨id, listed, rfl⟩ := List.mem_map.mp named
    exact live_of_mem_idsOf (sound id listed)
  | loginAutomation =>
    simp only [PortableBundleV1.dangling, PortableBundleV1.automationDangling, List.any_eq_false,
      Option.any_eq_true, decide_eq_true_eq, not_exists, not_and, not_not] at sound
    obtain ⟨id, sent, rfl⟩ := List.mem_map.mp named
    obtain ⟨step, used, eq⟩ := List.mem_filterMap.mp sent
    exact secret (sound step used id eq)
  | algorithmPolicy | heartbeatPolicy | monitoringPolicy | secret =>
    simp [PortableObjectKind.references] at named

theorem Refers.live {m : ObjectNode} (refers : Refers s n m) : m ∈ s.liveNodes := by
  obtain ⟨v, mem, -, named⟩ := refers
  exact references_live h mem named

theorem Disclosed.live (disclosed : Disclosed s categories n) : n ∈ s.liveNodes := by
  obtain ⟨seed, live, -, -, path⟩ := disclosed
  cases path with
  | refl => exact live
  | tail _ refers => exact refers.live h

end

section

variable {n : ObjectNode}

theorem mem_nodesOf {k : PortableObjectKind} : n ∈ nodesOf s k ↔ n.kind = k ∧ n ∈ s.liveNodes := by
  rw [PortableBundleV1.mem_liveNodes]
  constructor
  · intro mem
    obtain ⟨v, held, rfl⟩ := List.mem_map.mp mem
    exact ⟨rfl, v, held, rfl⟩
  · rintro ⟨rfl, v, held, eq⟩
    exact List.mem_map.mpr ⟨v, held, by rw [PortableObjectKind.node, eq]⟩

theorem mem_selectedSeeds : n ∈ selectedSeeds s categories ↔
      n ∈ s.liveNodes ∧ n.kind ∈ seedKinds ∧ categoryForKind n.kind ∈ categories := by
  obtain ⟨k, id⟩ := n
  simp only [selectedSeeds, List.mem_append, List.mem_ite_nil_right, mem_nodesOf,
    List.contains_iff_mem]
  cases k <;> simp [seedKinds, categoryForKind, and_comm]

def successors (s : PortableBundleV1) (n : ObjectNode) : List ObjectNode :=
  ((s.items n.kind).find? fun v => n.kind.valueId v = n.id).elim [] n.kind.references

variable (h : s.Valid)
include h

theorem successors_node {k : PortableObjectKind} {v : k.Value} (mem : v ∈ s.items k) :
    successors s (k.node v) = k.references v := by
  have found : (s.items k).find? (fun w => k.valueId w = k.valueId v) = some v :=
    h.find_eq_some.mpr ⟨mem, rfl⟩
  change ((s.items k).find? fun w => k.valueId w = k.valueId v).elim [] k.references = _
  rw [found]
  rfl

theorem pushes_eq (kinds : List PortableObjectKind) :
    ((kinds.flatMap fun k => (s.items k).map k.node).map fun n => (successors s n).length).sum =
      (kinds.map fun k => ((s.items k).map fun v => (k.references v).length).sum).sum := by
  induction kinds with
  | nil => rfl
  | cons k kinds ih =>
    have here : ((s.items k).map k.node).map (fun n => (successors s n).length) =
        (s.items k).map fun v => (k.references v).length := by
      rw [List.map_map]
      exact List.map_congr_left fun v mem => congrArg List.length (successors_node h mem)
    rw [List.flatMap_cons, List.map_append, List.sum_append, here, ih, List.map_cons, List.sum_cons]

theorem mem_successors {m : ObjectNode} : m ∈ successors s n ↔ Refers s n m := by
  constructor
  · intro mem
    cases found : (s.items n.kind).find? fun v => n.kind.valueId v = n.id with
    | none => simp [successors, found] at mem
    | some v =>
      obtain ⟨held, eq⟩ := h.find_eq_some.mp found
      exact ⟨v, held, eq, by simpa [successors, found] using mem⟩
  · rintro ⟨v, held, eq, named⟩
    simpa [successors, h.find_eq_some.mpr ⟨held, eq⟩] using named

theorem dependencies_eq (live : n ∈ s.liveNodes) : dependencies s n = .ok (successors s n) := by
  obtain ⟨v, held, eq⟩ := PortableBundleV1.mem_liveNodes.mp live
  have found := h.find_eq_some.mpr ⟨held, eq⟩
  unfold dependencies successors
  rw [found]
  split_ifs with leaf
  · obtain ⟨k, id⟩ := n
    cases k <;> first | rfl | simp [leafKinds] at leaf
  · rfl

theorem includedNodes_eq (categories : List PluginDataCategory) :
    ∃ included, includedNodes s categories = .ok included ∧
      ∀ n, n ∈ included ↔ Disclosed s categories n := by
  have seeds : ∀ n ∈ (selectedSeeds s categories).reverse, n ∈ s.liveNodes := by
    intro n mem
    exact (mem_selectedSeeds.mp (List.mem_reverse.mp mem)).1
  have closed : ∀ n ∈ s.liveNodes, ∀ m ∈ successors s n, m ∈ s.liveNodes :=
    fun n _ m mem => ((mem_successors h).mp mem).live h
  have pushes := pushes_eq h PortableObjectKind.all
  obtain ⟨included, run, mem⟩ := Worklist.drain_eq_reachable (dependencies s) (successors s)
    h.nodup_liveNodes (fun n live => dependencies_eq h live) closed seeds
    (by rw [List.length_reverse, PortableBundleV1.liveNodes, pushes])
  refine ⟨included, run, fun n => (mem n).trans ?_⟩
  have edge : Worklist.Edge (successors s) = Refers s := by
    funext a b
    exact propext (mem_successors h)
  simp only [Worklist.Reachable, edge, List.mem_reverse, mem_selectedSeeds, Disclosed, and_assoc]

end

section

variable {host : PortableHost}

theorem refers_host (mem : host ∈ s.objects.hosts) {m : ObjectNode}
    (named : m ∈ host.references) : Refers s ⟨.host, host.id⟩ m :=
  ⟨host, mem, rfl, named⟩

theorem host_reaches_credentials (mem : host ∈ s.objects.hosts)
    (needs : hostReferencesCredentials s host = true) :
    ∃ n, Relation.ReflTransGen (Refers s) ⟨.host, host.id⟩ n ∧
      categoryForKind n.kind = .credentials := by
  simp only [hostReferencesCredentials, Bool.or_eq_true, List.any_eq_true, Bool.and_eq_true,
    decide_eq_true_eq, Option.any_eq_true, Option.isSome_iff_exists, Bool.not_eq_true',
    List.isEmpty_eq_false_iff_exists_mem] at needs
  rcases needs with ((⟨id, eq⟩ | ⟨plan, held, eq, id, listed⟩) | ⟨route, held, eq, id, uses⟩) |
    ⟨id, eq, automation, held, rfl, step, used, secret, sends⟩
  · refine ⟨⟨.identity, id⟩, .single (refers_host mem ?_), rfl⟩
    simp [eq]
  · have first : Refers s ⟨.host, host.id⟩ ⟨.authenticationPlan, plan.id⟩ :=
      refers_host mem (by simp [eq])
    have second : Refers s ⟨.authenticationPlan, plan.id⟩ ⟨.credential, id⟩ :=
      ⟨plan, held, rfl, List.mem_map_of_mem listed⟩
    exact ⟨_, (Relation.ReflTransGen.single first).tail second, rfl⟩
  · have first : Refers s ⟨.host, host.id⟩ ⟨.route, route.id⟩ :=
      refers_host mem (by simp [eq])
    have second : Refers s ⟨.route, route.id⟩ ⟨.credential, id⟩ :=
      ⟨route, held, rfl, List.mem_append_right _ (by simp [uses])⟩
    exact ⟨_, (Relation.ReflTransGen.single first).tail second, rfl⟩
  · have first : Refers s ⟨.host, host.id⟩ ⟨.loginAutomation, automation.id⟩ :=
      refers_host mem (by simp [eq])
    have second : Refers s ⟨.loginAutomation, automation.id⟩ ⟨.secret, secret⟩ :=
      ⟨automation, held, rfl, List.mem_map_of_mem (List.mem_filterMap.mpr ⟨step, used, sends⟩)⟩
    exact ⟨_, (Relation.ReflTransGen.single first).tail second, rfl⟩

def needsMore (s : PortableBundleV1) (categories : List PluginDataCategory) : Bool :=
  desktopsNeedHosts s categories || desktopsNeedCredentials s categories ||
    hostsNeedCredentials s categories

theorem missing_of_refers {seed n : ObjectNode} (live : seed ∈ s.liveNodes)
    (kind : seed.kind ∈ seedKinds) (selected : categoryForKind seed.kind ∈ categories)
    (path : Relation.ReflTransGen (Refers s) seed n)
    (outside : categoryForKind n.kind ∉ categories) : MissingDependency s categories :=
  ⟨n, ⟨seed, live, kind, selected, path⟩, outside⟩

theorem not_contains {c : PluginDataCategory} :
    (!categories.contains c) = true ↔ c ∉ categories := by
  simp

theorem missing_of_needsMore (needs : needsMore s categories = true) :
    MissingDependency s categories := by
  have fromDesktop {desktop : PortableDesktopProfile} (mem : desktop ∈ s.objects.desktopProfiles)
      (selected : .desktopProfiles ∈ categories) {n m : ObjectNode}
      (named : m ∈ desktop.references) (path : Relation.ReflTransGen (Refers s) m n)
      (outside : categoryForKind n.kind ∉ categories) : MissingDependency s categories := by
    have first : Refers s ⟨.desktopProfile, desktop.id⟩ m := ⟨desktop, mem, rfl, named⟩
    exact missing_of_refers (live_of_mem (k := .desktopProfile) mem)
      (by simp [seedKinds, PortableObjectKind.node]) selected (.head first path) outside
  simp only [needsMore, Bool.or_eq_true, desktopsNeedHosts, desktopsNeedCredentials,
    hostsNeedCredentials, Bool.and_eq_true, List.contains_iff_mem, not_contains,
    List.any_eq_true, Option.isSome_iff_exists] at needs
  rcases needs with (⟨⟨selected, outside⟩, desktop, mem, ⟨id, eq⟩ | ⟨id, eq⟩⟩ |
    ⟨⟨selected, outside⟩, desktop, mem, id, eq⟩) | ⟨outside, hosts⟩
  · refine fromDesktop mem selected (m := ⟨.host, id⟩) ?_ .refl outside
    simp [eq]
  · refine fromDesktop mem selected (m := ⟨.host, id⟩) ?_ .refl outside
    simp [eq]
  · refine fromDesktop mem selected (m := ⟨.credential, id⟩) ?_ .refl outside
    simp [eq]
  · split_ifs at hosts with selected
    · obtain ⟨host, mem, refs⟩ := List.any_eq_true.mp hosts
      obtain ⟨n, path, category⟩ := host_reaches_credentials mem refs
      exact missing_of_refers (live_of_mem (k := .host) mem)
        (by simp [seedKinds, PortableObjectKind.node]) selected path (category ▸ outside)
    · simp only [Bool.and_eq_true, List.contains_iff_mem, List.any_eq_true, Bool.or_eq_true,
        decide_eq_true_eq] at hosts
      obtain ⟨selected, desktop, mem, host, held, uses, refs⟩ := hosts
      obtain ⟨n, path, category⟩ := host_reaches_credentials held refs
      refine fromDesktop mem selected (m := ⟨.host, host.id⟩) ?_ path (category ▸ outside)
      rcases uses with eq | eq
      · simp [eq]
      · simp [eq]

/-- The kinds that are reached only through a host and name further objects. -/
@[simp] def hostParts : List PortableObjectKind :=
  [.route, .authenticationPlan, .loginAutomation]

/-- What every disclosed node satisfies when no category is missing. -/
structure Contained (s : PortableBundleV1) (categories : List PluginDataCategory)
    (n : ObjectNode) : Prop where
  selected : categoryForKind n.kind ∈ categories
  owner : n.kind ∈ hostParts → ∃ host ∈ s.objects.hosts, n ∈ host.references

theorem host_calm (calm : needsMore s categories = false) (selected : .hosts ∈ categories)
    (mem : host ∈ s.objects.hosts)
    (needs : hostReferencesCredentials s host = true) : .credentials ∈ categories := by
  by_contra missing
  simp only [needsMore, Bool.or_eq_false_iff, hostsNeedCredentials, List.contains_iff_mem.mpr
    selected, if_true, Bool.and_eq_false_iff, Bool.not_eq_false', List.contains_iff_mem, missing,
    false_or, List.any_eq_false] at calm
  exact calm.2 host mem needs

theorem desktop_calm (calm : needsMore s categories = false)
    (selected : .desktopProfiles ∈ categories) {desktop : PortableDesktopProfile}
    (mem : desktop ∈ s.objects.desktopProfiles) :
    (desktop.hostId.isSome ∨ desktop.gatewayHostId.isSome → .hosts ∈ categories) ∧
      (desktop.credentialId.isSome → .credentials ∈ categories) := by
  simp only [needsMore, Bool.or_eq_false_iff, desktopsNeedHosts, desktopsNeedCredentials,
    List.contains_iff_mem.mpr selected, Bool.true_and, Bool.and_eq_false_iff, Bool.not_eq_false',
    List.contains_iff_mem, List.any_eq_false, Bool.or_eq_true] at calm
  exact ⟨fun needs => calm.1.1.resolve_right fun none => none desktop mem needs,
    fun needs => calm.1.2.resolve_right fun none => none desktop mem needs⟩

theorem Contained.step (calm : needsMore s categories = false) {n m : ObjectNode}
    (inside : Contained s categories n) (refers : Refers s n m) : Contained s categories m := by
  obtain ⟨k, id⟩ := n
  obtain ⟨v, mem, eq, named⟩ := refers
  have selected := inside.selected
  -- Below a host everything but accounts belongs to the host's own category.
  have viaHost (owned : k ∈ hostParts)
      (needs : ∀ host : PortableHost, ⟨k, id⟩ ∈ host.references →
        hostReferencesCredentials s host = true) (hosts : .hosts ∈ categories) :
      .credentials ∈ categories := by
    obtain ⟨host, held, names⟩ := inside.owner owned
    exact host_calm calm hosts held (needs host names)
  cases k with
  | host =>
    have owner : ∃ host ∈ s.objects.hosts, m ∈ host.references := ⟨v, mem, named⟩
    rcases PortableHost.mem_references.mp named with
      rfl | rfl | rfl | rfl | rfl | ⟨account, eq, rfl⟩ | ⟨automation, eq, rfl⟩
    · exact ⟨selected, fun _ => owner⟩
    · exact ⟨selected, fun _ => owner⟩
    · exact ⟨selected, fun _ => owner⟩
    · exact ⟨selected, fun _ => owner⟩
    · exact ⟨selected, fun _ => owner⟩
    · exact ⟨host_calm calm selected mem (by simp [hostReferencesCredentials, eq]),
        by simp⟩
    · exact ⟨selected, fun _ => owner⟩
  | desktopProfile =>
    obtain ⟨hosts, credentials⟩ := desktop_calm calm selected mem
    rcases PortableDesktopProfile.mem_references.mp named with
      ⟨host, eq, rfl⟩ | ⟨host, eq, rfl⟩ | ⟨account, eq, rfl⟩
    · exact ⟨hosts (by simp [eq]), by simp⟩
    · exact ⟨hosts (by simp [eq]), by simp⟩
    · exact ⟨credentials (by simp [eq]), by simp⟩
  | identity =>
    obtain ⟨c, listed, rfl⟩ := List.mem_map.mp named
    exact ⟨selected, by simp⟩
  | credential =>
    rcases List.mem_cons.mp named with rfl | named
    · exact ⟨selected, by simp⟩
    · obtain ⟨c, listed, rfl⟩ := List.mem_map.mp named
      exact ⟨selected, by simp⟩
  | route =>
    rcases List.mem_append.mp named with named | named
    · obtain ⟨hop, used, rfl⟩ := List.mem_map.mp named
      exact ⟨selected, by simp⟩
    · obtain ⟨account, uses, rfl⟩ := mem_optionalNode.mp named
      refine ⟨viaHost (by simp) (fun host names => ?_) selected, by simp⟩
      have child : host.routeId = id := by
        simpa [eq_comm] using names
      have found : s.objects.routes.any (fun route =>
          route.id = host.routeId && route.ingress.credentialId.isSome) = true :=
        List.any_eq_true.mpr ⟨v, mem, by
          simpa [uses, child, PortableObjectKind.valueId] using eq⟩
      simp [hostReferencesCredentials, found]
  | authenticationPlan =>
    obtain ⟨account, listed, rfl⟩ := List.mem_map.mp named
    refine ⟨viaHost (by simp) (fun host names => ?_) selected, by simp⟩
    have child : host.authenticationPlanId = id := by
      simpa [eq_comm] using names
    have found : s.objects.authenticationPlans.any (fun plan =>
        plan.id = host.authenticationPlanId && !plan.credentialIds.isEmpty) = true :=
      List.any_eq_true.mpr ⟨v, mem, by
        simpa [child, PortableObjectKind.valueId, List.ne_nil_of_mem listed] using eq⟩
    simp [hostReferencesCredentials, found]
  | loginAutomation =>
    obtain ⟨secret, sent, rfl⟩ := List.mem_map.mp named
    obtain ⟨step, used, sends⟩ := List.mem_filterMap.mp sent
    refine ⟨viaHost (by simp) (fun host names => ?_) selected, by simp⟩
    have child : host.loginAutomationId = some id := by
      simpa [eq_comm] using names
    have steps : v.steps.any (·.secretId.isSome) = true :=
      List.any_eq_true.mpr ⟨step, used, by simp [sends]⟩
    have found : s.objects.loginAutomations.any (fun automation =>
        automation.id = id && automation.steps.any (·.secretId.isSome)) = true :=
      List.any_eq_true.mpr ⟨v, mem, by simpa [steps, PortableObjectKind.valueId] using eq⟩
    simp [hostReferencesCredentials, child, found]
  | algorithmPolicy | heartbeatPolicy | monitoringPolicy | secret =>
    simp [PortableObjectKind.references] at named

theorem needsMore_iff : needsMore s categories = true ↔ MissingDependency s categories := by
  refine ⟨missing_of_needsMore, fun missing => ?_⟩
  by_contra calm
  rw [Bool.not_eq_true] at calm
  obtain ⟨n, ⟨seed, live, kind, selected, path⟩, outside⟩ := missing
  have contained : Contained s categories n := by
    clear outside
    induction path with
    | refl =>
      refine ⟨selected, fun owned => ?_⟩
      generalize seed.kind = k at kind owned
      cases k <;> simp [seedKinds] at kind owned
    | tail _ refers ih => exact ih.step calm refers
  exact outside contained.selected

end

structure Selection (categories : List PluginDataCategory) : Prop where
  nonempty : categories ≠ []
  nodup : categories.Nodup
  business : ∀ c ∈ categories, c ∈ PluginDataCategory.business

namespace Selection

theorem length_le (h : Selection categories) : categories.length ≤ 3 :=
  (h.nodup.subperm h.business).length_le

theorem validate (h : Selection categories) : validateCategories categories = .ok () := by
  rw [validateCategories, Check.reject_eq_ok]
  simp only [not_or, not_lt, not_not, List.any_eq_true, decide_eq_true_eq, not_exists, not_and,
    gt_iff_lt]
  exact ⟨h.nonempty, h.length_le, h.business, h.nodup⟩

theorem mem_of_length (h : Selection categories) (three : categories.length = 3)
    {c : PluginDataCategory} (business : c ∈ PluginDataCategory.business) : c ∈ categories := by
  have perm := (h.nodup.subperm h.business).perm_of_length_le (by rw [three]; decide)
  exact perm.mem_iff.mpr business

def scope (categories : List PluginDataCategory) : List PortableDataCategory :=
  sortByKey id (categories.filterMap PluginDataCategory.portableCategory)

theorem portableCategory_categoryForKind (k : PortableObjectKind) :
    (categoryForKind k).portableCategory = some (PortableDataCategory.forKind k) := by
  cases k <;> rfl

theorem mem_scope {c : PortableDataCategory} :
    c ∈ scope categories ↔ ∃ d ∈ categories, d.portableCategory = some c := by
  rw [scope, (sortByKey_perm _ _).mem_iff, List.mem_filterMap]

theorem mem_scope_forKind {k : PortableObjectKind} :
    PortableDataCategory.forKind k ∈ scope categories ↔ categoryForKind k ∈ categories := by
  rw [mem_scope]
  constructor
  · rintro ⟨d, mem, eq⟩
    have same : d = categoryForKind k := by
      cases d <;> cases k <;> first | rfl | simp [PluginDataCategory.portableCategory,
        PortableDataCategory.forKind] at eq
    exact same ▸ mem
  · exact fun mem => ⟨_, mem, portableCategory_categoryForKind k⟩

theorem scope_sorted (h : Selection categories) : (scope categories).Pairwise (· < ·) := by
  have nodup : (scope categories).Nodup := by
    rw [scope, (sortByKey_perm _ _).nodup_iff]
    refine h.nodup.filterMap fun a b c ha hb => ?_
    cases a <;> cases b <;> cases c <;> first | rfl | simp [PluginDataCategory.portableCategory] at ha hb
  exact (sortByKey_pairwise id _).imp₂ (fun _ _ le ne => lt_of_le_of_ne le ne) nodup

end Selection

end NoriShell.Exchange

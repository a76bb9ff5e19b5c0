import NoriShell.Exchange.ComposeLaws
import NoriShell.Exchange.ProjectionSpec
import NoriShell.Sync.Canonical

/-! What a composed bundle holds for each decided object. -/

namespace NoriShell.Exchange

open Collections Sync ThreeWay

theorem mem_snapshotKeys {b : PortableBundleV1} {n : ObjectNode} :
    n ∈ snapshotKeys b ↔ n ∈ b.allNodes := by
  simp [snapshotKeys, objectKeys, PortableBundleV1.allNodes]

section

variable {loc remote : PortableBundleV1} {choice : ObjectNode → DataObjectSource}

theorem mem_allKeys {n : ObjectNode} :
    n ∈ allKeys loc remote ↔ n ∈ loc.allNodes ∨ n ∈ remote.allNodes := by
  simp [allKeys, mem_snapshotKeys]

variable (loc remote choice) in
def chosenSide (n : ObjectNode) : PortableBundleV1 :=
  sourceBundle loc remote (choice n)

variable (loc remote choice) in
def composed : PortableBundleV1 :=
  composedBundle loc remote (choicesFor (allKeys loc remote) choice)

theorem mem_allKeys_of_side {n m : ObjectNode} (mem : n ∈ (chosenSide loc remote choice m).allNodes) :
    n ∈ allKeys loc remote := by
  rw [mem_allKeys]
  cases side : choice m with
  | fromLocal =>
    rw [chosenSide, side] at mem
    exact .inl mem
  | fromRemote =>
    rw [chosenSide, side] at mem
    exact .inr mem

theorem composed_items (k : PortableObjectKind) : (composed loc remote choice).items k =
      (allKeys loc remote).toList.filterMap fun n =>
        if n.kind = k then
          ((chosenSide loc remote choice n).items k).find? fun v => k.valueId v = n.id
        else none := by
  have items : (composed loc remote choice).items k =
      chooseItems loc remote (choicesFor (allKeys loc remote) choice) k :=
    PortableObjects.items_ofItems _ k
  rw [items, chooseItems, choicesFor_toList, List.filterMap_map]
  rfl

variable (hloc : loc.Valid) (hremote : remote.Valid)
include hloc hremote

theorem chosenSide_valid (n : ObjectNode) : (chosenSide loc remote choice n).Valid := by
  unfold chosenSide sourceBundle
  cases choice n with
  | fromLocal => exact hloc
  | fromRemote => exact hremote

theorem mem_composed_items {k : PortableObjectKind} {v : k.Value} :
    v ∈ (composed loc remote choice).items k ↔
      v ∈ (chosenSide loc remote choice (k.node v)).items k := by
  rw [composed_items, List.mem_filterMap]
  constructor
  · rintro ⟨n, -, found⟩
    split_ifs at found with kind
    obtain ⟨mem, eq⟩ := (chosenSide_valid hloc hremote n).find_eq_some.mp found
    have same : k.node v = n := by rw [PortableObjectKind.node, eq, ← kind]
    rwa [same]
  · intro mem
    refine ⟨k.node v, ?_, ?_⟩
    · rw [BTreeSet.mem_toList]
      exact mem_allKeys_of_side (List.mem_append_left _ (live_of_mem mem))
    · rw [if_pos (show (k.node v).kind = k from rfl)]
      exact (chosenSide_valid hloc hremote _).find_eq_some.mpr ⟨mem, rfl⟩

theorem mem_composed_live {n : ObjectNode} : n ∈ (composed loc remote choice).liveNodes ↔
      n ∈ (chosenSide loc remote choice n).liveNodes := by
  have same {v : n.kind.Value} (eq : n.kind.valueId v = n.id) : n.kind.node v = n := by
    rw [PortableObjectKind.node, eq]
  simp only [PortableBundleV1.mem_liveNodes, mem_composed_items hloc hremote]
  constructor
  · rintro ⟨v, mem, eq⟩
    exact ⟨v, by rwa [same eq] at mem, eq⟩
  · rintro ⟨v, mem, eq⟩
    exact ⟨v, by rwa [same eq], eq⟩

theorem mem_composed_tombstones {t : PortableTombstone} :
    t ∈ (composed loc remote choice).tombstones ↔
      t.node ∈ allKeys loc remote ∧ t.node ∉ (chosenSide loc remote choice t.node).liveNodes := by
  have mem : t ∈ (composed loc remote choice).tombstones ↔ ∃ n ∈ allKeys loc remote,
      n ∉ (composedObjects loc remote (choicesFor (allKeys loc remote) choice)).liveNodes ∧
        PortableTombstone.mk n.kind n.id = t := by
    simp only [composed, composedBundle, choicesFor_toList, objectKeys, List.mem_map,
      List.mem_filter, decide_eq_true_eq, BTreeSet.mem_ofList]
    constructor
    · rintro ⟨_, ⟨⟨n, known, rfl⟩, missing⟩, rfl⟩
      exact ⟨n, BTreeSet.mem_toList.mp known, missing, rfl⟩
    · rintro ⟨n, known, missing, rfl⟩
      exact ⟨_, ⟨⟨n, BTreeSet.mem_toList.mpr known, rfl⟩, missing⟩, rfl⟩
  rw [mem]
  constructor
  · rintro ⟨n, known, missing, rfl⟩
    exact ⟨known, fun held => missing ((mem_composed_live hloc hremote).mpr held)⟩
  · rintro ⟨known, missing⟩
    exact ⟨t.node, known, fun held => missing ((mem_composed_live hloc hremote).mp held), rfl⟩

theorem mem_composed_times {t : PortableItemUpdateTime} :
    t ∈ (composed loc remote choice).updateTimes ↔
      t ∈ (chosenSide loc remote choice t.node).updateTimes := by
  have mem : t ∈ (composed loc remote choice).updateTimes ↔ ∃ n ∈ allKeys loc remote,
      (chosenSide loc remote choice n).updateTimes.find? (fun item => item.node = n) = some t := by
    simp only [composed, composedBundle, choicesFor_toList, List.mem_filterMap, List.mem_map]
    constructor
    · rintro ⟨_, ⟨n, known, rfl⟩, found⟩
      exact ⟨n, BTreeSet.mem_toList.mp known, found⟩
    · rintro ⟨n, known, found⟩
      exact ⟨_, ⟨n, BTreeSet.mem_toList.mpr known, rfl⟩, found⟩
  rw [mem]
  constructor
  · rintro ⟨n, -, found⟩
    obtain ⟨held, rfl⟩ := (chosenSide_valid hloc hremote n).find_time.mp found
    exact held
  · intro held
    have valid : (chosenSide loc remote choice t.node).Valid := chosenSide_valid hloc hremote _
    exact ⟨t.node, mem_allKeys_of_side (valid.timePresent t held), valid.find_time.mpr ⟨held, rfl⟩⟩

end

/-- Every decided object has its chosen state and time, and the result holds
nothing beyond the decided objects and what it inherits from the remote side. -/
structure Chosen (loc remote : PortableBundleV1) (choice : ObjectNode → DataObjectSource)
    (b : PortableBundleV1) : Prop where
  valid : b.validateCurrentBusinessExchange = .ok ()
  once : ∀ n ∈ allKeys loc remote, b.allNodes.count n = 1
  state : ∀ n ∈ allKeys loc remote, b.nodeState n.kind n.id =
    ((chosenSide loc remote choice n).nodeState n.kind n.id).orDead
  time : ∀ n ∈ allKeys loc remote, itemTime b n = itemTime (chosenSide loc remote choice n) n
  nodes : ∀ n ∈ b.allNodes, n ∈ allKeys loc remote
  times : ∀ t ∈ b.updateTimes, t.node ∈ allKeys loc remote
  skipped : b.skippedMachineBound = remote.skippedMachineBound
  revision : b.revision = remote.revision
  selectedCategories : b.selectedCategories = remote.selectedCategories

section

variable {loc remote : PortableBundleV1} {choice : ObjectNode → DataObjectSource}
  (hloc : loc.Valid) (hremote : remote.Valid)
include hloc hremote

theorem mem_composed_nodes {n : ObjectNode} :
    n ∈ (composed loc remote choice).allNodes ↔ n ∈ allKeys loc remote := by
  rw [PortableBundleV1.allNodes, List.mem_append, mem_composed_live hloc hremote,
    PortableBundleV1.tombstoneNodes, List.mem_map]
  constructor
  · rintro (live | ⟨t, dead, rfl⟩)
    · exact mem_allKeys_of_side (List.mem_append_left _ live)
    · exact ((mem_composed_tombstones hloc hremote).mp dead).1
  · intro mem
    by_cases live : n ∈ (chosenSide loc remote choice n).liveNodes
    · exact .inl live
    · exact .inr ⟨⟨n.kind, n.id⟩, (mem_composed_tombstones hloc hremote).mpr ⟨mem, live⟩, rfl⟩

theorem nodeState_composed (h : (composed loc remote choice).Valid) {n : ObjectNode}
    (mem : n ∈ allKeys loc remote) :
    (composed loc remote choice).nodeState n.kind n.id =
      ((chosenSide loc remote choice n).nodeState n.kind n.id).orDead := by
  have side : (chosenSide loc remote choice n).Valid := chosenSide_valid hloc hremote n
  have buried (missing : n ∉ (chosenSide loc remote choice n).liveNodes) :
      (composed loc remote choice).nodeState n.kind n.id = .dead :=
    (PortableBundleV1.nodeState_eq_dead h).mpr (List.mem_map.mpr
      ⟨⟨n.kind, n.id⟩, (mem_composed_tombstones hloc hremote).mpr ⟨mem, missing⟩, rfl⟩)
  cases held : (chosenSide loc remote choice n).nodeState n.kind n.id with
  | live v =>
    obtain ⟨mem, eq⟩ := (PortableBundleV1.nodeState_eq_live side).mp held
    have same : n.kind.node v = n := by rw [PortableObjectKind.node, eq]
    exact (PortableBundleV1.nodeState_eq_live h).mpr
      ⟨(mem_composed_items hloc hremote).mpr (same.symm ▸ mem), eq⟩
  | dead =>
    have dead := (PortableBundleV1.nodeState_eq_dead side).mp held
    exact buried fun live => side.live_notMem_tombstones live dead
  | absent =>
    have absent := PortableBundleV1.nodeState_eq_absent.mp held
    exact buried fun live => absent (List.mem_append_left _ live)

theorem chosen_composed
    (valid : (composed loc remote choice).validateCurrentBusinessExchange = .ok ()) :
    Chosen loc remote choice (composed loc remote choice) := by
  have h := (validateCurrentBusinessExchange_eq_ok.mp valid).1
  have known {n : ObjectNode} : n ∈ (composed loc remote choice).allNodes ↔
      n ∈ allKeys loc remote := mem_composed_nodes hloc hremote
  exact {
    valid := valid
    once n mem := List.count_eq_one_of_mem h.nodup_allNodes (known.mpr mem)
    state n mem := nodeState_composed hloc hremote h mem
    time n mem := by
      apply Option.ext
      intro time
      rw [PortableBundleV1.itemTime_eq_some h,
        PortableBundleV1.itemTime_eq_some (chosenSide_valid hloc hremote n),
        mem_composed_times hloc hremote]
      rfl
    nodes n mem := known.mp mem
    times t mem := known.mp (h.timePresent t mem)
    skipped := rfl
    revision := rfl
    selectedCategories := rfl }

omit hloc in
theorem chosen_remote (all : ∀ n ∈ allKeys loc remote, choice n = .fromRemote)
    (known : ∀ n ∈ allKeys loc remote, n ∈ remote.allNodes)
    (valid : remote.validateCurrentBusinessExchange = .ok ()) :
    Chosen loc remote choice remote := by
  have side {n : ObjectNode} (mem : n ∈ allKeys loc remote) :
      chosenSide loc remote choice n = remote := by
    rw [chosenSide, all n mem]
    rfl
  exact {
    valid := valid
    once n mem := List.count_eq_one_of_mem hremote.nodup_allNodes (known n mem)
    state n mem := by
      rw [side mem, State.orDead_of_ne_absent]
      exact fun absent => PortableBundleV1.nodeState_eq_absent.mp absent (known n mem)
    time n mem := by rw [side mem]
    nodes n mem := mem_allKeys.mpr (.inr mem)
    times t mem := mem_allKeys.mpr (.inr (hremote.timePresent t mem))
    skipped := rfl
    revision := rfl
    selectedCategories := rfl }

theorem composed_nodup : (∀ k, ((composed loc remote choice).items k).Nodup) ∧
      (composed loc remote choice).tombstones.Nodup ∧
      (composed loc remote choice).updateTimes.Nodup := by
  have keys := (allKeys loc remote).toList_nodup
  refine ⟨fun k => ?_, ?_, ?_⟩
  · rw [composed_items]
    refine keys.filterMap fun m n v hm hn => ?_
    rw [Option.mem_def] at hm hn
    split_ifs at hm hn with mk nk
    obtain ⟨-, mid⟩ := (chosenSide_valid hloc hremote m).find_eq_some.mp hm
    obtain ⟨-, nid⟩ := (chosenSide_valid hloc hremote n).find_eq_some.mp hn
    exact ObjectNode.ext (mk.trans nk.symm) (mid.symm.trans nid)
  · simp only [composed, composedBundle, choicesFor_toList]
    refine (List.Nodup.filter _ (keys.map fun m n eq => (Prod.mk.inj eq).1)).map_on ?_
    rintro ⟨m, _⟩ hm ⟨n, _⟩ hn eq
    obtain ⟨m', -, hm⟩ := List.mem_map.mp (List.mem_of_mem_filter hm)
    obtain ⟨n', -, hn⟩ := List.mem_map.mp (List.mem_of_mem_filter hn)
    have same : m = n := ObjectNode.ext (PortableTombstone.mk.inj eq).1 (PortableTombstone.mk.inj eq).2
    cases hm
    cases hn
    rw [same]
  · simp only [composed, composedBundle, choicesFor_toList, List.filterMap_map]
    refine keys.filterMap fun m n t hm hn => ?_
    have mnode := ((chosenSide_valid hloc hremote m).find_time.mp hm).2
    exact mnode.symm.trans ((chosenSide_valid hloc hremote n).find_time.mp hn).2

omit hloc hremote in
theorem takesRemote_iff : takesRemote loc remote (choicesFor (allKeys loc remote) choice) = true ↔
      (∀ n ∈ allKeys loc remote, n ∈ remote.allNodes) ∧
        ∀ n ∈ allKeys loc remote, choice n = .fromRemote := by
  simp only [takesRemote, Bool.and_eq_true, List.all_eq_true, decide_eq_true_eq, choicesFor_toList,
    List.forall_mem_map, BTreeSet.mem_toList, mem_snapshotKeys, mem_allKeys]
  refine and_congr_left fun _ => ⟨fun known n mem => ?_, fun known n mem => known n (.inl mem)⟩
  exact mem.elim (known n) id

theorem reordered_remote (all : ∀ n ∈ allKeys loc remote, choice n = .fromRemote)
    (known : ∀ n ∈ allKeys loc remote, n ∈ remote.allNodes) :
    (composed loc remote choice).Reordered remote := by
  obtain ⟨itemsNodup, tombstonesNodup, timesNodup⟩ :
      (∀ k, ((composed loc remote choice).items k).Nodup) ∧ _ := composed_nodup hloc hremote
  have side {n : ObjectNode} (mem : n ∈ (chosenSide loc remote choice n).allNodes ∨
      n ∈ remote.allNodes) : chosenSide loc remote choice n = remote := by
    have mem : n ∈ allKeys loc remote :=
      mem.elim mem_allKeys_of_side fun held => mem_allKeys.mpr (.inr held)
    rw [chosenSide, all n mem]
    rfl
  exact {
    schema := rfl
    selectedCategories := rfl
    revision := rfl
    preferences := rfl
    preferenceUpdateTimes := rfl
    items k := by
      refine (List.perm_ext_iff_of_nodup (itemsNodup k) (hremote.nodup_valueIds k).of_map).mpr ?_
      intro v
      rw [mem_composed_items hloc hremote]
      constructor
      · intro mem
        rwa [side (.inl (List.mem_append_left _ (live_of_mem mem)))] at mem
      · intro mem
        rwa [side (.inr (List.mem_append_left _ (live_of_mem mem)))]
    skipped := .rfl
    tombstones := by
      refine (List.perm_ext_iff_of_nodup tombstonesNodup hremote.nodup_tombstoneNodes.of_map).mpr ?_
      intro t
      rw [mem_composed_tombstones hloc hremote]
      constructor
      · rintro ⟨mem, missing⟩
        have held := known _ mem
        rw [side (.inr held)] at missing
        obtain ⟨t', dead, same⟩ := List.mem_map.mp ((List.mem_append.mp held).resolve_left missing)
        rwa [← PortableTombstone.node_injective same]
      · intro mem
        have dead : t.node ∈ remote.tombstoneNodes := List.mem_map_of_mem mem
        have held : t.node ∈ remote.allNodes := List.mem_append_right _ dead
        rw [side (.inr held)]
        exact ⟨mem_allKeys.mpr (.inr held), fun live => hremote.live_notMem_tombstones live dead⟩
    updateTimes := by
      refine (List.perm_ext_iff_of_nodup timesNodup hremote.timeUnique.of_map).mpr ?_
      intro t
      rw [mem_composed_times hloc hremote]
      constructor
      · intro mem
        rwa [side (.inl ((chosenSide_valid hloc hremote _).timePresent t mem))] at mem
      · intro mem
        rwa [side (.inr (hremote.timePresent t mem))] }

theorem composeChoices_spec (valid : remote.validateCurrentBusinessExchange = .ok ()) :
    (∀ b, composeChoices loc remote (choicesFor (allKeys loc remote) choice) = .ok b →
      Chosen loc remote choice b ∧ (composed loc remote choice).Reordered b) ∧
    ∀ e, composeChoices loc remote (choicesFor (allKeys loc remote) choice) = .error e ↔
      e = .mergeInvalid "broker.data_exchange.compose_references" ∧
        (composed loc remote choice).validateCurrentBusinessExchange ≠ .ok () := by
  unfold composeChoices
  split_ifs with shortcut
  · obtain ⟨known, all⟩ := takesRemote_iff.mp shortcut
    have reordered := reordered_remote hloc hremote all known
    have rebuilt : (composed loc remote choice).validateCurrentBusinessExchange = .ok () :=
      validateCurrentBusinessExchange_eq_ok.mpr
        ⟨reordered.symm.valid hremote, (validateCurrentBusinessExchange_eq_ok.mp valid).2⟩
    refine ⟨?_, fun e => ?_⟩
    · rintro b ⟨⟩
      exact ⟨chosen_remote hremote all known valid, reordered⟩
    · simp [rebuilt]
  · have general : composedBundle loc remote (choicesFor (allKeys loc remote) choice) =
      composed loc remote choice := rfl
    simp only [general]
    cases checked : (composed loc remote choice).validateCurrentBusinessExchange with
    | error _ => simp [eq_comm]
    | ok _ =>
      refine ⟨?_, by simp⟩
      rintro b ⟨⟩
      exact ⟨chosen_composed hloc hremote checked, .rfl⟩

end

section

variable {Key : Type} {baselineDigest : Key → String → String} {loc : DataLocalSnapshot Key}
  {remote : DataExchangeInspection Key} {key : Key}
  (hkey : loc.key = some key) (same : sameBinding baselineDigest loc remote key)
include hkey same

theorem composeSelectedObjects_eq (decisions : List DataObjectDecision) :
    composeSelectedObjects baselineDigest loc remote decisions = (do
      reject (decisions.length ≠ (allKeys loc.selectedBundle remote.bundle).size)
        (.operationRejected "broker.data_exchange.selection_incomplete")
      let choices ← collectChoices (handleMap baselineDigest key
        (allKeys loc.selectedBundle remote.bundle)) decisions
      composeChoices loc.selectedBundle remote.bundle choices) := by
  simp [composeSelectedObjects, hkey, reject, same, bind, Except.bind]

variable (collisionFree : Function.Injective (baselineDigest key))
include collisionFree

theorem compose_of_perm {decisions : List DataObjectDecision}
    {choice : ObjectNode → DataObjectSource} (perm : decisions.Perm
      (decisionsFor baselineDigest key (allKeys loc.selectedBundle remote.bundle) choice)) :
    composeSelectedObjects baselineDigest loc remote decisions =
      composeChoices loc.selectedBundle remote.bundle
        (choicesFor (allKeys loc.selectedBundle remote.bundle) choice) := by
  have length : decisions.length = (allKeys loc.selectedBundle remote.bundle).size := by
    rw [perm.length_eq, decisionsFor, List.length_map, BTreeSet.length_toList]
  rw [composeSelectedObjects_eq hkey same, collectChoices_of_perm collisionFree perm]
  simp [reject, length, bind, Except.bind]

theorem exists_choice_of_compose {decisions : List DataObjectDecision} {b : PortableBundleV1}
    (accepted : composeSelectedObjects baselineDigest loc remote decisions = .ok b) :
    ∃ choice, decisions.Perm
      (decisionsFor baselineDigest key (allKeys loc.selectedBundle remote.bundle) choice) := by
  rw [composeSelectedObjects_eq hkey same, Check.bind_unit_eq_ok, Check.reject_eq_ok, not_not,
    Check.bind_eq_ok] at accepted
  obtain ⟨length, choices, collected, -⟩ := accepted
  exact exists_choice collisionFree collected length

end

/-- Composing accepts exactly one decision for every object or tombstone of either
side, in any order, and takes each object from the chosen side; only an invalid
result is refused beyond that. -/
theorem composeSelectedObjects_takes {Key : Type} {baselineDigest : Key → String → String}
    {loc : DataLocalSnapshot Key} {remote : DataExchangeInspection Key} {key : Key}
    (hkey : loc.key = some key) (same : sameBinding baselineDigest loc remote key)
    (collisionFree : Function.Injective (baselineDigest key))
    (hloc : loc.selectedBundle.validateCurrentBusinessExchange = .ok ())
    (hremote : remote.bundle.validateCurrentBusinessExchange = .ok ())
    (decisions : List DataObjectDecision) :
    (∀ b, composeSelectedObjects baselineDigest loc remote decisions = .ok b →
      ∃ choice, decisions.Perm
        (decisionsFor baselineDigest key (allKeys loc.selectedBundle remote.bundle) choice)) ∧
    (∀ decisions', decisions.Perm decisions' →
      ∀ b, composeSelectedObjects baselineDigest loc remote decisions = .ok b ↔
        composeSelectedObjects baselineDigest loc remote decisions' = .ok b) ∧
    ∀ choice, decisions.Perm
        (decisionsFor baselineDigest key (allKeys loc.selectedBundle remote.bundle) choice) →
      (∀ b, composeSelectedObjects baselineDigest loc remote decisions = .ok b →
        Chosen loc.selectedBundle remote.bundle choice b ∧
        ∀ codec : BundleCodec, codec.canonicalBundleBytes b =
          codec.canonicalBundleBytes (composed loc.selectedBundle remote.bundle choice)) ∧
      ∀ e, composeSelectedObjects baselineDigest loc remote decisions = .error e ↔
        e = .mergeInvalid "broker.data_exchange.compose_references" ∧
          (composed loc.selectedBundle remote.bundle choice).validateCurrentBusinessExchange ≠
            .ok () := by
  refine ⟨fun b run => exists_choice_of_compose hkey same collisionFree run, ?_, ?_⟩
  · have transfer {ds ds' : List DataObjectDecision} {b : PortableBundleV1} (perm : ds.Perm ds')
        (run : composeSelectedObjects baselineDigest loc remote ds = .ok b) :
        composeSelectedObjects baselineDigest loc remote ds' = .ok b := by
      obtain ⟨choice, decided⟩ := exists_choice_of_compose hkey same collisionFree run
      rwa [compose_of_perm hkey same collisionFree (perm.symm.trans decided),
        ← compose_of_perm hkey same collisionFree decided]
    exact fun ds' perm b => ⟨transfer perm, transfer perm.symm⟩
  · intro choice perm
    rw [compose_of_perm hkey same collisionFree perm]
    have validLoc := (validateCurrentBusinessExchange_eq_ok.mp hloc).1
    have validRemote := (validateCurrentBusinessExchange_eq_ok.mp hremote).1
    refine ⟨fun b run => ?_, (composeChoices_spec validLoc validRemote hremote).2⟩
    obtain ⟨chosen, reordered⟩ := (composeChoices_spec validLoc validRemote hremote).1 b run
    have valid := (validateCurrentBusinessExchange_eq_ok.mp chosen.valid).1
    exact ⟨chosen, fun codec => BundleCodec.canonicalBundleBytes_eq reordered.symm valid⟩

def identityExchange (identities : List PortableIdentity) (updateTimes : List PortableItemUpdateTime) :
    PortableBundleV1 where
  schema := .v6
  selectedCategories := some [.credentials]
  revision := 1
  objects := { identities := identities }
  preferences := none
  secrets := []
  skippedMachineBound := []
  tombstones := []
  updateTimes := updateTimes
  preferenceUpdateTimes := .empty

def renamedLocal : DataLocalSnapshot Unit where
  pluginId := "sync"
  dataOwnerSha256 := "owner"
  profileId := "profile"
  selectedBundle := identityExchange [⟨1, "work", none, []⟩] [⟨.identity, 1, 5⟩]
  categories := [.credentials]
  key := some ()

def extendedRemote : DataExchangeInspection Unit where
  pluginId := "sync"
  signerFingerprintSha256 := "owner"
  profileId := "profile"
  bundle := identityExchange [⟨1, "home", none, []⟩, ⟨2, "lab", none, []⟩] [⟨.identity, 2, 6⟩]
  categories := [.credentials]
  key := ()

theorem composeSelectedObjects_takes_renamedLocal :
    let choice (n : ObjectNode) : DataObjectSource := if n.id = 1 then .fromLocal else .fromRemote
    ∃ b, composeSelectedObjects (fun _ text => text) renamedLocal extendedRemote
        [⟨handleMaterial ⟨.identity, 2⟩, .fromRemote⟩,
          ⟨handleMaterial ⟨.identity, 1⟩, .fromLocal⟩] = .ok b ∧
      Chosen renamedLocal.selectedBundle extendedRemote.bundle choice b := by
  intro choice
  have run : composeSelectedObjects (fun _ text => text) renamedLocal extendedRemote
      [⟨handleMaterial ⟨.identity, 2⟩, .fromRemote⟩, ⟨handleMaterial ⟨.identity, 1⟩, .fromLocal⟩] =
        .ok (identityExchange [⟨1, "work", none, []⟩, ⟨2, "lab", none, []⟩]
          [⟨.identity, 1, 5⟩, ⟨.identity, 2, 6⟩]) := by
    decide +kernel
  have decided : [⟨handleMaterial ⟨.identity, 2⟩, .fromRemote⟩,
      ⟨handleMaterial ⟨.identity, 1⟩, .fromLocal⟩].Perm (decisionsFor (fun _ text => text) ()
        (allKeys renamedLocal.selectedBundle extendedRemote.bundle) choice) := by
    decide +kernel
  have binding : sameBinding (fun _ text => text) renamedLocal extendedRemote () := by decide
  have taken := composeSelectedObjects_takes rfl binding Function.injective_id (by decide +kernel)
    (by decide +kernel)
  exact ⟨_, run, ((taken _).2.2 choice decided).1 _ run |>.1⟩

end NoriShell.Exchange

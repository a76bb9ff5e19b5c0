import NoriShell.ThreeWay
import NoriShell.Sync.Merge
import NoriShell.Sync.ValidateLaws

namespace NoriShell.Sync

open Collections ThreeWay

theorem PortableTombstone.node_injective : Function.Injective PortableTombstone.node := by
  rintro ⟨_, _⟩ ⟨_, _⟩ eq
  cases eq
  rfl

theorem find?_key_eq_some {α κ : Type} [DecidableEq κ] {key : α → κ} {l : List α}
    (unique : (l.map key).Nodup) {a : κ} {v : α} :
    l.find? (fun v => key v = a) = some v ↔ v ∈ l ∧ key v = a := by
  constructor
  · intro found
    exact ⟨List.mem_of_find?_eq_some found, by simpa using List.find?_some found⟩
  · rintro ⟨mem, rfl⟩
    cases found : l.find? fun w => key w = key v with
    | none => simpa using List.find?_eq_none.mp found v mem
    | some w =>
      have same : key w = key v := by simpa using List.find?_some found
      rw [List.inj_on_of_nodup_map unique (List.mem_of_find?_eq_some found) mem same]

namespace PortableBundleV1

/-- A node is live with its value, dead under a tombstone, or absent. -/
def nodeState (b : PortableBundleV1) (k : PortableObjectKind) (id : PortableObjectId) :
    State k.Value :=
  match (b.items k).find? fun v => k.valueId v = id with
  | some v => .live v
  | none => if ⟨k, id⟩ ∈ b.tombstoneNodes then .dead else .absent

namespace Valid

variable {b : PortableBundleV1}

section

variable (h : b.Valid)

include h

theorem nodup_nodeIds : (b.allNodes.map ObjectNode.id).Nodup := by
  refine h.idsUnique.sublist ?_
  rw [allNodes, allIds, List.map_append, tombstoneNodes, List.map_map]
  exact List.Sublist.append (List.sublist_append_left _ _) (List.Sublist.refl _)

theorem nodup_allNodes : b.allNodes.Nodup :=
  List.Nodup.of_map _ h.nodup_nodeIds

theorem nodup_liveNodes : b.liveNodes.Nodup :=
  (List.nodup_append.mp h.nodup_allNodes).1

theorem nodup_tombstoneNodes : b.tombstoneNodes.Nodup :=
  (List.nodup_append.mp h.nodup_allNodes).2.1

theorem live_notMem_tombstones {n : ObjectNode} (live : n ∈ b.liveNodes) :
    n ∉ b.tombstoneNodes :=
  fun dead => (List.nodup_append.mp h.nodup_allNodes).2.2 n live n dead rfl

theorem nodup_valueIds (k : PortableObjectKind) :
    ((b.items k).map k.valueId).Nodup := by
  have nodup := (List.nodup_flatMap.mp h.nodup_liveNodes).1 k k.mem_all
  have ids : (b.items k).map k.valueId = ((b.items k).map k.node).map ObjectNode.id := by
    rw [List.map_map]
    rfl
  rw [ids]
  refine nodup.map_on fun m hm n hn eq => ?_
  obtain ⟨v, -, rfl⟩ := List.mem_map.mp hm
  obtain ⟨w, -, rfl⟩ := List.mem_map.mp hn
  simpa [PortableObjectKind.node] using eq

theorem find_eq_some {k : PortableObjectKind} {id : PortableObjectId} {v : k.Value} :
    (b.items k).find? (fun v => k.valueId v = id) = some v ↔ v ∈ b.items k ∧ k.valueId v = id :=
  find?_key_eq_some (h.nodup_valueIds k)

theorem find_time {n : ObjectNode} {t : PortableItemUpdateTime} :
    b.updateTimes.find? (fun item => item.node = n) = some t ↔ t ∈ b.updateTimes ∧ t.node = n :=
  find?_key_eq_some h.timeUnique

end

end Valid

variable {b : PortableBundleV1} {k : PortableObjectKind} {id : PortableObjectId}

theorem itemTime_eq_some (h : b.Valid) {n : ObjectNode} {time : Int} :
    itemTime b n = some time ↔ ⟨n.kind, n.id, time⟩ ∈ b.updateTimes := by
  rw [itemTime, Option.map_eq_some_iff]
  constructor
  · rintro ⟨item, found, rfl⟩
    obtain ⟨mem, rfl⟩ := h.find_time.mp found
    exact mem
  · intro mem
    exact ⟨_, h.find_time.mpr ⟨mem, rfl⟩, rfl⟩

theorem nodeState_eq_live (h : b.Valid) {v : k.Value} :
    b.nodeState k id = .live v ↔ v ∈ b.items k ∧ k.valueId v = id := by
  rw [← h.find_eq_some, nodeState]
  cases (b.items k).find? fun v => k.valueId v = id with
  | none => split_ifs <;> simp
  | some w => simp

theorem nodeState_eq_dead (h : b.Valid) : b.nodeState k id = .dead ↔ ⟨k, id⟩ ∈ b.tombstoneNodes := by
  rw [nodeState]
  cases found : (b.items k).find? fun v => k.valueId v = id with
  | none => split_ifs <;> simp_all
  | some v =>
    obtain ⟨mem, eq⟩ := h.find_eq_some.mp found
    have live : (⟨k, id⟩ : ObjectNode) ∈ b.liveNodes := mem_liveNodes.mpr ⟨v, mem, eq⟩
    simp [h.live_notMem_tombstones live]

theorem nodeState_eq_absent : b.nodeState k id = .absent ↔ ⟨k, id⟩ ∉ b.allNodes := by
  rw [nodeState, allNodes, List.mem_append, mem_liveNodes]
  cases found : (b.items k).find? fun v => k.valueId v = id with
  | none =>
    have none : ¬∃ v ∈ b.items k, k.valueId v = id := by
      rintro ⟨v, mem, eq⟩
      simpa [eq] using List.find?_eq_none.mp found v mem
    split_ifs <;> simp_all
  | some v =>
    have some : ∃ v ∈ b.items k, k.valueId v = id :=
      ⟨v, List.mem_of_find?_eq_some found, by simpa using List.find?_some found⟩
    simp [some]

end PortableBundleV1

section

variable {T : Type}

def Held.ofState : State T → Held T
  | .live v => ⟨some v, false⟩
  | .dead => ⟨none, true⟩
  | .absent => ⟨none, false⟩

def Applied.ofState : State T → Applied T
  | .live v => ⟨some v, false⟩
  | .dead => ⟨none, true⟩
  | .absent => ⟨none, false⟩

def Applied.toState (a : Applied T) : State T :=
  match a.value with
  | some v => .live v
  | none => if a.tombstone then .dead else .absent

theorem Applied.value_ofState {s : State T} {v : T} :
    (Applied.ofState s).value = some v ↔ s = .live v := by
  cases s <;> simp [Applied.ofState]

theorem Applied.deleted_ofState {s : State T} :
    ((Applied.ofState s).value.isNone && (Applied.ofState s).tombstone) = true ↔ s = .dead := by
  cases s <;> simp [Applied.ofState]

theorem result_ofState {base side : State T} (h : base.Changed side) :
    (Held.ofState base).result (Held.ofState side) = Applied.ofState side := by
  cases base <;> cases side <;> simp_all [Held.ofState, Held.result, editFor, applyEdit,
    Applied.ofState, State.Changed]

variable [DecidableEq T]

theorem changed_ofState (base side : State T) :
    (Held.ofState base).changed (Held.ofState side) = decide (base.Changed side) := by
  cases base <;> cases side <;>
    simp [Held.ofState, Held.changed, Held.result, changed, editFor, applyEdit, Edit.isOpinion,
      State.Changed, eq_comm]

theorem conflicting_ofState (base loc remote : State T) :
    conflicting (Held.ofState base) (Held.ofState loc) (Held.ofState remote) =
      decide (State.merge base loc remote = none) := by
  rw [conflicting, changed_ofState, changed_ofState, Bool.eq_iff_iff]
  simp only [Bool.and_eq_true, decide_eq_true_eq, State.merge_eq_none, and_assoc]
  refine and_congr_right fun hl => and_congr_right fun hr => ?_
  rw [result_ofState hl, result_ofState hr]
  cases loc <;> cases remote <;> simp [Applied.ofState]

theorem selectNode_ofState {base loc remote m : State T}
    (h : State.merge base loc remote = some m) :
    selectNode none (Held.ofState base) (Held.ofState loc) (Held.ofState remote) =
      .ok (Applied.ofState m) := by
  unfold State.merge at h
  simp only [selectNode, changed_ofState]
  split_ifs at h with hl hr same hr
  · cases h
    subst same
    simp only [hl, decide_true, result_ofState hl, if_true, Bool.or_self]
  · cases h
    simp only [hl, hr, decide_true, decide_false, result_ofState hl]
  · cases h
    simp only [hl, hr, decide_true, decide_false, result_ofState hr]
  · cases h
    simp only [hl, hr, decide_false]
    cases base <;> rfl

end

theorem held_eq_ofState {b : PortableBundleV1} (h : b.Valid) (k : PortableObjectKind)
    (id : PortableObjectId) :
    held k (valueMap (b.items k) k.valueId) (tombstoneSet b) id =
      Held.ofState (b.nodeState k id) := by
  have nodup : (((b.items k).map fun v => (k.valueId v, v)).map Prod.fst).Nodup := by
    rw [List.map_map]
    exact h.nodup_valueIds k
  have value : ∀ v, (valueMap (b.items k) k.valueId).get? id = some v ↔
      v ∈ b.items k ∧ k.valueId v = id := by
    intro v
    rw [valueMap, BTreeMap.get?_ofList nodup]
    simp only [List.mem_map, Prod.mk.injEq]
    constructor
    · rintro ⟨w, mem, eq, rfl⟩
      exact ⟨mem, eq⟩
    · rintro ⟨mem, eq⟩
      exact ⟨v, mem, eq, rfl⟩
  have dead : (⟨k, id⟩ : ObjectNode) ∈ tombstoneSet b ↔ b.nodeState k id = .dead := by
    rw [tombstoneSet, BTreeSet.mem_ofList, PortableBundleV1.nodeState_eq_dead h]
  have live : ∀ v, (valueMap (b.items k) k.valueId).get? id = some v ↔
      b.nodeState k id = .live v := by
    intro v
    rw [value, PortableBundleV1.nodeState_eq_live h]
  unfold held
  cases state : b.nodeState k id with
  | live v => simp [Held.ofState, (live v).mpr state, dead, state]
  | dead =>
    have none : (valueMap (b.items k) k.valueId).get? id = none := by
      rw [Option.eq_none_iff_forall_not_mem]
      intro v hv
      simp [(live v).mp hv] at state
    simp [Held.ofState, none, dead, state]
  | absent =>
    have none : (valueMap (b.items k) k.valueId).get? id = none := by
      rw [Option.eq_none_iff_forall_not_mem]
      intro v hv
      simp [(live v).mp hv] at state
    simp [Held.ofState, none, dead, state]

end NoriShell.Sync

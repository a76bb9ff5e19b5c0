import NoriShell.Sync.MergeSpec

namespace NoriShell.Sync

open Collections

section

variable {κ : Type} [LinearOrder κ] {P : κ → Int → Prop} {times : BTreeMap κ Int} {k key : κ}
  {t time : Int} {known : List (Option Int)}

def TimesHave (P : κ → Int → Prop) (times : BTreeMap κ Int) : Prop :=
  ∀ k t, times.get? k = some t → P k t

theorem TimesHave.foldl {α : Type} {l : List α} {step : BTreeMap κ Int → α → BTreeMap κ Int}
    (before : TimesHave P times)
    (preserves : ∀ times, TimesHave P times → ∀ a ∈ l, TimesHave P (step times a)) :
    TimesHave P (l.foldl step times) :=
  List.foldlRecOn l step before preserves

theorem TimesHave.noteTimes (before : TimesHave P times)
    (noted : ∀ t, some t ∈ known → P key t) : TimesHave P (noteTimes times key known) := by
  apply before.foldl
  intro times before time mem k t
  cases time with
  | none => exact before k t
  | some time =>
    rw [BTreeMap.get?_upsert]
    split_ifs with eq
    · subst eq
      have here := noted time mem
      cases old : times.get? k with
      | none =>
        rintro ⟨⟩
        exact here
      | some old' =>
        rintro ⟨⟩
        rcases max_choice old' time with pick | pick
        · simpa [pick] using before k old' old
        · simpa [pick] using here
    · exact before k t

/-- A time of the key that is no earlier is in the map. -/
def Covers (k : κ) (t : Int) (times : BTreeMap κ Int) : Prop :=
  ∃ latest, times.get? k = some latest ∧ t ≤ latest

theorem Covers.upsert (before : Covers k t times) :
    Covers k t (times.upsert key (max · time) time) := by
  obtain ⟨latest, found, le⟩ := before
  rw [Covers, BTreeMap.get?_upsert]
  split_ifs with same
  · subst same
    rw [found]
    exact ⟨_, rfl, le.trans (le_max_left _ _)⟩
  · exact ⟨latest, found, le⟩

theorem covers_upsert : Covers key time (times.upsert key (max · time) time) := by
  rw [Covers, BTreeMap.get?_upsert, if_pos rfl]
  cases times.get? key with
  | none => exact ⟨_, rfl, le_refl _⟩
  | some old => exact ⟨_, rfl, le_max_right _ _⟩

theorem Covers.foldl {α : Type} {l : List α} {step : BTreeMap κ Int → α → BTreeMap κ Int} {a : α}
    (mem : a ∈ l) (makes : ∀ times, Covers k t (step times a))
    (keeps : ∀ times b, Covers k t times → Covers k t (step times b)) :
    Covers k t (l.foldl step times) := by
  obtain ⟨l, l', rfl⟩ := List.append_of_mem mem
  rw [List.foldl_append, List.foldl_cons]
  exact List.foldlRecOn l' step (makes _) fun times before b _ => keeps times b before

theorem Covers.noteTimes (before : Covers k t times) : Covers k t (noteTimes times key known) := by
  refine List.foldlRecOn known _ before fun times before time _ => ?_
  cases time with
  | none => exact before
  | some time => exact before.upsert

theorem covers_noteTimes (mem : some t ∈ known) : Covers key t (noteTimes times key known) := by
  refine Covers.foldl mem (fun _ => covers_upsert) fun times time before => ?_
  cases time with
  | none => exact before
  | some time => exact before.upsert

theorem get?_eq_some_iff_isGreatest (noted : TimesHave P times)
    (covered : ∀ t, P k t → Covers k t times) :
    times.get? k = some t ↔ IsGreatest {t | P k t} t := by
  constructor
  · intro found
    refine ⟨noted k t found, fun other mem => ?_⟩
    obtain ⟨latest, found', le⟩ := covered other mem
    cases found.symm.trans found'
    exact le
  · rintro ⟨mem, greatest⟩
    obtain ⟨latest, found, le⟩ := covered t mem
    rw [found, le_antisymm (greatest (noted k latest found)) le]

end

section

variable {bundles : ThreeSides PortableBundleV1} {items : (k : PortableObjectKind) → List k.Value}
  {tombstones : List PortableTombstone} {n : ObjectNode} {t : Int}

def Shares (items : (k : PortableObjectKind) → List k.Value) (tombstones : List PortableTombstone)
    (n : ObjectNode) (b : PortableBundleV1) : Prop :=
  (∃ k, ∃ v ∈ items k, k.node v = n ∧ v ∈ b.items k) ∨
    ∃ x ∈ tombstones, x.node = n ∧ x ∈ b.tombstones

def knownTimes (bundles : ThreeSides PortableBundleV1)
    (items : (k : PortableObjectKind) → List k.Value) (tombstones : List PortableTombstone)
    (n : ObjectNode) : Set Int :=
  {t | ∃ b ∈ bundles.toList, Shares items tombstones n b ∧ itemTime b n = some t}

theorem some_mem_known {held : PortableBundleV1 → Prop} [DecidablePred held] :
    some t ∈ (bundles.toList.map fun b => if held b then itemTime b n else none) ↔
      ∃ b ∈ bundles.toList, held b ∧ itemTime b n = some t := by
  simp only [List.mem_map]
  refine exists_congr fun b => and_congr_right fun _ => ?_
  split_ifs with shared <;> simp [shared]

theorem mem_mergeUpdateTimes : ⟨n.kind, n.id, t⟩ ∈ mergeUpdateTimes items tombstones bundles ↔
      IsGreatest (knownTimes bundles items tombstones n) t := by
  have good : ∃ times, TimesHave (fun n t => t ∈ knownTimes bundles items tombstones n) times ∧
      (∀ t ∈ knownTimes bundles items tombstones n, Covers n t times) ∧
      mergeUpdateTimes items tombstones bundles =
        times.toList.map fun entry => ⟨entry.1.kind, entry.1.id, entry.2⟩ := by
    refine ⟨_, ?_, ?_, rfl⟩
    · apply TimesHave.foldl
      · apply TimesHave.foldl
        · intro n t eq
          simp at eq
        · intro times before k _
          apply before.foldl
          intro times before v mem
          refine before.noteTimes fun t noted => ?_
          obtain ⟨b, hb, shared, time⟩ := some_mem_known.mp noted
          exact ⟨b, hb, .inl ⟨k, v, mem, rfl, shared⟩, time⟩
      · intro times before x mem
        refine before.noteTimes fun t noted => ?_
        obtain ⟨b, hb, shared, time⟩ := some_mem_known.mp noted
        exact ⟨b, hb, .inr ⟨x, mem, rfl, shared⟩, time⟩
    · rintro t ⟨b, hb, ⟨k, v, mem, rfl, shared⟩ | ⟨x, mem, rfl, shared⟩, time⟩
      · refine List.foldlRecOn tombstones _ ?_ fun _ before _ _ => before.noteTimes
        refine Covers.foldl (PortableObjectKind.mem_all k) (fun times => ?_)
          fun times k before => List.foldlRecOn _ _ before fun _ before _ _ => before.noteTimes
        exact Covers.foldl mem
          (fun times => covers_noteTimes (some_mem_known.mpr ⟨b, hb, shared, time⟩))
          fun _ _ before => before.noteTimes
      · exact Covers.foldl mem
          (fun times => covers_noteTimes (some_mem_known.mpr ⟨b, hb, shared, time⟩))
          fun _ _ before => before.noteTimes
  obtain ⟨times, noted, covered, eq⟩ := good
  have greatest : times.get? n = some t ↔ IsGreatest (knownTimes bundles items tombstones n) t :=
    get?_eq_some_iff_isGreatest noted covered
  rw [eq, ← greatest, ← BTreeMap.mem_toList, List.mem_map]
  constructor
  · rintro ⟨⟨⟨kind, id⟩, time⟩, mem, same⟩
    obtain ⟨rfl, rfl, rfl⟩ := PortableItemUpdateTime.mk.inj same
    exact mem
  · exact fun mem => ⟨(n, t), mem, rfl⟩

theorem itemTime_positive {b : PortableBundleV1} (h : b.Valid) (eq : itemTime b n = some t) :
    0 < t := by
  obtain ⟨item, found, rfl⟩ := Option.map_eq_some_iff.mp eq
  exact h.timePositive item (List.mem_of_find?_eq_some found)

theorem mergeUpdateTimes_times (h : Mergeable bundles) {nodes : List ObjectNode}
    (live : ∀ k, ∀ v ∈ items k, k.node v ∈ nodes) (dead : ∀ t ∈ tombstones, t.node ∈ nodes) :
    (∀ t ∈ mergeUpdateTimes items tombstones bundles, 0 < t.updateTimeUnixMs ∧ t.node ∈ nodes) ∧
      ((mergeUpdateTimes items tombstones bundles).map PortableItemUpdateTime.node).Nodup := by
  constructor
  · intro t mem
    obtain ⟨b, hb, shared, time⟩ := (mem_mergeUpdateTimes (n := t.node).mp mem).1
    refine ⟨itemTime_positive (h.valid_of_mem hb) time, ?_⟩
    rcases shared with ⟨k, v, held, same, -⟩ | ⟨x, held, same, -⟩
    · exact same ▸ live k v held
    · exact same ▸ dead x held
  · rw [mergeUpdateTimes, List.map_map]
    exact BTreeMap.keys_nodup _

end

theorem length_times_le {nodes : List ObjectNode} {times : List PortableItemUpdateTime}
    (present : ∀ t ∈ times, t.node ∈ nodes)
    (unique : (times.map PortableItemUpdateTime.node).Nodup) : times.length ≤ nodes.length := by
  have sub : times.map PortableItemUpdateTime.node ⊆ nodes := by
    intro n mem
    obtain ⟨t, timed, rfl⟩ := List.mem_map.mp mem
    exact present t timed
  have count := (unique.subperm sub).length_le
  rwa [List.length_map] at count

end NoriShell.Sync

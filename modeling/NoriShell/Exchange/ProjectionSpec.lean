import NoriShell.Exchange.ProjectionLaws

/-! What a successful projection contains, and how projections compose. -/

namespace NoriShell.Exchange

open Collections Sync

theorem validateCurrentBusinessExchange_eq_ok {b : PortableBundleV1} :
    b.validateCurrentBusinessExchange = .ok () ↔
      b.Valid ∧ b.schema = .v6 ∧ b.preferences = none ∧ b.preferenceUpdateTimes.toList = [] := by
  simp only [PortableBundleV1.validateCurrentBusinessExchange, Check.bind_unit_eq_ok,
    Check.reject_eq_ok, PortableBundleV1.validate_eq_ok, not_or, not_not, Bool.not_eq_true,
    Option.isSome_eq_false_iff, Option.isNone_iff_eq_none]

theorem remoteChecked_eq_ok {checked : Except SyncCodecError Unit} (h : checked = .ok ()) :
    remoteChecked checked = .ok () := by
  rw [h]
  rfl

variable {s p q : PortableBundleV1} {categories inner : List PluginDataCategory}

def requiredCodes : List String :=
  ["broker.data_exchange.requires_hosts", "broker.data_exchange.requires_credentials",
    "broker.data_exchange.requires_hosts_and_credentials"]

theorem requiredCode_mem (required : List PluginDataCategory) :
    requiredCode required ∈ requiredCodes := by
  unfold requiredCode requiredCodes
  split <;> simp

theorem requiredDependencyCategories_eq (selection : Selection categories) :
    ∃ required, requiredDependencyCategories s categories = .ok required ∧
      (required = [] ↔ ¬MissingDependency s categories) := by
  rw [← needsMore_iff, requiredDependencyCategories, selection.validate]
  refine ⟨_, rfl, ?_⟩
  unfold needsMore
  cases desktopsNeedHosts s categories <;> cases desktopsNeedCredentials s categories <;>
    cases hostsNeedCredentials s categories <;> simp

section

variable {included : BTreeSet ObjectNode}

@[simp] theorem retainIncluded_items (k : PortableObjectKind) :
    (retainIncluded s categories included).items k =
      (s.items k).filter fun v => k.node v ∈ included :=
  PortableObjects.items_ofItems _ k

theorem mem_retainIncluded_live {n : ObjectNode} :
    n ∈ (retainIncluded s categories included).liveNodes ↔ n ∈ s.liveNodes ∧ n ∈ included := by
  have same {v : n.kind.Value} (eq : n.kind.valueId v = n.id) : n.kind.node v = n := by
    rw [PortableObjectKind.node, eq]
  simp only [PortableBundleV1.mem_liveNodes, retainIncluded_items, List.mem_filter,
    decide_eq_true_eq]
  constructor
  · rintro ⟨v, ⟨held, kept⟩, eq⟩
    exact ⟨⟨v, held, eq⟩, same eq ▸ kept⟩
  · rintro ⟨⟨v, held, eq⟩, kept⟩
    exact ⟨v, ⟨held, (same eq).symm ▸ kept⟩, eq⟩

theorem mem_retainIncluded_dead {n : ObjectNode} :
    n ∈ (retainIncluded s categories included).tombstoneNodes ↔
      n ∈ s.tombstoneNodes ∧ categoryForKind n.kind ∈ categories := by
  simp only [PortableBundleV1.tombstoneNodes, retainIncluded, List.mem_map, List.mem_filter,
    List.contains_iff_mem]
  constructor
  · rintro ⟨t, ⟨held, kept⟩, rfl⟩
    exact ⟨⟨t, held, rfl⟩, kept⟩
  · rintro ⟨⟨t, held, rfl⟩, kept⟩
    exact ⟨t, ⟨held, kept⟩, rfl⟩

theorem mem_retainIncluded_times {t : PortableItemUpdateTime} :
    t ∈ (retainIncluded s categories included).updateTimes ↔
      t ∈ s.updateTimes ∧ (t.node ∈ included ∨
        t.node ∈ (retainIncluded s categories included).tombstoneNodes) := by
  simp only [retainIncluded, PortableBundleV1.tombstoneNodes, List.mem_filter, decide_eq_true_eq,
    BTreeSet.mem_extend]

theorem businessBundle_valid (h : s.Valid) (three : categories.length = 3) :
    (businessBundle s categories).Valid := by
  have part : (businessBundle s categories).Part s :=
    ⟨fun _ => .refl _, .refl _, .refl _, .refl _, fun _ _ _ _ _ _ mem _ => mem⟩
  refine part.valid h (.of_v6 rfl rfl rfl) h.revision ?_ h.timePresent
  intro selected eq
  simp [businessBundle, three] at eq

variable (exact : ∀ n, n ∈ included ↔ Disclosed s categories n)
include exact

theorem retainIncluded_part : (retainIncluded s categories included).Part s where
  items k := by
    rw [retainIncluded_items]
    exact List.filter_sublist.subperm
  skipped := by
    unfold retainIncluded
    dsimp only
    split_ifs
    · exact .refl _
    · exact List.nil_subperm
  tombstones := List.filter_sublist.subperm
  updateTimes := List.filter_sublist.subperm
  closed k v mem n named w held eq := by
    rw [retainIncluded_items, List.mem_filter, decide_eq_true_eq, exact] at mem ⊢
    refine ⟨held, ?_⟩
    have reached : Disclosed s categories n := mem.2.step ⟨v, mem.1, rfl, named⟩
    rwa [PortableObjectKind.node, eq]

variable (complete : ¬MissingDependency s categories)
include complete

theorem retainIncluded_category {n : ObjectNode}
    (mem : n ∈ (retainIncluded s categories included).allNodes) :
    categoryForKind n.kind ∈ categories := by
  rcases List.mem_append.mp mem with live | dead
  · by_contra outside
    exact complete ⟨n, (exact n).mp (mem_retainIncluded_live.mp live).2, outside⟩
  · exact (mem_retainIncluded_dead.mp dead).2

theorem retainIncluded_valid (h : s.Valid) (selection : Selection categories) :
    (retainIncluded s categories included).Valid := by
  refine (retainIncluded_part exact).valid h (.of_v6 rfl rfl rfl) h.revision ?_ ?_
  · intro selected eq
    have scope : selected = Selection.scope categories := by
      unfold retainIncluded businessBundle at eq
      dsimp only at eq
      split_ifs at eq
      exact (Option.some.inj eq).symm
    subst scope
    have bounded : (Selection.scope categories).length ≤ 3 := by
      rw [Selection.scope, (sortByKey_perm _ _).length_eq]
      exact (List.length_filterMap_le _ _).trans selection.length_le
    refine ⟨rfl, ?_, bounded, selection.scope_sorted, fun n mem => ?_, fun missing => ?_⟩
    · intro empty
      obtain ⟨c, mem⟩ := List.exists_mem_of_ne_nil _ selection.nonempty
      have business := selection.business c mem
      have some : ∃ portable, c.portableCategory = some portable := by
        cases c <;> simp [PluginDataCategory.business, PluginDataCategory.portableCategory] at business ⊢
      obtain ⟨portable, eq⟩ := some
      have listed := Selection.mem_scope.mpr ⟨c, mem, eq⟩
      simp [empty] at listed
    · exact Selection.mem_scope_forKind.mpr (retainIncluded_category exact complete mem)
    · have unselected : .credentials ∉ categories := fun mem =>
        missing (Selection.mem_scope_forKind (k := .credential).mpr mem)
      simp [retainIncluded, unselected]
  · intro t mem
    obtain ⟨timed, kept⟩ := mem_retainIncluded_times.mp mem
    rcases kept with kept | dead
    · have live := ((exact t.node).mp kept).live h
      exact List.mem_append_left _ (mem_retainIncluded_live.mpr ⟨live, kept⟩)
    · exact List.mem_append_right _ dead

end

def InSource (s : PortableBundleV1) (categories : List PluginDataCategory) : Prop :=
  ∀ selected, s.selectedCategories = some selected →
    ∀ c ∈ categories, ∀ portable, c.portableCategory = some portable → portable ∈ selected

section

variable (h : s.Valid) (selection : Selection categories) (inSource : InSource s categories)
include h selection inSource

theorem project_checked {required : List PluginDataCategory}
    (run : requiredDependencyCategories s categories = .ok required) :
    projectSelectedBundle s categories =
      if required ≠ [] then .error (.operationRejected (requiredCode required))
      else projectComplete s categories := by
  have covered : ¬(s.selectedCategories.any fun selected =>
      categories.any fun category =>
        category.portableCategory.any fun portable => !selected.contains portable) = true := by
    simp only [Option.any_eq_true, List.any_eq_true, Bool.not_eq_true', not_exists, not_and]
    intro selected eq c mem portable named
    simpa using inSource selected eq c mem portable named
  rw [projectSelectedBundle, selection.validate,
    remoteChecked_eq_ok (PortableBundleV1.validate_eq_ok.mpr h), run]
  simp only [bind, Except.bind, reject, if_neg covered]
  split_ifs <;> rfl

theorem project_missing (missing : MissingDependency s categories) : ∃ code ∈ requiredCodes,
      projectSelectedBundle s categories = .error (.operationRejected code) := by
  obtain ⟨required, run, complete⟩ := requiredDependencyCategories_eq (s := s) selection
  have some : required ≠ [] := fun none => complete.mp none missing
  refine ⟨_, requiredCode_mem required, ?_⟩
  rw [project_checked h selection inSource run, if_pos some]

variable (complete : ¬MissingDependency s categories)
include complete

theorem project_complete (three : categories.length = 3) :
    projectSelectedBundle s categories = .ok (businessBundle s categories) := by
  obtain ⟨required, run, empty⟩ := requiredDependencyCategories_eq (s := s) selection
  have checked := remoteChecked_eq_ok (validateCurrentBusinessExchange_eq_ok.mpr
    ⟨businessBundle_valid h three, rfl, rfl, rfl⟩)
  rw [project_checked h selection inSource run, if_neg (not_not.mpr (empty.mpr complete)),
    projectComplete, if_pos three]
  simp only [bind, Except.bind, checked, pure, Except.pure]

theorem project_of_fewer (fewer : categories.length ≠ 3) {included : BTreeSet ObjectNode}
    (exact : ∀ n, n ∈ included ↔ Disclosed s categories n) :
    projectSelectedBundle s categories = .ok (retainIncluded s categories included) := by
  obtain ⟨required, run, empty⟩ := requiredDependencyCategories_eq (s := s) selection
  obtain ⟨found, search, found_exact⟩ := includedNodes_eq h categories
  have same : found = included := by
    ext n
    rw [found_exact, exact]
  have checked := remoteChecked_eq_ok (validateCurrentBusinessExchange_eq_ok.mpr
    ⟨retainIncluded_valid exact complete h selection, rfl, rfl, rfl⟩)
  rw [project_checked h selection inSource run, if_neg (not_not.mpr (empty.mpr complete)),
    projectComplete, if_neg fewer, search, same]
  simp only [bind, Except.bind, checked, pure, Except.pure]

end

section

variable {included : BTreeSet ObjectNode} (exact : ∀ n, n ∈ included ↔ Disclosed s categories n)
  (sub : ∀ c ∈ inner, c ∈ categories)
include sub

theorem Disclosed.mono {n : ObjectNode} (disclosed : Disclosed s inner n) :
    Disclosed s categories n := by
  obtain ⟨seed, live, kind, selected, path⟩ := disclosed
  exact ⟨seed, live, kind, sub _ selected, path⟩

theorem retainIncluded_twice {innerIncluded : BTreeSet ObjectNode}
    (smaller : ∀ n ∈ innerIncluded, n ∈ included) :
    retainIncluded (retainIncluded s categories included) inner innerIncluded =
      retainIncluded s inner innerIncluded := by
  have tombstones : (s.tombstones.filter fun t => categories.contains (categoryForKind t.kind)).filter
      (fun t => inner.contains (categoryForKind t.kind)) =
        s.tombstones.filter fun t => inner.contains (categoryForKind t.kind) := by
    rw [List.filter_filter]
    refine List.filter_congr fun t _ => ?_
    simp only [Bool.and_eq_left_iff_imp, List.contains_iff_mem]
    exact sub _
  apply PortableBundleV1.eq_of_items
  · rfl
  · rfl
  · rfl
  · intro k
    rw [retainIncluded_items, retainIncluded_items, retainIncluded_items, List.filter_filter]
    refine List.filter_congr fun v _ => ?_
    simp only [Bool.and_eq_left_iff_imp, decide_eq_true_eq]
    exact smaller _
  · rfl
  · by_cases selected : .credentials ∈ inner
    · simp [retainIncluded, selected, sub _ selected]
    · simp [retainIncluded, selected]
  · exact tombstones
  · simp only [retainIncluded, tombstones]
    rw [List.filter_filter]
    refine List.filter_congr fun t _ => ?_
    simp only [Bool.and_eq_left_iff_imp, decide_eq_true_eq, BTreeSet.mem_extend, List.mem_map,
      List.mem_filter, List.contains_iff_mem]
    rintro (kept | ⟨dead, ⟨held, selected⟩, eq⟩)
    · exact .inl (smaller _ kept)
    · exact .inr ⟨dead, ⟨held, sub _ selected⟩, eq⟩
  · rfl

include exact

theorem disclosed_retainIncluded (n : ObjectNode) :
    Disclosed (retainIncluded s categories included) inner n ↔ Disclosed s inner n := by
  constructor
  · rintro ⟨seed, live, kind, selected, path⟩
    have narrower (a b) (refers : Refers (retainIncluded s categories included) a b) :
        Refers s a b := by
      obtain ⟨v, mem, eq, named⟩ := refers
      rw [retainIncluded_items] at mem
      exact ⟨v, List.mem_of_mem_filter mem, eq, named⟩
    exact ⟨seed, (mem_retainIncluded_live.mp live).1, kind, selected,
      Relation.ReflTransGen.mono narrower _ _ path⟩
  · rintro ⟨seed, live, kind, selected, path⟩
    have kept {a : ObjectNode} (path : Relation.ReflTransGen (Refers s) seed a) : a ∈ included :=
      (exact a).mpr ⟨seed, live, kind, sub _ selected, path⟩
    refine ⟨seed, mem_retainIncluded_live.mpr ⟨live, kept .refl⟩, kind, selected, ?_⟩
    induction path with
    | refl => exact .refl
    | tail path refers ih =>
      obtain ⟨v, mem, eq, named⟩ := refers
      refine ih.tail ⟨v, ?_, eq, named⟩
      rw [retainIncluded_items, List.mem_filter, decide_eq_true_eq, PortableObjectKind.node, eq]
      exact ⟨mem, kept path⟩

end

/-- Projecting a projection to fewer categories is projecting the source to them. -/
theorem project_project (h : s.Valid) (selection : Selection categories)
    (inSource : InSource s categories) (complete : ¬MissingDependency s categories)
    (selection' : Selection inner) (sub : ∀ c ∈ inner, c ∈ categories)
    (complete' : ¬MissingDependency s inner)
    (first : projectSelectedBundle s categories = .ok p) :
    projectSelectedBundle p inner = projectSelectedBundle s inner := by
  have inSource' : InSource s inner := fun selected eq c mem => inSource selected eq c (sub c mem)
  obtain ⟨innerIncluded, -, innerExact⟩ := includedNodes_eq h inner
  by_cases three : categories.length = 3
  · have valid := businessBundle_valid h three
    have unscoped : InSource (businessBundle s categories) inner := by
      intro selected eq
      simp [businessBundle, three] at eq
    obtain rfl := Except.ok.inj ((project_complete h selection inSource complete three).symm.trans
      first)
    by_cases three' : inner.length = 3
    · rw [project_complete valid selection' unscoped complete' three',
        project_complete h selection' inSource' complete' three']
      rfl
    · rw [project_of_fewer valid selection' unscoped complete' three' innerExact,
        project_of_fewer h selection' inSource' complete' three' innerExact]
      rfl
  · obtain ⟨included, -, exact⟩ := includedNodes_eq h categories
    have valid := retainIncluded_valid exact complete h selection
    obtain rfl := Except.ok.inj
      ((project_of_fewer h selection inSource complete three exact).symm.trans first)
    have fewer : inner.length ≠ 3 := by
      have shorter := (selection'.nodup.subperm sub).length_le
      have most := selection.length_le
      omega
    have scope : InSource (retainIncluded s categories included) inner := by
      intro selected eq c mem portable named
      simp only [retainIncluded, businessBundle, ne_eq, three, not_false_iff, if_true,
        Option.some.injEq] at eq
      exact eq ▸ Selection.mem_scope.mpr ⟨c, sub c mem, named⟩
    have same := disclosed_retainIncluded exact sub
    have complete'' : ¬MissingDependency (retainIncluded s categories included) inner := by
      rintro ⟨n, disclosed, outside⟩
      exact complete' ⟨n, (same n).mp disclosed, outside⟩
    rw [project_of_fewer valid selection' scope complete'' fewer
        fun n => (innerExact n).trans (same n).symm,
      project_of_fewer h selection' inSource' complete' fewer innerExact,
      retainIncluded_twice sub fun n mem => (exact n).mpr (((innerExact n).mp mem).mono sub)]

structure Projects (s p : PortableBundleV1) (categories : List PluginDataCategory) : Prop where
  valid : p.validate = .ok ()
  schema : p.schema = .v6
  nodes : ∀ n ∈ p.allNodes, categoryForKind n.kind ∈ categories
  times : ∀ t ∈ p.updateTimes, t ∈ s.updateTimes ∧ categoryForKind t.kind ∈ categories
  skipped : p.skippedMachineBound ≠ [] →
    .credentials ∈ categories ∧ p.skippedMachineBound = s.skippedMachineBound
  seeds : ∀ k ∈ seedKinds, categoryForKind k ∈ categories → p.items k = s.items k
  tombstones : p.tombstones = s.tombstones.filter fun t => categoryForKind t.kind ∈ categories
  others : ∀ k, ∀ v ∈ p.items k, v ∈ s.items k ∧
    (categories.length < 3 → Disclosed s categories (k.node v))

theorem projects_businessBundle (h : s.Valid) (selection : Selection categories)
    (three : categories.length = 3) : Projects s (businessBundle s categories) categories := by
  have all (k : PortableObjectKind) : categoryForKind k ∈ categories :=
    selection.mem_of_length three (by cases k <;> decide)
  exact {
    valid := PortableBundleV1.validate_eq_ok.mpr (businessBundle_valid h three)
    schema := rfl
    nodes n _ := all n.kind
    times t mem := ⟨mem, all t.kind⟩
    skipped _ := ⟨all .credential, rfl⟩
    seeds _ _ _ := rfl
    tombstones := by simp [businessBundle, all]
    others k v mem := ⟨mem, fun fewer => absurd three fewer.ne⟩ }

theorem projects_retainIncluded (h : s.Valid) (selection : Selection categories)
    (complete : ¬MissingDependency s categories) {included : BTreeSet ObjectNode}
    (exact : ∀ n, n ∈ included ↔ Disclosed s categories n) :
    Projects s (retainIncluded s categories included) categories := by
  have valid := retainIncluded_valid exact complete h selection
  have inside {n : ObjectNode} (mem : n ∈ (retainIncluded s categories included).allNodes) :=
    retainIncluded_category exact complete mem
  exact {
    valid := PortableBundleV1.validate_eq_ok.mpr valid
    schema := rfl
    nodes n mem := inside mem
    times t mem := ⟨(mem_retainIncluded_times.mp mem).1, inside (valid.timePresent t mem)⟩
    skipped some := by
      by_cases selected : .credentials ∈ categories
      · exact ⟨selected, by simp [retainIncluded, selected]⟩
      · simp [retainIncluded, selected] at some
    seeds k kind selected := by
      rw [retainIncluded_items, List.filter_eq_self]
      intro v mem
      exact decide_eq_true ((exact _).mpr (.of_seed (live_of_mem mem) kind selected))
    tombstones := by simp [retainIncluded]
    others k v mem := by
      rw [retainIncluded_items, List.mem_filter, decide_eq_true_eq, exact] at mem
      exact ⟨mem.1, fun _ => mem.2⟩ }

theorem project_succeeds (h : s.Valid) (selection : Selection categories)
    (inSource : InSource s categories) (complete : ¬MissingDependency s categories) :
    ∃ p, projectSelectedBundle s categories = .ok p ∧ Projects s p categories := by
  by_cases three : categories.length = 3
  · exact ⟨_, project_complete h selection inSource complete three,
      projects_businessBundle h selection three⟩
  · obtain ⟨included, -, exact⟩ := includedNodes_eq h categories
    exact ⟨_, project_of_fewer h selection inSource complete three exact,
      projects_retainIncluded h selection complete exact⟩

/-- A projection refuses exactly when a selected object leads to an unselected
category; otherwise it shows the selected categories and nothing else, and
projections to fewer and fewer categories compose. -/
theorem projectSelectedBundle_discloses (valid : s.validate = .ok ())
    (selection : Selection categories) (inSource : InSource s categories) :
    (MissingDependency s categories → ∃ code ∈ requiredCodes,
      projectSelectedBundle s categories = .error (.operationRejected code)) ∧
    (¬MissingDependency s categories → ∃ p,
      projectSelectedBundle s categories = .ok p ∧ Projects s p categories) ∧
    ∀ inner p q, Selection inner → (∀ c ∈ inner, c ∈ categories) →
      projectSelectedBundle s categories = .ok p → projectSelectedBundle s inner = .ok q →
      projectSelectedBundle p inner = .ok q := by
  have h := PortableBundleV1.validate_eq_ok.mp valid
  refine ⟨project_missing h selection inSource, fun complete => ?_, ?_⟩
  · exact project_succeeds h selection inSource complete
  · intro inner p q selection' sub first second
    have inSource' : InSource s inner :=
      fun selected eq c mem => inSource selected eq c (sub c mem)
    -- A run that succeeds had no missing category.
    have complete : ¬MissingDependency s categories := by
      intro missing
      obtain ⟨code, -, refused⟩ := project_missing h selection inSource missing
      cases refused.symm.trans first
    have complete' : ¬MissingDependency s inner := by
      intro missing
      obtain ⟨code, -, refused⟩ := project_missing h selection' inSource' missing
      cases refused.symm.trans second
    rw [project_project h selection inSource complete selection' sub complete' first, second]

def desktopAccount : PortableBundleV1 where
  schema := .v6
  selectedCategories := none
  revision := 1
  objects := {
    desktopProfiles := [⟨4, "desk", .rdp, "desk.example", 3389, "user", "", none, none, some 2, 1024,
      768, false, false, .auto, .server, .auto, .auto, .fixed⟩]
    identities := [⟨1, "account", none, [2]⟩]
    credentials := [⟨2, 1, "password", .password 3⟩] }
  preferences := none
  secrets := [⟨3, .password, true, ⟨[120], by decide, by decide⟩⟩]
  skippedMachineBound := []
  tombstones := [⟨.host, 9⟩]
  updateTimes := [⟨.secret, 3, 7⟩, ⟨.host, 9, 8⟩]
  preferenceUpdateTimes := .empty

theorem projectSelectedBundle_discloses_desktopAccount :
    (∃ code ∈ requiredCodes, projectSelectedBundle desktopAccount [.desktopProfiles] =
      .error (.operationRejected code)) ∧
    ∃ p q, projectSelectedBundle desktopAccount [.desktopProfiles, .credentials] = .ok p ∧
      projectSelectedBundle desktopAccount [.credentials] = .ok q ∧
      projectSelectedBundle p [.credentials] = .ok q := by
  have valid : desktopAccount.validate = .ok () := by decide +kernel
  have unscoped (categories : List PluginDataCategory) : InSource desktopAccount categories := by
    intro selected eq
    cases eq
  have missing : MissingDependency desktopAccount [.desktopProfiles] :=
    needsMore_iff.mp (by decide +kernel)
  have both : projectSelectedBundle desktopAccount [.desktopProfiles, .credentials] =
      .ok { desktopAccount with
        selectedCategories := some [.credentials, .desktopProfiles]
        tombstones := []
        updateTimes := [⟨.secret, 3, 7⟩] } := by
    decide +kernel
  have account : projectSelectedBundle desktopAccount [.credentials] = .ok { desktopAccount with
        selectedCategories := some [.credentials]
        objects := { desktopAccount.objects with desktopProfiles := [] }
        tombstones := []
        updateTimes := [⟨.secret, 3, 7⟩] } := by
    decide +kernel
  refine ⟨(projectSelectedBundle_discloses valid ⟨by decide, by decide, by decide⟩
    (unscoped _)).1 missing, _, _, both, account, ?_⟩
  exact (projectSelectedBundle_discloses valid ⟨by decide, by decide, by decide⟩ (unscoped _)).2.2
    [.credentials] _ _ ⟨by decide, by decide, by decide⟩ (by decide) both account

section

variable {required more : List PluginDataCategory}

end

end NoriShell.Exchange

import NoriShell.Sftp.RemotePath

namespace NoriShell.Sftp

open Collections

def render (components : List (List UInt8)) : List UInt8 := components.flatMap (slash :: ·)

def SlashFree (components : List (List UInt8)) : Prop := ∀ component ∈ components, slash ∉ component

def components (bytes : List UInt8) : List (List UInt8) := bytes.tail.splitOn slash

def Comparable {α : Type} (xs ys : List α) : Prop := xs <+: ys ∨ ys <+: xs

@[simp] theorem render_nil : render [] = [] := rfl

@[simp] theorem render_cons (c : List UInt8) (cs : List (List UInt8)) :
    render (c :: cs) = slash :: (c ++ render cs) := rfl

theorem render_append (cs ds : List (List UInt8)) : render (cs ++ ds) = render cs ++ render ds :=
  List.flatMap_append

theorem head?_render {cs : List (List UInt8)} : (render cs).head?.all (· = slash) = true := by
  cases cs with
  | nil => rfl
  | cons c cs => simp

theorem component_unique {c d s t : List UInt8} (c_free : slash ∉ c) (d_free : slash ∉ d)
    (s_head : s.head?.all (· = slash) = true) (t_head : t.head?.all (· = slash) = true)
    (same : c ++ s = d ++ t) : c = d ∧ s = t := by
  have split {c s : List UInt8} (free : slash ∉ c) (head : s.head?.all (· = slash) = true) :
      (c ++ s).takeWhile (· ≠ slash) = c := by
    have plain : ∀ b ∈ c, decide (b ≠ slash) = true := fun b member =>
      decide_eq_true fun same => free (same ▸ member)
    rw [List.takeWhile_append_of_pos plain]
    cases s with
    | nil => simp
    | cons b s =>
      have slash : b = slash := by simpa using head
      simp [slash]
  have first : c = d := by rw [← split c_free s_head, same, split d_free t_head]
  subst first
  exact ⟨rfl, List.append_cancel_left same⟩

theorem prefix_iff_render {cs ds : List (List UInt8)} (cs_free : SlashFree cs)
    (ds_free : SlashFree ds) :
    cs <+: ds ↔ ∃ rest, render ds = render cs ++ rest ∧ rest.head?.all (· = slash) = true := by
  constructor
  · rintro ⟨es, rfl⟩
    exact ⟨render es, render_append cs es, head?_render⟩
  · rintro ⟨rest, same, head⟩
    induction cs generalizing ds with
    | nil => exact List.nil_prefix
    | cons c cs ih =>
      cases ds with
      | nil => cases same
      | cons d ds =>
        rw [render_cons, render_cons, List.cons_append, List.append_assoc] at same
        have tail : (render cs ++ rest).head?.all (· = slash) = true := by
          cases cs with
          | nil => exact head
          | cons c cs => simp
        obtain ⟨rfl, rests⟩ := component_unique (ds_free d List.mem_cons_self)
          (cs_free c List.mem_cons_self) head?_render tail (List.cons.inj same).2
        rw [List.prefix_cons_inj]
        exact ih (fun c member => cs_free c (List.mem_cons_of_mem _ member))
          (fun d member => ds_free d (List.mem_cons_of_mem _ member)) rests

theorem render_components {bytes : List UInt8} (absolute : bytes.head? = some slash) :
    render (components bytes) = bytes := by
  obtain ⟨rest, rfl⟩ := List.head?_eq_some_iff.1 absolute
  have joined (parts : List (List UInt8)) (nonempty : parts ≠ []) :
      render parts = slash :: [slash].intercalate parts := by
    induction parts with
    | nil => exact absurd rfl nonempty
    | cons part parts ih =>
      cases parts with
      | nil => simp
      | cons next parts =>
        rw [render_cons, ih (by simp), List.intercalate_cons_cons]
        simp
  rw [components, List.tail_cons, joined _ (List.splitOn_ne_nil _ _), List.intercalate_splitOn]

theorem slashFree_components (bytes : List UInt8) : SlashFree (components bytes) := by
  rw [components]
  induction bytes.tail with
  | nil =>
    intro c member
    rw [List.mem_singleton.1 member]
    exact List.not_mem_nil
  | cons b rest ih =>
    intro c member
    rw [List.splitOn_eq_splitOnP, List.splitOnP_cons_eq_if_modifyHead] at member
    rw [List.splitOn_eq_splitOnP] at ih
    split at member
    · rcases List.mem_cons.1 member with rfl | member
      · exact List.not_mem_nil
      · exact ih c member
    · next other =>
      cases parts : rest.splitOnP (· == slash) with
      | nil => simp [parts] at member
      | cons first parts' =>
        rw [parts] at ih member
        rw [List.modifyHead_cons, List.mem_cons] at member
        rcases member with rfl | member
        · intro slashed
          rcases List.mem_cons.1 slashed with same | slashed
          · exact other (by simp [same])
          · exact ih first List.mem_cons_self slashed
        · exact ih c (List.mem_cons_of_mem _ member)

theorem render_injective {cs ds : List (List UInt8)} (cs_free : SlashFree cs)
    (ds_free : SlashFree ds) (same : render cs = render ds) : cs = ds := by
  have first : cs <+: ds := (prefix_iff_render cs_free ds_free).2 ⟨[], by simp [same], rfl⟩
  have second : ds <+: cs := (prefix_iff_render ds_free cs_free).2 ⟨[], by simp [same], rfl⟩
  exact first.eq_of_length_le second.length_le

theorem components_render {cs : List (List UInt8)} (free : SlashFree cs) (nonempty : cs ≠ []) :
    components (render cs) = cs := by
  refine render_injective (slashFree_components _) free (render_components ?_)
  obtain ⟨c, cs, rfl⟩ := List.exists_cons_of_ne_nil nonempty
  rfl

def spelled (bytes : List UInt8) : List (List UInt8) :=
  if withoutTrailingSlash bytes = [slash] then [] else components (withoutTrailingSlash bytes)

section

variable {bytes path ancestor : List UInt8}

theorem absolute_withoutTrailingSlash (absolute : bytes.head? = some slash) :
    (withoutTrailingSlash bytes).head? = some slash := by
  unfold withoutTrailingSlash
  split
  · next long =>
    obtain ⟨rest, rfl⟩ := List.head?_eq_some_iff.1 absolute
    cases rest with
    | nil => simp at long
    | cons b rest => rfl
  · exact absolute

theorem render_spelled (absolute : bytes.head? = some slash) (deep : spelled bytes ≠ []) :
    render (spelled bytes) = withoutTrailingSlash bytes := by
  unfold spelled at deep ⊢
  split
  · next root => exact absurd (if_pos root) deep
  · exact render_components (absolute_withoutTrailingSlash absolute)

theorem slashFree_spelled (bytes : List UInt8) : SlashFree (spelled bytes) := by
  unfold spelled
  split
  · exact fun c member => by cases member
  · exact slashFree_components _

/-- What the components of a path have beyond its spelling. -/
theorem components_cases (absolute : bytes.head? = some slash) :
    components bytes = spelled bytes ∨ components bytes = spelled bytes ++ [[]] ∨
      (spelled bytes = [] ∧ ∀ c ∈ components bytes, c = []) := by
  by_cases trailing : 1 < bytes.length ∧ bytes.getLast? = some slash
  · have split : bytes = withoutTrailingSlash bytes ++ [slash] := by
      rw [withoutTrailingSlash, if_pos trailing]
      exact (List.dropLast_append_getLast? slash trailing.2).symm
    by_cases root : withoutTrailingSlash bytes = [slash]
    · refine .inr (.inr ⟨if_pos root, ?_⟩)
      rw [root] at split
      rw [split]
      decide
    · refine .inr (.inl ?_)
      rw [spelled, if_neg root]
      refine render_injective (slashFree_components _) ?_ ?_
      · intro c member
        rcases List.mem_append.1 member with member | member
        · exact slashFree_components _ c member
        · rw [List.mem_singleton.1 member]
          exact List.not_mem_nil
      · rw [render_components absolute, render_append,
          render_components (absolute_withoutTrailingSlash absolute)]
        exact split
  · have same : withoutTrailingSlash bytes = bytes := if_neg trailing
    by_cases root : bytes = [slash]
    · refine .inr (.inr ⟨if_pos (same.trans root), ?_⟩)
      rw [root]
      decide
    · exact .inl (by rw [spelled, same, if_neg root])

theorem containsPath_iff (ancestor_absolute : ancestor.head? = some slash)
    (path_absolute : path.head? = some slash) :
    containsPath ancestor path = true ↔ spelled ancestor <+: components path := by
  rw [containsPath, decide_eq_true_eq]
  by_cases root : withoutTrailingSlash ancestor = [slash]
  · obtain ⟨rest, rfl⟩ := List.head?_eq_some_iff.1 path_absolute
    rw [spelled, if_pos root, root]
    exact iff_of_true (.inr ⟨⟨rest, rfl⟩, .inl rfl⟩) List.nil_prefix
  · rw [spelled, if_neg root, prefix_iff_render (slashFree_components _) (slashFree_components _),
      render_components path_absolute,
      render_components (absolute_withoutTrailingSlash ancestor_absolute)]
    constructor
    · rintro (rfl | ⟨⟨rest, rfl⟩, impossible | next⟩)
      · exact ⟨[], by simp, rfl⟩
      · exact absurd impossible root
      · refine ⟨rest, rfl, ?_⟩
        rw [List.getElem?_append_right (Nat.le_refl _), Nat.sub_self] at next
        rw [List.head?_eq_getElem?, next]
        simp
    · rintro ⟨rest, rfl, head⟩
      cases rest with
      | nil => exact .inl (List.append_nil _)
      | cons b rest =>
        have next : b = slash := by simpa using head
        refine .inr ⟨List.prefix_append _ _, .inr ?_⟩
        rw [List.getElem?_append_right (Nat.le_refl _), Nat.sub_self, next]
        rfl

end

theorem overlap_iff_spelled {left right : List UInt8} (left_absolute : left.head? = some slash)
    (right_absolute : right.head? = some slash) :
    remotePathsOverlap left right = true ↔ Comparable (spelled left) (spelled right) := by
  have half {a b : List UInt8} (b_absolute : b.head? = some slash)
      (starts : spelled a <+: components b) : Comparable (spelled a) (spelled b) := by
    rcases components_cases b_absolute with same | same | ⟨root, -⟩
    · exact .inl (same ▸ starts)
    · rw [same, List.prefix_concat_iff] at starts
      rcases starts with all | starts
      · exact .inr ⟨[[]], all.symm⟩
      · exact .inl starts
    · exact .inr (root ▸ List.nil_prefix)
  have whole {a b : List UInt8} (b_absolute : b.head? = some slash)
      (starts : spelled a <+: spelled b) : spelled a <+: components b := by
    rcases components_cases b_absolute with same | same | ⟨root, -⟩
    · exact same ▸ starts
    · exact same ▸ starts.trans (List.prefix_append _ _)
    · rw [root, List.prefix_nil] at starts
      exact starts ▸ List.nil_prefix
  rw [remotePathsOverlap, Bool.or_eq_true, containsPath_iff left_absolute right_absolute,
    containsPath_iff right_absolute left_absolute]
  constructor
  · rintro (starts | starts)
    · exact half right_absolute starts
    · exact (half left_absolute starts).symm
  · rintro (starts | starts)
    · exact .inl (whole right_absolute starts)
    · exact .inr (whole left_absolute starts)

/-- An empty component or a single dot, which names the directory it stands in. -/
def Redundant (component : List UInt8) : Prop := component = [] ∨ component = [dot]

instance : DecidablePred Redundant := fun _ => inferInstanceAs (Decidable (_ ∨ _))

namespace RemotePath

variable {p q : RemotePath}

def denoted (p : RemotePath) : List (List UInt8) :=
  (components p.bytes).filter (¬ Redundant ·)

/-- A path spelled without redundant components, one trailing slash apart. -/
def Plain (p : RemotePath) : Prop := ∀ c ∈ spelled p.bytes, ¬ Redundant c

instance : DecidablePred Plain := fun p =>
  inferInstanceAs (Decidable (∀ c ∈ spelled p.bytes, ¬ Redundant c))

theorem denoted_eq_filter_spelled (p : RemotePath) :
    p.denoted = (spelled p.bytes).filter (¬ Redundant ·) := by
  rw [denoted]
  rcases components_cases p.isRemotePath.absolute with same | same | ⟨root, empty⟩
  · rw [same]
  · rw [same, List.filter_append]
    exact List.append_nil _
  · rw [root, List.filter_nil, List.filter_eq_nil_iff]
    intro c member
    simp [Redundant, empty c member]

theorem Plain.denoted_eq (plain : p.Plain) : p.denoted = spelled p.bytes := by
  rw [denoted_eq_filter_spelled, List.filter_eq_self]
  intro c member
  exact decide_eq_true (plain c member)

theorem overlap_iff (p q : RemotePath) :
    remotePathsOverlap p.bytes q.bytes = true ↔ Comparable (spelled p.bytes) (spelled q.bytes) :=
  overlap_iff_spelled p.isRemotePath.absolute q.isRemotePath.absolute

theorem comparable_of_overlap (overlap : remotePathsOverlap p.bytes q.bytes = true) :
    Comparable p.denoted q.denoted := by
  rw [denoted_eq_filter_spelled, denoted_eq_filter_spelled]
  rcases (overlap_iff p q).1 overlap with starts | starts
  · exact .inl (starts.filter _)
  · exact .inr (starts.filter _)

theorem Plain.overlap_iff_denoted (p_plain : p.Plain) (q_plain : q.Plain) :
    remotePathsOverlap p.bytes q.bytes = true ↔ Comparable p.denoted q.denoted := by
  rw [overlap_iff, p_plain.denoted_eq, q_plain.denoted_eq]

theorem length_render_spelled_le (p : RemotePath) :
    (render (spelled p.bytes)).length ≤ p.bytes.length := by
  by_cases deep : spelled p.bytes = []
  · simp [deep]
  · rw [render_spelled p.isRemotePath.absolute deep, withoutTrailingSlash]
    split
    · exact p.bytes.length_dropLast ▸ Nat.sub_le _ _
    · exact Nat.le_refl _

theorem room_of_redundant {before after : List (List UInt8)} {r : List UInt8}
    (split : spelled p.bytes = before ++ r :: after) (redundant : Redundant r) :
    (render before).length + 2 ≤ p.bytes.length := by
  have deep : spelled p.bytes ≠ [] := by simp [split]
  have shorter := p.length_render_spelled_le
  rw [split, render_append, List.length_append, render_cons] at shorter
  rcases redundant with rfl | rfl
  · cases after with
    | cons c after =>
      simp at shorter
      omega
    | nil =>
      have rendered := render_spelled p.isRemotePath.absolute deep
      rw [split, render_append, withoutTrailingSlash] at rendered
      have last : (render before ++ render [[]]).getLast? = some slash := by simp
      split at rendered
      · have length := congrArg List.length rendered
        simp at length
        omega
      · next kept =>
        have long : p.bytes.length ≤ 1 := by
          by_contra long
          exact kept ⟨Nat.lt_of_not_le long, rendered ▸ last⟩
        have length := congrArg List.length rendered
        simp at length
        have root : p.bytes = [slash] := by
          obtain ⟨rest, same⟩ := List.head?_eq_some_iff.1 p.isRemotePath.absolute
          have empty : rest = [] := by simpa [same] using long
          rw [same, empty]
        rw [root] at deep
        exact absurd rfl deep
  · simp at shorter
    omega

theorem isRemotePath_render {cs : List (List UInt8)} (deep : cs ≠ [])
    (short : (render cs).length ≤ maxRemotePathBytes) (noNul : ∀ c ∈ cs, 0 ∉ c) :
    IsRemotePath (render cs) where
  absolute := by
    obtain ⟨c, cs, rfl⟩ := List.exists_cons_of_ne_nil deep
    rfl
  short := short
  noNul := by
    intro nul
    obtain ⟨c, member, inside⟩ := List.mem_flatMap.1 nul
    rcases List.mem_cons.1 inside with impossible | inside
    · exact absurd impossible (by decide)
    · exact noNul c member inside

theorem spelled_render {cs : List (List UInt8)} {c : List UInt8}
    (free : SlashFree (cs ++ [c])) (nonempty : c ≠ []) :
    spelled (render (cs ++ [c])) = cs ++ [c] := by
  have last : (render (cs ++ [c])).getLast? ≠ some slash := by
    have end_free : slash ∉ c := free c (List.mem_append_right _ List.mem_cons_self)
    rw [render_append, render_cons, render_nil, List.append_nil, List.getLast?_append_of_ne_nil _
      (List.cons_ne_nil _ _), List.getLast?_cons_of_ne_nil nonempty]
    intro same
    exact end_free (List.mem_of_getLast? same)
  have kept : withoutTrailingSlash (render (cs ++ [c])) = render (cs ++ [c]) :=
    if_neg fun trailing => last trailing.2
  have deep : render (cs ++ [c]) ≠ [slash] := fun root => last (by rw [root]; rfl)
  rw [spelled, kept, if_neg deep]
  exact components_render free (by simp)

theorem noNul_of_mem_spelled {c : List UInt8} (member : c ∈ spelled p.bytes) : 0 ∉ c := by
  intro nul
  have deep : spelled p.bytes ≠ [] := List.ne_nil_of_mem member
  have rendered : 0 ∈ render (spelled p.bytes) :=
    List.mem_flatMap.2 ⟨c, member, List.mem_cons_of_mem _ nul⟩
  rw [render_spelled p.isRemotePath.absolute deep, withoutTrailingSlash] at rendered
  split at rendered
  · exact p.isRemotePath.noNul (List.mem_of_mem_dropLast rendered)
  · exact p.isRemotePath.noNul rendered

theorem exists_first_redundant (odd : ¬ p.Plain) :
    ∃ before r after, spelled p.bytes = before ++ r :: after ∧ Redundant r ∧
      ∀ c ∈ before, ¬ Redundant c := by
  have split := List.takeWhile_append_dropWhile (p := (¬ Redundant ·)) (l := spelled p.bytes)
  have plain : ∀ c ∈ (spelled p.bytes).takeWhile (¬ Redundant ·), ¬ Redundant c := by
    intro c member
    simpa using List.mem_takeWhile_imp member
  cases rest : (spelled p.bytes).dropWhile (¬ Redundant ·) with
  | nil =>
    rw [rest, List.append_nil] at split
    rw [split] at plain
    exact absurd plain odd
  | cons r after =>
    have stopped := List.head?_dropWhile_not (¬ Redundant ·) (spelled p.bytes)
    rw [rest, List.head?_cons] at stopped
    refine ⟨_, r, after, (rest ▸ split).symm, ?_, plain⟩
    simpa using stopped

theorem exists_replaced {before after : List (List UInt8)} {r x : List UInt8}
    (split : spelled p.bytes = before ++ r :: after) (redundant : Redundant r)
    (plain : ∀ c ∈ before, ¬ Redundant c) (x_plain : ¬ Redundant x) (free : slash ∉ x)
    (noNul : 0 ∉ x) (short : (render (before ++ [x])).length ≤ p.bytes.length) :
    ∃ q : RemotePath, q.Plain ∧ q.denoted = before ++ [x] ∧
      remotePathsOverlap p.bytes q.bytes = false := by
  have here {c : List UInt8} (member : c ∈ before) : c ∈ spelled p.bytes :=
    split ▸ List.mem_append_left _ member
  have all_free : SlashFree (before ++ [x]) := by
    intro c member
    rcases List.mem_append.1 member with member | member
    · exact slashFree_spelled _ c (here member)
    · exact List.mem_singleton.1 member ▸ free
  have all_noNul : ∀ c ∈ before ++ [x], 0 ∉ c := by
    intro c member
    rcases List.mem_append.1 member with member | member
    · exact noNul_of_mem_spelled (here member)
    · exact List.mem_singleton.1 member ▸ noNul
  let q : RemotePath := ⟨render (before ++ [x]), isRemotePath_render (by simp)
    (short.trans p.isRemotePath.short) all_noNul⟩
  have spelling : spelled q.bytes = before ++ [x] :=
    spelled_render all_free fun empty => x_plain (.inl empty)
  have q_plain : q.Plain := by
    intro c member
    rw [spelling] at member
    rcases List.mem_append.1 member with member | member
    · exact plain c member
    · exact List.mem_singleton.1 member ▸ x_plain
  refine ⟨q, q_plain, q_plain.denoted_eq.trans spelling, ?_⟩
  rw [← Bool.not_eq_true, overlap_iff, split, spelling]
  have other : r ≠ x := fun same => x_plain (same ▸ redundant)
  rintro (starts | starts)
  · rw [List.prefix_append_right_inj, List.cons_prefix_cons] at starts
    exact other starts.1
  · rw [List.prefix_append_right_inj, List.cons_prefix_cons] at starts
    exact other starts.1.symm

theorem length_render_le_of_sublist {cs ds : List (List UInt8)} (sublist : cs.Sublist ds) :
    (render cs).length ≤ (render ds).length :=
  (sublist.flatMap _).length_le

/-- A path with a redundant component misses a plain path to, or below, its own place. -/
theorem exists_missed (odd : ¬ p.Plain) :
    ∃ q : RemotePath, q.Plain ∧ Comparable p.denoted q.denoted ∧
      remotePathsOverlap p.bytes q.bytes = false := by
  obtain ⟨before, r, after, split, redundant, plain⟩ := exists_first_redundant odd
  have denoted_eq : p.denoted = before ++ after.filter (¬ Redundant ·) := by
    rw [denoted_eq_filter_spelled, split, List.filter_append,
      List.filter_cons_of_neg (by simpa using redundant),
      List.filter_eq_self.2 fun c member => decide_eq_true (plain c member)]
  cases rest : after.filter (¬ Redundant ·) with
  | nil =>
    have room := room_of_redundant split redundant
    obtain ⟨q, q_plain, place, apart⟩ := exists_replaced (x := [99]) split redundant plain
      (by decide) (by decide) (by decide) (by simpa [render_append] using room)
    refine ⟨q, q_plain, .inl ?_, apart⟩
    rw [denoted_eq, rest, List.append_nil, place]
    exact List.prefix_append _ _
  | cons x xs =>
    have found : x ∈ after.filter (¬ Redundant ·) := rest ▸ List.mem_cons_self
    have member : x ∈ spelled p.bytes := by
      rw [split]
      exact List.mem_append_right _ (List.mem_cons_of_mem _ (List.mem_of_mem_filter found))
    have sublist : (before ++ [x]).Sublist (spelled p.bytes) := by
      rw [split]
      refine List.Sublist.append_left (.cons _ ?_) before
      exact List.singleton_sublist.2 (List.mem_of_mem_filter found)
    obtain ⟨q, q_plain, place, apart⟩ := exists_replaced split redundant plain
      (of_decide_eq_true (List.mem_filter.1 found).2) (slashFree_spelled _ x member)
      (noNul_of_mem_spelled member)
      ((length_render_le_of_sublist sublist).trans p.length_render_spelled_le)
    refine ⟨q, q_plain, .inr ?_, apart⟩
    rw [denoted_eq, rest, place]
    exact ⟨xs, by simp⟩

end RemotePath

theorem touches_iff {touched busyPaths : List RemotePath} (touched_plain : ∀ t ∈ touched, t.Plain)
    (busy_plain : ∀ b ∈ busyPaths, b.Plain) :
    (touched.any fun t => busyPaths.any fun b => remotePathsOverlap t.bytes b.bytes) = true ↔
      ∃ t ∈ touched, ∃ b ∈ busyPaths, Comparable t.denoted b.denoted := by
  simp only [List.any_eq_true]
  constructor
  · rintro ⟨t, t_member, b, b_member, overlap⟩
    exact ⟨t, t_member, b, b_member, RemotePath.comparable_of_overlap overlap⟩
  · rintro ⟨t, t_member, b, b_member, nested⟩
    exact ⟨t, t_member, b, b_member, ((touched_plain t t_member).overlap_iff_denoted
      (busy_plain b b_member)).2 nested⟩

/-- A path misses no nested plain path exactly if it is plain itself; between plain paths the
overlap test finds exactly the nested places, so that a transfer's paths stay its own. -/
theorem remotePathsOverlap_sound_iff (p : RemotePath) (plan : FileMutationPlan)
    (written busyPaths : List RemotePath) :
    ((∀ q : RemotePath, q.Plain → Comparable p.denoted q.denoted →
      remotePathsOverlap p.bytes q.bytes = true) ↔ p.Plain) ∧
    (∀ q : RemotePath, p.Plain → q.Plain →
      (remotePathsOverlap p.bytes q.bytes = true ↔ Comparable p.denoted q.denoted)) ∧
    ((∀ t ∈ plan.touchedPaths, t.Plain) → (∀ b ∈ busyPaths, b.Plain) →
      (admitMutation plan (.lent busyPaths) = .ok () ↔
        ∀ t ∈ plan.touchedPaths, ∀ b ∈ busyPaths, ¬ Comparable t.denoted b.denoted)) ∧
    ((∀ t ∈ written, t.Plain) → (∀ b ∈ busyPaths, b.Plain) →
      (sharedChannelForWrite written (.lent busyPaths) = .ok () ↔
        ∀ t ∈ written, ∀ b ∈ busyPaths, ¬ Comparable t.denoted b.denoted)) := by
  refine ⟨?_, fun q p_plain q_plain => p_plain.overlap_iff_denoted q_plain, ?_, ?_⟩
  · constructor
    · intro sound
      by_contra odd
      obtain ⟨q, q_plain, nested, apart⟩ := RemotePath.exists_missed odd
      exact Bool.false_ne_true (apart.symm.trans (sound q q_plain nested))
    · intro p_plain q q_plain nested
      exact (p_plain.overlap_iff_denoted q_plain).2 nested
  · intro touched_plain busy_plain
    rw [admitMutation, Check.reject_eq_ok, mutationTouchesBusyPaths,
      touches_iff touched_plain busy_plain]
    push Not
    rfl
  · intro written_plain busy_plain
    rw [sharedChannelForWrite, Check.reject_eq_ok, touches_iff written_plain busy_plain]
    push Not
    rfl

/-- The directory `/srv`, and a file in it under its plain spelling and another one. -/
def served : RemotePath := ⟨[47, 115, 114, 118], by decide⟩
def servedFile : RemotePath := ⟨[47, 115, 114, 118, 47, 97], by decide⟩
def servedFileAgain : RemotePath := ⟨[47, 115, 114, 118, 47, 47, 46, 47, 97], by decide⟩

theorem remotePathsOverlap_sound_iff_served :
    remotePathsOverlap served.bytes servedFile.bytes = true ∧
      admitMutation (.deleteConfirmed served) (.lent [servedFile]) ≠ .ok () :=
  have sound := remotePathsOverlap_sound_iff served (.deleteConfirmed served) [] [servedFile]
  ⟨(sound.2.1 servedFile (by decide) (by decide)).2 (.inl ⟨[[97]], by decide⟩),
    fun admitted => (sound.2.2.1 (by decide) (by decide)).1 admitted
      served List.mem_cons_self servedFile List.mem_cons_self (.inl ⟨[[97]], by decide⟩)⟩

/-- Under another spelling the file of a running transfer is deleted, and written directly. -/
theorem busy_file_touched_again : servedFileAgain.denoted = servedFile.denoted ∧
      remotePathsOverlap servedFileAgain.bytes servedFile.bytes = false ∧
      admitMutation (.deleteConfirmed servedFileAgain) (.lent [servedFile]) = .ok () ∧
      sharedChannelForWrite [servedFileAgain] (.lent [servedFile]) = .ok () := by
  decide

end NoriShell.Sftp

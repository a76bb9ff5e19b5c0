import NoriShell.Exchange.Compose

namespace NoriShell.Exchange

open Collections Sync

theorem digitChar_injective (a b : Fin 16) (h : Nat.digitChar a = Nat.digitChar b) : a = b := by
  revert a b
  decide

theorem hexDigits_injective {width a b : Nat} (ha : a < 16 ^ width) (hb : b < 16 ^ width)
    (h : hexDigits width a = hexDigits width b) : a = b := by
  induction width generalizing a b with
  | zero => omega
  | succ width ih =>
    obtain ⟨high, low⟩ := List.append_inj' h rfl
    rw [Nat.pow_succ] at ha hb
    have upper := ih (Nat.div_lt_of_lt_mul (by omega)) (Nat.div_lt_of_lt_mul (by omega)) high
    have lower := digitChar_injective ⟨a % 16, Nat.mod_lt _ (by decide)⟩
      ⟨b % 16, Nat.mod_lt _ (by decide)⟩ (List.cons.inj low).1
    rw [Fin.mk.injEq] at lower
    omega

theorem hexDigits_plain {width value : Nat} {c : Char} (mem : c ∈ hexDigits width value) :
    c ≠ '-' ∧ c ≠ '\x00' := by
  induction width generalizing value with
  | zero => simp [hexDigits] at mem
  | succ width ih =>
    rcases List.mem_append.mp mem with mem | mem
    · exact ih mem
    · have plain : ∀ d : Fin 16, Nat.digitChar d ≠ '-' ∧ Nat.digitChar d ≠ '\x00' := by decide
      rw [List.mem_singleton.mp mem]
      exact plain ⟨value % 16, Nat.mod_lt _ (by decide)⟩

theorem filter_hyphenate (widths : List Nat) {digits : List Char}
    (plain : ∀ c ∈ digits, c ≠ '-') : (hyphenate widths digits).filter (· ≠ '-') = digits := by
  induction widths generalizing digits with
  | nil => simpa [hyphenate] using plain
  | cons width widths ih =>
    have first : (digits.take width).filter (· ≠ '-') = digits.take width := by
      rw [List.filter_eq_self]
      exact fun c mem => decide_eq_true (plain c (List.mem_of_mem_take mem))
    have rest : (hyphenate widths (digits.drop width)).filter (· ≠ '-') = digits.drop width :=
      ih fun c mem => plain c (List.mem_of_mem_drop mem)
    rw [hyphenate, List.filter_append, first, List.filter_cons_of_neg (by simp), rest,
      List.take_append_drop]

theorem mem_hyphenate {widths : List Nat} {digits : List Char} {c : Char}
    (mem : c ∈ hyphenate widths digits) : c = '-' ∨ c ∈ digits := by
  induction widths generalizing digits with
  | nil => exact .inr mem
  | cons width widths ih =>
    rcases List.mem_append.mp mem with mem | mem
    · exact .inr (List.mem_of_mem_take mem)
    · rcases List.mem_cons.mp mem with hyphen | mem
      · exact .inl hyphen
      · exact (ih mem).imp_right List.mem_of_mem_drop

theorem uuidText_plain (id : PortableObjectId) : '\x00' ∉ uuidText id := by
  intro mem
  rcases mem_hyphenate mem with hyphen | digit
  · simp at hyphen
  · exact (hexDigits_plain digit).2 rfl

theorem uuidText_injective : Function.Injective uuidText := by
  intro a b h
  have digits := congrArg (List.filter (· ≠ '-')) h
  rw [uuidText, uuidText, filter_hyphenate _ fun c mem => (hexDigits_plain mem).1,
    filter_hyphenate _ fun c mem => (hexDigits_plain mem).1] at digits
  exact Fin.ext (hexDigits_injective a.isLt b.isLt digits)

theorem kindName_injective : Function.Injective kindName := by
  intro a b h
  cases a <;> cases b <;> first | rfl | simp [kindName] at h

theorem kindName_plain (k : PortableObjectKind) : '\x00' ∉ (kindName k).toList := by
  cases k <;> decide

theorem handleMaterial_injective : Function.Injective handleMaterial := by
  rintro ⟨k, id⟩ ⟨k', id'⟩ h
  have text := String.ofList_injective h
  rw [List.append_assoc, List.append_assoc] at text
  have tail : (kindName k).toList ++ '\x00' :: uuidText id =
      (kindName k').toList ++ '\x00' :: uuidText id' :=
    (List.cons.inj (List.append_cancel_left text)).2
  obtain ⟨kinds, -, ids⟩ :=
    (List.append_cons_inj_of_notMem (kindName_plain k) (uuidText_plain id)).mp tail
  rw [kindName_injective (String.toList_injective kinds), uuidText_injective ids]

section

variable {handles : BTreeMap String ObjectNode}

theorem chooseObject_eq_ok {choices choices' : BTreeMap ObjectNode DataObjectSource}
    {decision : DataObjectDecision} :
    chooseObject handles choices decision = .ok choices' ↔
      ∃ key, handles.get? decision.objectHandle = some key ∧ choices.get? key = none ∧
        choices.insert key decision.source = choices' := by
  unfold chooseObject
  cases handles.get? decision.objectHandle with
  | none => simp
  | some key =>
    cases seen : choices.get? key with
    | none => simp [BTreeMap.contains, seen]
    | some source => simp [BTreeMap.contains, seen]

def Stands (handles : BTreeMap String ObjectNode) (entry : ObjectNode × DataObjectSource)
    (decision : DataObjectDecision) : Prop :=
  handles.get? decision.objectHandle = some entry.1 ∧ decision.source = entry.2

theorem collect_eq_ok {decisions : List DataObjectDecision}
    {acc choices : BTreeMap ObjectNode DataObjectSource} :
    decisions.foldlM (chooseObject handles) acc = .ok choices ↔
      ∃ entries, List.Forall₂ (Stands handles) entries decisions ∧
        (entries.map Prod.fst).Nodup ∧ (∀ e ∈ entries, acc.get? e.1 = none) ∧
        acc.extend entries = choices := by
  induction decisions generalizing acc with
  | nil =>
    simp only [List.foldlM_nil, pure, Except.pure, Except.ok.injEq, List.forall₂_nil_right_iff,
      exists_eq_left]
    simp [BTreeMap.extend]
  | cons decision decisions ih =>
    simp only [List.foldlM_cons, Check.bind_eq_ok, chooseObject_eq_ok, ih,
      List.forall₂_cons_right_iff]
    constructor
    · rintro ⟨_, ⟨key, found, absent, rfl⟩, entries, stands, nodup, new, eq⟩
      have fresh : ∀ e ∈ entries, e.1 ≠ key ∧ acc.get? e.1 = none := by
        intro e mem
        have missing := new e mem
        rw [BTreeMap.get?_insert] at missing
        split_ifs at missing with same
        exact ⟨same, missing⟩
      refine ⟨(key, decision.source) :: entries, ⟨_, _, ⟨found, rfl⟩, stands, rfl⟩, ?_, ?_, eq⟩
      · rw [List.map_cons, List.nodup_cons]
        refine ⟨fun mem => ?_, nodup⟩
        obtain ⟨e, held, same⟩ := List.mem_map.mp mem
        exact (fresh e held).1 same
      · exact List.forall_mem_cons.mpr ⟨absent, fun e mem => (fresh e mem).2⟩
    · rintro ⟨_, ⟨⟨key, source⟩, entries, ⟨found, rfl⟩, stands, rfl⟩, nodup, new, eq⟩
      rw [List.map_cons, List.nodup_cons] at nodup
      obtain ⟨absent, new⟩ := List.forall_mem_cons.mp new
      refine ⟨_, ⟨key, found, absent, rfl⟩, entries, stands, nodup.2, fun e mem => ?_, eq⟩
      rw [BTreeMap.get?_insert, if_neg, new e mem]
      exact fun same => nodup.1 (List.mem_map.mpr ⟨e, mem, same⟩)

end

section

variable {Key : Type} {baselineDigest : Key → String → String} {key : Key}
  (keys : BTreeSet ObjectNode) (choice : ObjectNode → DataObjectSource)

variable (baselineDigest key) in
def decisionsFor : List DataObjectDecision :=
  keys.toList.map fun n => ⟨objectHandle baselineDigest key n, choice n⟩

def choicesFor : BTreeMap ObjectNode DataObjectSource :=
  .ofList (keys.toList.map fun n => (n, choice n))

theorem choicesFor_toList :
    (choicesFor keys choice).toList = keys.toList.map fun n => (n, choice n) :=
  BTreeMap.toList_ofList (List.pairwise_map.mpr keys.toList_sorted)

variable (collisionFree : Function.Injective (baselineDigest key))
include collisionFree

theorem objectHandle_injective : Function.Injective (objectHandle baselineDigest key) :=
  collisionFree.comp handleMaterial_injective

variable {keys choice}

theorem handleMap_get {handle : String} {n : ObjectNode} :
    (handleMap baselineDigest key keys).get? handle = some n ↔
      n ∈ keys ∧ objectHandle baselineDigest key n = handle := by
  have unique : ((keys.toList.map fun n => (objectHandle baselineDigest key n, n)).map
      Prod.fst).Nodup := by
    rw [List.map_map]
    exact keys.toList_nodup.map (objectHandle_injective collisionFree)
  rw [handleMap, BTreeMap.get?_ofList unique, List.mem_map]
  simp only [BTreeSet.mem_toList, Prod.mk.injEq]
  constructor
  · rintro ⟨m, mem, eq, rfl⟩
    exact ⟨mem, eq⟩
  · rintro ⟨mem, eq⟩
    exact ⟨n, mem, eq, rfl⟩

theorem collectChoices_of_perm {decisions : List DataObjectDecision}
    (perm : decisions.Perm (decisionsFor baselineDigest key keys choice)) :
    collectChoices (handleMap baselineDigest key keys) decisions = .ok (choicesFor keys choice) := by
  have decided : List.Forall₂
      (fun (d : DataObjectDecision) n => d = ⟨objectHandle baselineDigest key n, choice n⟩)
      (decisionsFor baselineDigest key keys choice) keys.toList := by
    rw [decisionsFor, List.forall₂_map_left_iff]
    exact List.forall₂_same.mpr fun _ _ => rfl
  obtain ⟨nodes, each, order⟩ := List.perm_comp_forall₂ perm decided
  obtain rfl : decisions = nodes.map fun n => ⟨objectHandle baselineDigest key n, choice n⟩ := by
    rw [← List.forall₂_eq_eq_eq, List.forall₂_map_right_iff]
    exact each
  have firsts : (nodes.map fun n => (n, choice n)).map Prod.fst = nodes := by
    simp [Function.comp_def]
  refine collect_eq_ok.mpr ⟨nodes.map fun n => (n, choice n), ?_, ?_, by simp, ?_⟩
  · rw [List.forall₂_map_left_iff, List.forall₂_map_right_iff, List.forall₂_same]
    intro n mem
    have known := BTreeSet.mem_toList.mp (order.mem_iff.mp mem)
    exact ⟨(handleMap_get collisionFree).mpr ⟨known, rfl⟩, rfl⟩
  · rw [firsts]
    exact order.nodup_iff.mpr keys.toList_nodup
  · exact BTreeMap.ofList_perm (by rw [firsts]; exact order.nodup_iff.mpr keys.toList_nodup)
      (order.map _)

theorem exists_choice {decisions : List DataObjectDecision}
    {choices : BTreeMap ObjectNode DataObjectSource}
    (accepted : collectChoices (handleMap baselineDigest key keys) decisions = .ok choices)
    (complete : decisions.length = keys.size) :
    ∃ choice, decisions.Perm (decisionsFor baselineDigest key keys choice) := by
  obtain ⟨entries, stands, nodup, -, result⟩ := collect_eq_ok.mp accepted
  let choice (n : ObjectNode) : DataObjectSource := (choices.get? n).getD .fromRemote
  have kept {e : ObjectNode × DataObjectSource} (mem : e ∈ entries) : choice e.1 = e.2 := by
    have found : choices.get? e.1 = some e.2 := result ▸ (BTreeMap.get?_ofList nodup).mpr mem
    simp [choice, found]
  have named : List.Forall₂ (fun (e : ObjectNode × DataObjectSource) d =>
      e.1 ∈ keys ∧ ⟨objectHandle baselineDigest key e.1, e.2⟩ = d) entries decisions := by
    refine stands.imp fun e d ⟨found, source⟩ => ?_
    obtain ⟨mem, eq⟩ := (handleMap_get collisionFree).mp found
    exact ⟨mem, by rw [eq, ← source]⟩
  obtain ⟨known, made⟩ := (List.forall₂_and_left _ _).mp named
  have order : (entries.map Prod.fst).Perm keys.toList := by
    refine (nodup.subperm fun n mem => ?_).perm_of_length_le ?_
    · obtain ⟨e, held, rfl⟩ := List.mem_map.mp mem
      exact BTreeSet.mem_toList.mpr (known e held)
    · rw [BTreeSet.length_toList, ← complete, ← stands.length_eq, List.length_map]
  have decided : (entries.map Prod.fst).map
      (fun n => (⟨objectHandle baselineDigest key n, choice n⟩ : DataObjectDecision)) =
        decisions := by
    rw [← List.forall₂_eq_eq_eq, List.map_map, List.forall₂_map_left_iff]
    refine ((List.forall₂_and_left _ _).mpr ⟨fun e mem => kept mem, made⟩).imp fun e d ⟨same, eq⟩ => ?_
    rw [← eq, ← same]
    rfl
  exact ⟨choice, decided ▸ order.map _⟩

end

end NoriShell.Exchange

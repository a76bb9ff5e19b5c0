import Mathlib.Order.Defs.LinearOrder
import Mathlib.Data.List.Nodup
import Mathlib.Data.List.Sort
import Mathlib.Data.List.Perm.Subperm
import Mathlib.Data.Prod.Basic

/-! Ordered maps as strictly increasing entry lists.  Iteration order is the key
order, and two maps with the same lookups are equal. -/

universe u v w

namespace NoriShell.Collections

/-- The order of an injective key, with the type's own equality test. -/
@[reducible] def orderByKey {α : Type u} {β : Type v} [DecidableEq α] [LinearOrder β] (f : α → β)
    (inj : Function.Injective f) : LinearOrder α where
  le a b := f a ≤ f b
  lt a b := f a < f b
  le_refl _ := le_rfl
  le_trans _ _ _ := le_trans
  le_antisymm _ _ h h' := inj (le_antisymm h h')
  lt_iff_le_not_ge _ _ := lt_iff_le_not_ge
  le_total _ _ := le_total _ _
  toDecidableLE a b := inferInstanceAs (Decidable (f a ≤ f b))
  toDecidableLT a b := inferInstanceAs (Decidable (f a < f b))
  toDecidableEq := inferInstance

variable {κ : Type u} {ν : Type v} [LinearOrder κ]

namespace Entries

def Sorted (l : List (κ × ν)) : Prop :=
  l.Pairwise fun a b => a.1 < b.1

def find (k : κ) : List (κ × ν) → Option ν
  | [] => none
  | (k', v) :: l => if k = k' then some v else find k l

def insert (k : κ) (v : ν) : List (κ × ν) → List (κ × ν)
  | [] => [(k, v)]
  | (k', v') :: l =>
    if k < k' then (k, v) :: (k', v') :: l
    else if k = k' then (k, v) :: l
    else (k', v') :: insert k v l

def erase (k : κ) : List (κ × ν) → List (κ × ν)
  | [] => []
  | (k', v') :: l => if k = k' then l else (k', v') :: erase k l

variable {k : κ} {l : List (κ × ν)}

theorem mem_of_find {v : ν} (h : find k l = some v) : (k, v) ∈ l := by
  induction l with
  | nil => simp [find] at h
  | cons e l ih =>
    simp only [find] at h
    split at h
    · next eq =>
      cases h
      exact eq ▸ List.mem_cons_self
    · exact List.mem_cons_of_mem _ (ih h)

theorem find_eq_none : find k l = none ↔ k ∉ l.map Prod.fst := by
  induction l with
  | nil => simp [find]
  | cons e l ih =>
    simp only [find, List.map_cons, List.mem_cons, not_or]
    split <;> simp_all

theorem find_of_mem {v : ν} (nodup : (l.map Prod.fst).Nodup)
    (h : (k, v) ∈ l) : find k l = some v := by
  induction l with
  | nil => simp at h
  | cons e l ih =>
    rw [List.map_cons, List.nodup_cons] at nodup
    rcases List.mem_cons.mp h with rfl | h
    · simp [find]
    · have hne : k ≠ e.1 := by
        rintro rfl
        exact nodup.1 (List.mem_map.mpr ⟨_, h, rfl⟩)
      simp only [find, if_neg hne]
      exact ih nodup.2 h

theorem Sorted.nodup (h : Sorted l) : (l.map Prod.fst).Nodup := by
  rw [List.Nodup, List.pairwise_map]
  exact h.imp fun h => ne_of_lt h

theorem Sorted.find_eq_some (h : Sorted l) {v : ν} : find k l = some v ↔ (k, v) ∈ l :=
  ⟨mem_of_find, find_of_mem h.nodup⟩

theorem fst_mem_insert {v : ν} {e : κ × ν} (h : e ∈ insert k v l) : e.1 = k ∨ e ∈ l := by
  induction l with
  | nil => simp_all [insert]
  | cons a l ih =>
    simp only [insert] at h
    split_ifs at h <;> simp only [List.mem_cons] at h ⊢
    · rcases h with rfl | h <;> simp_all
    · rcases h with rfl | h <;> simp_all
    · rcases h with rfl | h
      · simp
      · exact (ih h).imp id Or.inr

theorem Sorted.insert (h : Sorted l) (k : κ) (v : ν) : Sorted (insert k v l) := by
  induction l with
  | nil => simp [Entries.insert, Sorted]
  | cons a l ih =>
    obtain ⟨head, tail⟩ := List.pairwise_cons.mp h
    simp only [Entries.insert]
    split_ifs with lt eq
    · refine List.pairwise_cons.mpr ⟨fun e he => ?_, h⟩
      rcases List.mem_cons.mp he with rfl | he
      · exact lt
      · exact lt_trans lt (head e he)
    · subst eq
      exact List.pairwise_cons.mpr ⟨head, tail⟩
    · refine List.pairwise_cons.mpr ⟨fun e he => ?_, ih tail⟩
      rcases fst_mem_insert he with rfl | he
      · exact lt_of_le_of_ne (not_lt.mp lt) (Ne.symm eq)
      · exact head e he

theorem find_insert (k : κ) (v : ν) (l : List (κ × ν)) (k' : κ) :
    find k' (insert k v l) = if k' = k then some v else find k' l := by
  induction l with
  | nil => simp [insert, find]
  | cons a l ih =>
    simp only [insert]
    split_ifs with lt eq eq' <;> simp_all [find]

theorem mem_of_mem_erase {e : κ × ν} (h : e ∈ erase k l) : e ∈ l := by
  induction l with
  | nil => simp [erase] at h
  | cons a l ih =>
    simp only [erase] at h
    split_ifs at h
    · exact List.mem_cons_of_mem _ h
    · rcases List.mem_cons.mp h with rfl | h
      · exact List.mem_cons_self
      · exact List.mem_cons_of_mem _ (ih h)

theorem Sorted.erase (h : Sorted l) (k : κ) : Sorted (erase k l) := by
  induction l with
  | nil => exact h
  | cons a l ih =>
    obtain ⟨head, tail⟩ := List.pairwise_cons.mp h
    simp only [Entries.erase]
    split_ifs
    · exact tail
    · exact List.pairwise_cons.mpr ⟨fun e he => head e (mem_of_mem_erase he), ih tail⟩

theorem Sorted.find_erase (h : Sorted l) (k k' : κ) :
    find k' (Entries.erase k l) = if k' = k then none else find k' l := by
  induction l with
  | nil => simp [Entries.erase, find]
  | cons a l ih =>
    obtain ⟨head, tail⟩ := List.pairwise_cons.mp h
    have notMem : a.1 ∉ l.map Prod.fst := by
      simp only [List.mem_map, not_exists, not_and]
      exact fun e he heq => lt_irrefl _ (heq ▸ head e he)
    simp only [Entries.erase]
    split_ifs with eq eq' eq'
    · rw [eq', eq]
      exact find_eq_none.mpr notMem
    · rw [find, if_neg (eq ▸ eq')]
    · rw [find, if_neg (eq' ▸ eq), ih tail, if_pos eq']
    · rw [find, find, ih tail, if_neg eq']

theorem Sorted.ext {l' : List (κ × ν)} (h : Sorted l) (h' : Sorted l')
    (same : ∀ k, find k l = find k l') : l = l' := by
  have perm : l.Perm l' := by
    refine (List.perm_ext_iff_of_nodup ?_ ?_).mpr fun e => ?_
    · exact List.Nodup.of_map _ h.nodup
    · exact List.Nodup.of_map _ h'.nodup
    · rw [← h.find_eq_some, ← h'.find_eq_some, same]
  exact perm.eq_of_pairwise (fun a b _ _ hab hba => absurd hba (lt_asymm hab)) h h'

end Entries

/-- An ordered map; the entry list is strictly increasing in its keys. -/
structure BTreeMap (κ : Type u) (ν : Type v) [LinearOrder κ] where
  toList : List (κ × ν)
  sorted : Entries.Sorted toList

namespace BTreeMap

instance [DecidableEq ν] : DecidableEq (BTreeMap κ ν)
  | ⟨l, _⟩, ⟨l', _⟩ => decidable_of_iff (l = l') (by simp)

def empty : BTreeMap κ ν where
  toList := []
  sorted := List.Pairwise.nil

instance : Inhabited (BTreeMap κ ν) := ⟨empty⟩

def get? (m : BTreeMap κ ν) (k : κ) : Option ν :=
  Entries.find k m.toList

def contains (m : BTreeMap κ ν) (k : κ) : Bool :=
  (m.get? k).isSome

def keys (m : BTreeMap κ ν) : List κ :=
  m.toList.map Prod.fst

def size (m : BTreeMap κ ν) : Nat :=
  m.toList.length

def insert (m : BTreeMap κ ν) (k : κ) (v : ν) : BTreeMap κ ν where
  toList := Entries.insert k v m.toList
  sorted := m.sorted.insert k v

def erase (m : BTreeMap κ ν) (k : κ) : BTreeMap κ ν where
  toList := Entries.erase k m.toList
  sorted := m.sorted.erase k

def upsert (m : BTreeMap κ ν) (k : κ) (f : ν → ν) (v : ν) : BTreeMap κ ν :=
  m.insert k ((m.get? k).elim v f)

/-- Inserts the entries from left to right, so that a later entry wins. -/
def extend (m : BTreeMap κ ν) (l : List (κ × ν)) : BTreeMap κ ν :=
  l.foldl (fun m e => m.insert e.1 e.2) m

def ofList (l : List (κ × ν)) : BTreeMap κ ν :=
  empty.extend l

def mapValues {ν' : Type w} (f : ν → ν') (m : BTreeMap κ ν) : BTreeMap κ ν' where
  toList := m.toList.map fun e => (e.1, f e.2)
  sorted := by
    apply List.pairwise_map.mpr
    exact m.sorted

variable {m : BTreeMap κ ν} {k : κ} {l : List (κ × ν)}

@[ext] theorem ext {m' : BTreeMap κ ν} (h : ∀ k, m.get? k = m'.get? k) : m = m' := by
  obtain ⟨l, hl⟩ := m
  obtain ⟨l', hl'⟩ := m'
  congr 1
  exact hl.ext hl' h

theorem mem_toList {v : ν} : (k, v) ∈ m.toList ↔ m.get? k = some v :=
  m.sorted.find_eq_some.symm

theorem mem_keys : k ∈ m.keys ↔ ∃ v, m.get? k = some v := by
  simp [keys, mem_toList]

theorem contains_iff_mem_keys : m.contains k ↔ k ∈ m.keys := by
  rw [contains, Option.isSome_iff_exists, mem_keys]

theorem keys_sorted (m : BTreeMap κ ν) : m.keys.Pairwise (· < ·) :=
  List.pairwise_map.mpr m.sorted

theorem keys_nodup (m : BTreeMap κ ν) : m.keys.Nodup :=
  m.sorted.nodup

@[simp] theorem length_keys (m : BTreeMap κ ν) : m.keys.length = m.size :=
  List.length_map _

@[simp] theorem get?_empty (k : κ) : (empty : BTreeMap κ ν).get? k = none := rfl

@[simp] theorem get?_insert (m : BTreeMap κ ν) (k : κ) (v : ν) (k' : κ) :
    (m.insert k v).get? k' = if k' = k then some v else m.get? k' :=
  Entries.find_insert k v m.toList k'

@[simp] theorem get?_erase (m : BTreeMap κ ν) (k k' : κ) :
    (m.erase k).get? k' = if k' = k then none else m.get? k' :=
  m.sorted.find_erase k k'

@[simp] theorem insert_erase (m : BTreeMap κ ν) (k : κ) (v : ν) :
    (m.erase k).insert k v = m.insert k v := by
  ext k' v'
  by_cases same : k' = k <;> simp [same]

@[simp] theorem insert_insert (m : BTreeMap κ ν) (k : κ) (v v' : ν) :
    (m.insert k v).insert k v' = m.insert k v' := by
  ext k' v'
  by_cases same : k' = k <;> simp [same]

theorem insert_of_get? {v : ν} (h : m.get? k = some v) : m.insert k v = m := by
  ext k' v'
  by_cases same : k' = k <;> simp [same, h]

@[simp] theorem get?_upsert (m : BTreeMap κ ν) (k : κ) (f : ν → ν) (v : ν) (k' : κ) :
    (m.upsert k f v).get? k' = if k' = k then some ((m.get? k).elim v f) else m.get? k' :=
  get?_insert m k _ k'

@[simp] theorem get?_mapValues {ν' : Type w} (f : ν → ν') (m : BTreeMap κ ν) (k : κ) :
    (m.mapValues f).get? k = (m.get? k).map f := by
  change Entries.find k (m.toList.map fun e => (e.1, f e.2)) = (Entries.find k m.toList).map f
  induction m.toList with
  | nil => rfl
  | cons e l ih =>
    simp only [List.map_cons, Entries.find]
    split_ifs
    · rfl
    · exact ih

theorem get?_extend_of_notMem (h : k ∉ l.map Prod.fst)
    (m : BTreeMap κ ν) : (m.extend l).get? k = m.get? k := by
  induction l generalizing m with
  | nil => rfl
  | cons e l ih =>
    rw [List.map_cons, List.mem_cons, not_or] at h
    change ((m.insert e.1 e.2).extend l).get? k = _
    rw [ih h.2, get?_insert, if_neg h.1]

theorem get?_extend_of_mem (nodup : (l.map Prod.fst).Nodup) {v : ν}
    (h : (k, v) ∈ l) (m : BTreeMap κ ν) : (m.extend l).get? k = some v := by
  induction l generalizing m with
  | nil => simp at h
  | cons e l ih =>
    rw [List.map_cons, List.nodup_cons] at nodup
    change ((m.insert e.1 e.2).extend l).get? k = _
    rcases List.mem_cons.mp h with rfl | h
    · rw [get?_extend_of_notMem nodup.1, get?_insert, if_pos rfl]
    · exact ih nodup.2 h _

theorem get?_extend_const (l : List κ) (v : ν) (m : BTreeMap κ ν) (k : κ) :
    (m.extend (l.map (·, v))).get? k = if k ∈ l then some v else m.get? k := by
  induction l generalizing m with
  | nil => rfl
  | cons a l ih =>
    change ((m.insert a v).extend (l.map (·, v))).get? k = _
    rw [ih, get?_insert]
    by_cases eq : k = a <;> simp [eq]

theorem get?_ofList (nodup : (l.map Prod.fst).Nodup) {v : ν} :
    (ofList l).get? k = some v ↔ (k, v) ∈ l := by
  refine ⟨fun h => ?_, fun h => get?_extend_of_mem nodup h empty⟩
  by_cases mem : k ∈ l.map Prod.fst
  · obtain ⟨⟨k, v'⟩, entry, rfl⟩ := List.mem_map.mp mem
    have same := (get?_extend_of_mem nodup entry empty).symm.trans h
    exact Option.some.inj same ▸ entry
  · rw [ofList, get?_extend_of_notMem mem] at h
    simp at h

theorem toList_ofList_perm (nodup : (l.map Prod.fst).Nodup) : (ofList l).toList.Perm l := by
  refine (List.perm_ext_iff_of_nodup (ofList l).sorted.nodup.of_map nodup.of_map).2 ?_
  rintro ⟨k, v⟩
  rw [mem_toList, get?_ofList nodup]

theorem toList_ofList (sorted : Entries.Sorted l) : (ofList l).toList = l := by
  have same : ofList l = ⟨l, sorted⟩ := by
    ext k v
    rw [get?_ofList sorted.nodup]
    exact sorted.find_eq_some.symm
  rw [same]

theorem ofList_perm {l' : List (κ × ν)} (nodup : (l.map Prod.fst).Nodup) (perm : l.Perm l') :
    ofList l = ofList l' := by
  ext k v
  rw [get?_ofList nodup, get?_ofList ((perm.map Prod.fst).nodup_iff.mp nodup), perm.mem_iff]

end BTreeMap

structure BTreeSet (κ : Type u) [LinearOrder κ] where
  map : BTreeMap κ Unit
  deriving DecidableEq

namespace BTreeSet

instance : Membership κ (BTreeSet κ) where
  mem s k := s.map.get? k = some ()

instance (k : κ) (s : BTreeSet κ) : Decidable (k ∈ s) :=
  inferInstanceAs (Decidable (s.map.get? k = some ()))

def empty : BTreeSet κ where
  map := BTreeMap.empty

instance : Inhabited (BTreeSet κ) := ⟨empty⟩

def toList (s : BTreeSet κ) : List κ :=
  s.map.keys

def size (s : BTreeSet κ) : Nat :=
  s.map.size

def insert (s : BTreeSet κ) (k : κ) : BTreeSet κ where
  map := s.map.insert k ()

def erase (s : BTreeSet κ) (k : κ) : BTreeSet κ where
  map := s.map.erase k

def extend (s : BTreeSet κ) (l : List κ) : BTreeSet κ :=
  l.foldl insert s

def eraseAll (s : BTreeSet κ) (l : List κ) : BTreeSet κ :=
  l.foldl erase s

def ofList (l : List κ) : BTreeSet κ :=
  empty.extend l

variable {s : BTreeSet κ} {k : κ} {l : List κ}

theorem mem_def : k ∈ s ↔ s.map.get? k = some () :=
  Iff.rfl

@[ext] theorem ext {t : BTreeSet κ} (h : ∀ k, k ∈ s ↔ k ∈ t) : s = t := by
  obtain ⟨m⟩ := s
  obtain ⟨m'⟩ := t
  congr 1
  ext k ⟨⟩
  exact h k

@[simp] theorem mem_toList : k ∈ s.toList ↔ k ∈ s := by
  rw [toList, BTreeMap.mem_keys, mem_def]
  exact ⟨fun ⟨_, h⟩ => h, fun h => ⟨_, h⟩⟩

theorem toList_sorted (s : BTreeSet κ) : s.toList.Pairwise (· < ·) :=
  s.map.keys_sorted

theorem toList_nodup (s : BTreeSet κ) : s.toList.Nodup :=
  s.map.keys_nodup

@[simp] theorem length_toList (s : BTreeSet κ) : s.toList.length = s.size :=
  s.map.length_keys

@[simp] theorem notMem_empty (k : κ) : k ∉ (empty : BTreeSet κ) := by
  simp [mem_def, empty]

@[simp] theorem mem_insert {k' : κ} : k' ∈ s.insert k ↔ k' = k ∨ k' ∈ s := by
  rw [mem_def, mem_def, insert, BTreeMap.get?_insert]
  split <;> simp_all

@[simp] theorem mem_erase {k' : κ} : k' ∈ s.erase k ↔ k' ≠ k ∧ k' ∈ s := by
  rw [mem_def, mem_def, erase, BTreeMap.get?_erase]
  split <;> simp_all

@[simp] theorem mem_extend : k ∈ s.extend l ↔ k ∈ s ∨ k ∈ l := by
  induction l generalizing s with
  | nil => simp [extend]
  | cons a l ih =>
    change k ∈ (s.insert a).extend l ↔ _
    rw [ih, mem_insert, List.mem_cons]
    tauto

@[simp] theorem mem_eraseAll : k ∈ s.eraseAll l ↔ k ∈ s ∧ k ∉ l := by
  induction l generalizing s with
  | nil => simp [eraseAll]
  | cons a l ih =>
    change k ∈ (s.erase a).eraseAll l ↔ _
    rw [ih, mem_erase, List.mem_cons]
    tauto

@[simp] theorem mem_ofList : k ∈ ofList l ↔ k ∈ l := by
  simp [ofList]

theorem size_eq_of_perm (nodup : l.Nodup) (h : ∀ k, k ∈ s ↔ k ∈ l) : s.size = l.length := by
  rw [← s.length_toList]
  exact ((List.perm_ext_iff_of_nodup s.toList_nodup nodup).mpr fun k => by
    rw [mem_toList, h]).length_eq

theorem size_le_of_subset (h : ∀ a ∈ s, a ∈ l) : s.size ≤ l.length := by
  rw [← s.length_toList]
  exact (s.toList_nodup.subperm fun a ha => h a (mem_toList.mp ha)).length_le

theorem size_lt_of_subset {t : BTreeSet κ} (h : ∀ a ∈ s, a ∈ t) (mem : k ∈ t)
    (notMem : k ∉ s) : s.size < t.size := by
  have nodup : (k :: s.toList).Nodup :=
    List.nodup_cons.mpr ⟨fun hk => notMem (mem_toList.mp hk), s.toList_nodup⟩
  have sub : k :: s.toList ⊆ t.toList := by
    intro a ha
    rcases List.mem_cons.mp ha with rfl | ha
    · exact mem_toList.mpr mem
    · exact mem_toList.mpr (h a (mem_toList.mp ha))
  have le := (nodup.subperm sub).length_le
  rwa [List.length_cons, length_toList, length_toList] at le

end BTreeSet

end NoriShell.Collections

import Mathlib.Data.List.Sort
import Mathlib.Data.List.Perm.Basic

/-! Sorting a list by a key, and when lists sorted by a key agree. -/

universe u v

namespace NoriShell.Collections

variable {α : Type u} {β : Type v} [LinearOrder β]

def sortByKey (key : α → β) (l : List α) : List α :=
  l.insertionSort fun a b => key a ≤ key b

theorem sortByKey_perm (key : α → β) (l : List α) : (sortByKey key l).Perm l :=
  List.perm_insertionSort _ l

theorem sortByKey_pairwise (key : α → β) (l : List α) :
    (sortByKey key l).Pairwise fun a b => key a ≤ key b :=
  have : Std.Total fun a b : α => key a ≤ key b := ⟨fun a b => le_total (key a) (key b)⟩
  have : IsTrans α fun a b => key a ≤ key b := ⟨fun _ _ _ => le_trans⟩
  List.pairwise_insertionSort _ l

theorem sortByKey_idem (key : α → β) (l : List α) :
    sortByKey key (sortByKey key l) = sortByKey key l :=
  (sortByKey_pairwise key l).insertionSort_eq

theorem sortByKey_eq_of_perm {key : α → β} {l l' : List α} (unique : (l.map key).Nodup)
    (perm : l.Perm l') : sortByKey key l = sortByKey key l' := by
  have rearranged : (sortByKey key l).Perm (sortByKey key l') :=
    (sortByKey_perm key l).trans (perm.trans (sortByKey_perm key l').symm)
  refine rearranged.eq_of_pairwise ?_ (sortByKey_pairwise key l) (sortByKey_pairwise key l')
  intro a b ha hb le ge
  have ha := (sortByKey_perm key l).mem_iff.mp ha
  have hb := perm.mem_iff.mpr ((sortByKey_perm key l').mem_iff.mp hb)
  exact List.inj_on_of_nodup_map unique ha hb (le_antisymm le ge)

theorem eq_of_sorted_of_mem {key : α → β} {l l' : List α}
    (sorted : l.Pairwise fun a b => key a < key b)
    (sorted' : l'.Pairwise fun a b => key a < key b) (mem : ∀ a, a ∈ l ↔ a ∈ l') : l = l' := by
  have nodup {l : List α} (sorted : l.Pairwise fun a b => key a < key b) : l.Nodup :=
    sorted.imp fun lt eq => lt.ne (congrArg key eq)
  refine ((List.perm_ext_iff_of_nodup (nodup sorted) (nodup sorted')).mpr mem).eq_of_pairwise ?_
    sorted sorted'
  intro a b _ _ lt gt
  exact absurd gt lt.asymm

end NoriShell.Collections

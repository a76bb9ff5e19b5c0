import Mathlib.Algebra.BigOperators.Group.List.Basic
import Mathlib.Algebra.Order.Interval.Finset.Basic
import Mathlib.Tactic.Linarith
import NoriShell.Desktop.Region

namespace NoriShell.Desktop

open Collections

namespace DesktopRect

variable {a b c : DesktopRect} {width height : UInt16} {p : Nat × Nat}

theorem mem_pixels : p ∈ a.pixels ↔
    (a.x.toNat ≤ p.1 ∧ p.1 < a.right) ∧ a.y.toNat ≤ p.2 ∧ p.2 < a.bottom := by
  simp [pixels]

theorem card_pixels : a.pixels.card = a.area := by
  simp [pixels, area, right, bottom]

theorem fits_iff : a.fits width height = true ↔
    0 < a.width.toNat ∧ 0 < a.height.toNat ∧ a.right ≤ width.toNat ∧ a.bottom ≤ height.toNat := by
  simp [fits, and_assoc, Nat.pos_iff_ne_zero, ← UInt16.toNat_inj]

theorem touches_iff : a.touches b = true ↔
    a.x.toNat ≤ b.right ∧ b.x.toNat ≤ a.right ∧ a.y.toNat ≤ b.bottom ∧ b.y.toNat ≤ a.bottom := by
  simp [touches, and_assoc]

theorem touches_comm : a.touches b = b.touches a := by
  rw [Bool.eq_iff_iff, touches_iff, touches_iff]
  omega

theorem disjoint_of_apart (h : a.touches b = false) : Disjoint a.pixels b.pixels := by
  rw [Finset.disjoint_left]
  intro p inA inB
  rw [mem_pixels] at inA inB
  have : a.touches b = true := touches_iff.mpr (by omega)
  simp [h] at this

theorem subset_of_contains (h : a.contains b = true) : b.pixels ⊆ a.pixels := by
  simp only [contains, Bool.and_eq_true, decide_eq_true_eq, UInt16.le_iff_toNat_le] at h
  intro p
  rw [mem_pixels, mem_pixels]
  omega

theorem toNat_min (m n : UInt16) : (min m n).toNat = min m.toNat n.toNat := by
  change (if m ≤ n then m else n).toNat = _
  rw [Nat.min_def]
  simp only [UInt16.le_iff_toNat_le]
  split <;> rfl

theorem union_sides (ha : a.fits width height = true) (hb : b.fits width height = true) :
    (a.union b).x.toNat = min a.x.toNat b.x.toNat ∧ (a.union b).y.toNat = min a.y.toNat b.y.toNat ∧
      (a.union b).right = max a.right b.right ∧ (a.union b).bottom = max a.bottom b.bottom := by
  have w := width.toNat_lt
  have h := height.toNat_lt
  rw [fits_iff] at ha hb
  simp only [union, right, bottom, toNat_min, UInt16.toNat_ofNat'] at *
  refine ⟨trivial, trivial, ?_, ?_⟩ <;> omega

theorem fits_union (ha : a.fits width height = true) (hb : b.fits width height = true) :
    (a.union b).fits width height = true := by
  obtain ⟨x, y, r, l⟩ := union_sides ha hb
  rw [fits_iff] at ha hb ⊢
  simp only [right, bottom] at *
  omega

theorem mem_union (ha : a.fits width height = true) (hb : b.fits width height = true)
    (h : p ∈ a.pixels ∨ p ∈ b.pixels) : p ∈ (a.union b).pixels := by
  have sides := union_sides ha hb
  simp only [mem_pixels] at h ⊢
  omega

end DesktopRect

def Covers (rects : List DesktopRect) (p : Nat × Nat) : Prop := ∃ rect ∈ rects, p ∈ rect.pixels

structure Kept (width height : UInt16) (rects : List DesktopRect) : Prop where
  fits : ∀ rect ∈ rects, rect.fits width height = true
  apart : rects.Pairwise fun a b => a.touches b = false

/-- `out` is what adding `next` to `rects` may leave. -/
structure Extends (width height : UInt16) (rects : List DesktopRect) (next : DesktopRect)
    (out : List DesktopRect) : Prop where
  kept : Kept width height out
  covers : ∀ p, p ∈ next.pixels ∨ Covers rects p → Covers out p
  length : out.length ≤ rects.length + 1

def Absorbed.rects : Absorbed → List DesktopRect
  | .contained rects => rects
  | .apart rects next => rects ++ [next]

section

variable {width height : UInt16} {rects out rest : List DesktopRect} {next removed : DesktopRect}
  {fuel : Nat}

theorem Kept.of_perm (h : Kept width height rects) (perm : rects.Perm (removed :: rest)) :
    removed.fits width height = true ∧ Kept width height rest := by
  have apart := (perm.pairwise_iff fun {a b} ab => (DesktopRect.touches_comm (a := b)).trans ab).mp
    h.apart
  exact ⟨h.fits _ (perm.mem_iff.mpr List.mem_cons_self),
    fun rect mem => h.fits rect (perm.mem_iff.mpr (List.mem_cons_of_mem _ mem)), apart.of_cons⟩

theorem Covers.of_perm {p : Nat × Nat} (perm : rects.Perm (removed :: rest))
    (h : Covers rects p) : p ∈ removed.pixels ∨ Covers rest p := by
  obtain ⟨rect, mem, inside⟩ := h
  rcases List.mem_cons.mp (perm.mem_iff.mp mem) with rfl | mem
  · exact .inl inside
  · exact .inr ⟨rect, mem, inside⟩

theorem Kept.concat (h : Kept width height rects) (fits : next.fits width height = true)
    (apart : ∀ rect ∈ rects, rect.touches next = false) : Kept width height (rects ++ [next]) where
  fits rect mem := by
    rcases List.mem_append.mp mem with mem | mem
    · exact h.fits rect mem
    · exact List.mem_singleton.mp mem ▸ fits
  apart := List.pairwise_append.mpr ⟨h.apart, List.pairwise_singleton .., by simpa using apart⟩

theorem Covers.concat {p : Nat × Nat} (h : p ∈ next.pixels ∨ Covers rects p) :
    Covers (rects ++ [next]) p := by
  rcases h with inside | ⟨rect, mem, inside⟩
  · exact ⟨next, by simp, inside⟩
  · exact ⟨rect, by simp [mem], inside⟩

theorem Extends.of_merge (h : Kept width height rects) (fits : next.fits width height = true)
    (perm : rects.Perm (removed :: rest))
    (merged : Extends width height rest (next.union removed) out) :
    Extends width height rects next out := by
  have old := (h.of_perm perm).1
  refine ⟨merged.kept, fun p covered => merged.covers p ?_, ?_⟩
  · rcases covered with inside | covered
    · exact .inl (DesktopRect.mem_union fits old (.inl inside))
    · exact (covered.of_perm perm).imp_left fun inside =>
        DesktopRect.mem_union fits old (.inr inside)
  · have := merged.length
    rw [perm.length_eq, List.length_cons]
    omega

theorem absorb_spec (h : Kept width height rects) (fits : next.fits width height = true)
    (enough : rects.length < fuel) :
    ∃ result, absorb fuel rects next = some result ∧ Extends width height rects next result.rects ∧
      ∀ out, result = .contained out → out.length ≤ rects.length := by
  induction fuel generalizing rects next with
  | zero => omega
  | succ fuel ih =>
    rw [absorb]
    split
    · rename_i contained
      obtain ⟨rect, mem, contains⟩ := List.any_eq_true.mp contained
      refine ⟨_, rfl, ⟨h, fun p covered => ?_, Nat.le_succ _⟩, ?_⟩
      · rcases covered with inside | covered
        · exact ⟨rect, mem, DesktopRect.subset_of_contains contains inside⟩
        · exact covered
      · rintro out ⟨⟩
        exact Nat.le_refl _
    · cases found : rects.findIdx? (·.touches next) with
      | none =>
        have apart := List.findIdx?_eq_none_iff.mp found
        exact ⟨_, rfl, ⟨h.concat fits (by simpa using apart), fun p => Covers.concat,
          by simp [Absorbed.rects]⟩, nofun⟩
      | some index =>
        obtain ⟨inBounds, -⟩ := List.findIdx?_eq_some_iff_getElem.mp found
        obtain ⟨rest, taken, perm⟩ := swapRemove?_of_lt inBounds
        have shorter := perm.length_eq
        obtain ⟨old, kept⟩ := h.of_perm perm
        rw [List.length_cons] at shorter
        obtain ⟨result, absorbed, merged, short⟩ := ih kept (DesktopRect.fits_union fits old)
          (by omega)
        refine ⟨result, by simp [taken, absorbed], merged.of_merge h fits perm, fun out same => ?_⟩
        have := short out same
        omega

theorem indexPairs_lt {pair : (DesktopRect × Nat) × (DesktopRect × Nat)}
    (mem : pair ∈ indexPairs rects) : pair.1.2 < pair.2.2 ∧ pair.2.2 < rects.length := by
  obtain ⟨a, -, paired⟩ := List.mem_flatMap.mp mem
  obtain ⟨b, later, rfl⟩ := List.mem_map.mp paired
  obtain ⟨i, inBounds, rfl⟩ := List.mem_drop_iff_getElem.mp later
  simp only [List.length_zipIdx, List.getElem_zipIdx] at inBounds ⊢
  omega

theorem closestPair_lt (rects : List DesktopRect) (two : 1 < rects.length) :
    (closestPair rects).1 < (closestPair rects).2.1 ∧ (closestPair rects).2.1 < rects.length := by
  refine List.foldlRecOn (indexPairs rects) closer (b := (0, 1, 2 ^ 64 - 1))
    (motive := fun best => best.1 < best.2.1 ∧ best.2.1 < rects.length) ⟨Nat.zero_lt_one, two⟩
    fun best ordered pair mem => ?_
  unfold closer
  split
  · exact indexPairs_lt mem
  · exact ordered

theorem shrink_of_short (short : rects.length ≤ maxDirtyRects) :
    shrink (fuel + 1) rects = some rects := by
  rw [shrink, if_neg (Nat.not_lt.mpr short)]

theorem not_isEmpty (fits : next.fits width height = true) : next.isEmpty = false := by
  have := DesktopRect.fits_iff.mp fits
  simp only [DesktopRect.isEmpty, ← UInt16.toNat_inj, Bool.or_eq_false_iff, decide_eq_false_iff_not,
    UInt16.toNat_zero]
  omega

theorem addRect_eq (h : Kept width height rects) (fits : next.fits width height = true)
    (bounded : rects.length ≤ maxDirtyRects) (enough : rects.length < fuel) :
    ∃ merged, addRect (fuel + 1) rects next = shrink fuel merged ∧
      Extends width height rects next merged := by
  obtain ⟨result, absorbed, merged, short⟩ := absorb_spec h fits enough
  refine ⟨result.rects, ?_, merged⟩
  rw [addRect, if_neg (by simp [not_isEmpty fits]), absorbed]
  cases result with
  | apart rects next => rfl
  | contained out =>
    obtain ⟨fuel, rfl⟩ : ∃ rest, fuel = rest + 1 := ⟨fuel - 1, by omega⟩
    exact (shrink_of_short ((short out rfl).trans bounded)).symm

theorem addRect_of_few (h : Kept width height rects) (fits : next.fits width height = true)
    (few : rects.length < maxDirtyRects) (enough : maxDirtyRects + 1 ≤ fuel) :
    ∃ out, addRect fuel rects next = some out ∧ Extends width height rects next out := by
  obtain ⟨fuel, rfl⟩ : ∃ rest, fuel = rest + 2 := ⟨fuel - 2, by simp [maxDirtyRects] at *; omega⟩
  obtain ⟨merged, added, result⟩ := addRect_eq h fits (Nat.le_of_lt few)
    (show rects.length < fuel + 1 by omega)
  have short := result.length
  exact ⟨merged, added.trans (shrink_of_short (by omega)), result⟩

theorem shrink_of_long (h : Kept width height rects) (long : rects.length = maxDirtyRects + 1)
    (enough : maxDirtyRects + 2 ≤ fuel) :
    ∃ out, shrink fuel rects = some out ∧ Kept width height out ∧
      (∀ p, Covers rects p → Covers out p) ∧ out.length ≤ maxDirtyRects := by
  obtain ⟨fuel, rfl⟩ : ∃ rest, fuel = rest + 2 := ⟨fuel - 2, by omega⟩
  obtain ⟨ordered, inBounds⟩ := closestPair_lt rects (by simp [long, maxDirtyRects])
  obtain ⟨rest, taken, perm⟩ := swapRemove?_of_lt inBounds
  have shorter := perm.length_eq
  rw [List.length_cons] at shorter
  have within : (closestPair rects).1 < rest.length := by omega
  obtain ⟨others, takenNext, permNext⟩ := swapRemove?_of_lt within
  have fewer := permNext.length_eq
  rw [List.length_cons] at fewer
  obtain ⟨second, keptRest⟩ := h.of_perm perm
  obtain ⟨first, keptOthers⟩ := keptRest.of_perm permNext
  obtain ⟨out, added, result⟩ := addRect_of_few keptOthers (DesktopRect.fits_union first second)
    (by omega) (show maxDirtyRects + 1 ≤ fuel + 1 by omega)
  have short := result.length
  refine ⟨out, ?_, result.kept, fun p covered => result.covers p ?_, by omega⟩
  · rw [shrink, if_pos (by omega)]
    simp only [taken, takenNext, added]
    exact shrink_of_short (by omega)
  · rcases covered.of_perm perm with inside | covered
    · exact .inl (DesktopRect.mem_union first second (.inr inside))
    · exact (covered.of_perm permNext).imp_left fun inside =>
        DesktopRect.mem_union first second (.inl inside)

theorem addRect_spec (h : Kept width height rects) (fits : next.fits width height = true)
    (bounded : rects.length ≤ maxDirtyRects) (enough : maxDirtyRects + 3 ≤ fuel) :
    ∃ out, addRect fuel rects next = some out ∧ Kept width height out ∧
      (∀ p, p ∈ next.pixels ∨ Covers rects p → Covers out p) ∧ out.length ≤ maxDirtyRects := by
  obtain ⟨fuel, rfl⟩ : ∃ rest, fuel = rest + 2 := ⟨fuel - 2, by omega⟩
  obtain ⟨merged, added, result⟩ := addRect_eq h fits bounded
    (show rects.length < fuel + 1 by omega)
  rcases Nat.lt_or_ge maxDirtyRects merged.length with long | short
  · have atMost := result.length
    obtain ⟨out, shrunk, kept, covers, short⟩ := shrink_of_long result.kept
      (show merged.length = maxDirtyRects + 1 by omega)
      (show maxDirtyRects + 2 ≤ fuel + 1 by omega)
    exact ⟨out, added.trans shrunk, kept, fun p covered => covers p (result.covers p covered), short⟩
  · exact ⟨merged, added.trans (shrink_of_short short), result.kept, result.covers, short⟩

theorem absorb_succ {result : Absorbed} (h : absorb fuel rects next = some result) :
    absorb (fuel + 1) rects next = some result := by
  induction fuel generalizing rects next with
  | zero => simp [absorb] at h
  | succ fuel ih =>
    rw [absorb] at h ⊢
    split at h
    · rwa [if_pos ‹_›]
    · rw [if_neg ‹_›]
      cases found : rects.findIdx? (·.touches next) with
      | none => simpa [found] using h
      | some index =>
        simp only [found, Option.bind_eq_bind, Option.bind_eq_some_iff] at h ⊢
        obtain ⟨taken, removed, merged⟩ := h
        exact ⟨taken, removed, ih merged⟩

theorem addRect_shrink_succ (fuel : Nat) : (∀ rects next out, addRect fuel rects next = some out →
      addRect (fuel + 1) rects next = some out) ∧
    ∀ rects out, shrink fuel rects = some out → shrink (fuel + 1) rects = some out := by
  induction fuel with
  | zero => simp [addRect, shrink]
  | succ fuel ih =>
    obtain ⟨adds, shrinks⟩ := ih
    constructor
    · intro rects next out h
      rw [addRect] at h ⊢
      split at h
      · rwa [if_pos ‹_›]
      rw [if_neg ‹_›]
      cases absorbed : absorb fuel rects next with
      | none => simp [absorbed] at h
      | some result =>
        rw [absorb_succ absorbed]
        rw [absorbed] at h
        cases result with
        | contained => exact h
        | apart => exact shrinks _ _ h
    · intro rects out h
      rw [shrink] at h ⊢
      split at h
      · rw [if_pos ‹_›]
        dsimp only at h ⊢
        rcases second : swapRemove? rects (closestPair rects).2.1 with _ | ⟨b, rest⟩
        · simp [second] at h
        rcases first : swapRemove? rest (closestPair rects).1 with _ | ⟨a, others⟩
        · simp [second, first] at h
        rcases added : addRect fuel others (a.union b) with _ | merged
        · simp [second, first, added] at h
        simp only [second, first, added, adds _ _ _ added] at h ⊢
        exact shrinks _ _ h
      · rwa [if_neg ‹_›]

theorem addRect_mono {more : Nat} (le : fuel ≤ more) (h : addRect fuel rects next = some out) :
    addRect more rects next = some out := by
  induction le with
  | refl => exact h
  | step _ ih => exact (addRect_shrink_succ _).1 _ _ _ ih

end

def addFuel : Nat := maxDirtyRects + 3

structure Tidy (width height : UInt16) (added : List DesktopRect) (region : DirtyRegion) :
    Prop where
  kept : Kept width height region.rects
  bounded : region.rects.length ≤ maxDirtyRects
  covers : ∀ rect ∈ added, ∀ p ∈ rect.pixels, Covers region.rects p

namespace Tidy

variable {width height : UInt16} {added : List DesktopRect} {region : DirtyRegion}

theorem start : Tidy width height [] {} := ⟨⟨by simp, .nil⟩, by simp, by simp⟩

theorem pixels_of_isEmpty {rect : DesktopRect} (empty : rect.isEmpty = true) : rect.pixels = ∅ := by
  simp only [DesktopRect.isEmpty, Bool.or_eq_true, decide_eq_true_eq] at empty
  rcases empty with h | h <;> simp [DesktopRect.pixels, DesktopRect.right, DesktopRect.bottom, h]

theorem add (h : Tidy width height added region) {rect : DesktopRect}
    (ok : rect.isEmpty = true ∨ rect.fits width height = true) :
    ∃ out, (∀ fuel ≥ addFuel, region.add fuel rect = some out) ∧
      Tidy width height (added ++ [rect]) out := by
  rcases ok with empty | fits
  · refine ⟨region, fun fuel enough => ?_, h.kept, h.bounded, ?_⟩
    · obtain ⟨fuel, rfl⟩ : ∃ rest, fuel = rest + 1 := ⟨fuel - 1, by rw [addFuel] at enough; omega⟩
      simp [DirtyRegion.add, addRect, empty]
    · intro other mem p inside
      rcases List.mem_append.mp mem with mem | mem
      · exact h.covers other mem p inside
      · rw [List.mem_singleton.mp mem, pixels_of_isEmpty empty] at inside
        simp at inside
  · obtain ⟨out, result, kept, covers, bounded⟩ :=
      addRect_spec h.kept fits h.bounded (Nat.le_refl addFuel)
    refine ⟨⟨out⟩, fun fuel enough => ?_, kept, bounded, ?_⟩
    · simp [DirtyRegion.add, addRect_mono enough result]
    · intro other mem p inside
      rcases List.mem_append.mp mem with mem | mem
      · exact covers p (.inr (h.covers other mem p inside))
      · exact covers p (.inl (List.mem_singleton.mp mem ▸ inside))

theorem addAll (h : Tidy width height added region) {rects : List DesktopRect}
    (ok : ∀ rect ∈ rects, rect.isEmpty = true ∨ rect.fits width height = true) :
    ∃ out, (∀ fuel ≥ addFuel, rects.foldlM (DirtyRegion.add fuel) region = some out) ∧
      Tidy width height (added ++ rects) out := by
  induction rects generalizing added region with
  | nil => exact ⟨region, fun _ _ => rfl, by simpa using h⟩
  | cons rect rects ih =>
    obtain ⟨next, first, tidy⟩ := h.add (ok rect List.mem_cons_self)
    obtain ⟨out, others, tidy⟩ := ih tidy fun rect mem => ok rect (List.mem_cons_of_mem _ mem)
    refine ⟨out, fun fuel enough => ?_, by simpa using tidy⟩
    simp [first fuel enough, others fuel enough]

end Tidy

namespace DirtyRegion

theorem mem_covered {region : DirtyRegion} {p : Nat × Nat} :
    p ∈ region.covered ↔ Covers region.rects p := by
  obtain ⟨rects⟩ := region
  induction rects with
  | nil => simp [covered, Covers]
  | cons rect rects ih => simpa [covered, Covers] using or_congr_right ih

theorem area_eq_card {region : DirtyRegion}
    (apart : region.rects.Pairwise fun a b => a.touches b = false) :
    region.area = region.covered.card := by
  obtain ⟨rects⟩ := region
  induction rects with
  | nil => rfl
  | cons rect rects ih =>
    obtain ⟨first, others⟩ := List.pairwise_cons.mp apart
    have disjoint : Disjoint rect.pixels (DirtyRegion.mk rects).covered := by
      rw [Finset.disjoint_left]
      intro p inside covers
      obtain ⟨other, mem, inOther⟩ := mem_covered.mp covers
      exact Finset.disjoint_left.mp (DesktopRect.disjoint_of_apart (first other mem)) inside inOther
    calc
      (DirtyRegion.mk (rect :: rects)).area = rect.area + (DirtyRegion.mk rects).area := by
        simp [area]
      _ = rect.pixels.card + (DirtyRegion.mk rects).covered.card := by
        rw [DesktopRect.card_pixels, ih others]
      _ = (rect.pixels ∪ (DirtyRegion.mk rects).covered).card :=
        (Finset.card_union_of_disjoint disjoint).symm

end DirtyRegion

theorem foldlM_perform (fuel : Nat) (calls : List RegionCall) (region : DirtyRegion) :
    calls.foldlM (RegionCall.perform fuel) region =
      (calls.flatMap RegionCall.rects).foldlM (DirtyRegion.add fuel) region := by
  induction calls generalizing region with
  | nil => rfl
  | cons call calls ih =>
    have first : call.perform fuel region = call.rects.foldlM (DirtyRegion.add fuel) region := by
      cases call <;> simp [RegionCall.perform, RegionCall.rects, DirtyRegion.extend]
    simp only [List.foldlM_cons, List.flatMap_cons, List.foldlM_append, first]
    exact congrArg _ (funext ih)

/-- Adding never under-covers; the list stays bounded, inside the frame and apart. -/
theorem region_exact (width height : UInt16) (calls : List RegionCall)
    (ok : ∀ call ∈ calls, ∀ rect ∈ call.rects,
      rect.isEmpty = true ∨ rect.fits width height = true) :
    ∃ region : DirtyRegion,
      (∀ fuel ≥ addFuel, calls.foldlM (RegionCall.perform fuel) {} = some region) ∧
      region.rects.length ≤ maxDirtyRects ∧
      (∀ call ∈ calls, ∀ rect ∈ call.rects, rect.pixels ⊆ region.covered) ∧
      (∀ rect ∈ region.rects, rect.isEmpty = false ∧ rect.fits width height = true) ∧
      region.rects.Pairwise (fun a b => a.touches b = false) ∧
      region.area = region.covered.card := by
  have allOk : ∀ rect ∈ calls.flatMap RegionCall.rects,
      rect.isEmpty = true ∨ rect.fits width height = true := by
    intro rect mem
    obtain ⟨call, inCalls, inCall⟩ := List.mem_flatMap.mp mem
    exact ok call inCalls rect inCall
  obtain ⟨region, added, tidy⟩ := Tidy.start.addAll allOk
  refine ⟨region, fun fuel enough => (foldlM_perform ..).trans (added fuel enough), tidy.bounded,
    fun call mem rect inCall p inside => ?_, fun rect mem => ?_, tidy.kept.apart,
    DirtyRegion.area_eq_card tidy.kept.apart⟩
  · exact DirtyRegion.mem_covered.mpr
      (tidy.covers rect (List.mem_flatMap.mpr ⟨call, mem, inCall⟩) p inside)
  · exact ⟨not_isEmpty (tidy.kept.fits rect mem), tidy.kept.fits rect mem⟩

theorem region_exact_sample : ∃ region : DirtyRegion,
      (∀ fuel ≥ addFuel, [RegionCall.add ⟨1, 1, 2, 2⟩, .extend ⟨[⟨3, 1, 4, 1⟩, ⟨9, 9, 0, 1⟩]⟩].foldlM
        (RegionCall.perform fuel) {} = some region) ∧
      region.area = region.covered.card := by
  have ok : ∀ call ∈ [RegionCall.add ⟨1, 1, 2, 2⟩, .extend ⟨[⟨3, 1, 4, 1⟩, ⟨9, 9, 0, 1⟩]⟩],
      ∀ rect ∈ call.rects, rect.isEmpty = true ∨ rect.fits 10 10 = true := by
    simp only [List.forall_mem_cons, RegionCall.rects]
    decide
  obtain ⟨region, added, -, -, -, -, area⟩ := region_exact 10 10 _ ok
  exact ⟨region, added, area⟩

end NoriShell.Desktop

import Mathlib
import NoriShell.Collections.SwapRemove

/-! The dirty region of `desktop-protocol`: a bounded list of changed rectangles. -/

namespace NoriShell.Desktop

open Collections

def maxDirtyRects : Nat := 16

structure DesktopRect where
  x : UInt16
  y : UInt16
  width : UInt16
  height : UInt16
  deriving DecidableEq, Repr

namespace DesktopRect

def right (rect : DesktopRect) : Nat := rect.x.toNat + rect.width.toNat
def bottom (rect : DesktopRect) : Nat := rect.y.toNat + rect.height.toNat

def fits (rect : DesktopRect) (width height : UInt16) : Bool :=
  rect.width ≠ 0 && rect.height ≠ 0 && rect.right ≤ width.toNat && rect.bottom ≤ height.toNat

/-- The casts to `u16` truncate. -/
def union (a b : DesktopRect) : DesktopRect :=
  let x := min a.x b.x
  let y := min a.y b.y
  { x
    y
    width := .ofNat (max a.right b.right - x.toNat)
    height := .ofNat (max a.bottom b.bottom - y.toNat) }

def area (rect : DesktopRect) : Nat := rect.width.toNat * rect.height.toNat

def contains (a b : DesktopRect) : Bool :=
  a.x ≤ b.x && a.y ≤ b.y && b.right ≤ a.right && b.bottom ≤ a.bottom

def touches (a b : DesktopRect) : Bool :=
  a.x.toNat ≤ b.right && b.x.toNat ≤ a.right && a.y.toNat ≤ b.bottom && b.y.toNat ≤ a.bottom

def isEmpty (rect : DesktopRect) : Bool := rect.width = 0 || rect.height = 0

def pixels (rect : DesktopRect) : Finset (Nat × Nat) :=
  Finset.Ico rect.x.toNat rect.right ×ˢ Finset.Ico rect.y.toNat rect.bottom

end DesktopRect

/-- How the first loop of `add` ends: at a rectangle that contains the new one, or
with no rectangle left that touches it. -/
inductive Absorbed where
  | contained (rects : List DesktopRect)
  | apart (rects : List DesktopRect) (next : DesktopRect)

/-- The first loop of `add`.  Here and below `none` is a loop out of fuel, or an index
out of bounds. -/
def absorb : Nat → List DesktopRect → DesktopRect → Option Absorbed
  | 0, _, _ => none
  | fuel + 1, rects, next =>
    if rects.any (·.contains next) then some (.contained rects)
    else
      match rects.findIdx? (·.touches next) with
      | some index => do
        let (removed, rects) ← swapRemove? rects index
        absorb fuel rects (next.union removed)
      | none => some (.apart rects next)

def growth (a b : DesktopRect) : Nat := (a.union b).area - (a.area + b.area)

def closer (best : Nat × Nat × Nat) (pair : (DesktopRect × Nat) × (DesktopRect × Nat)) :
    Nat × Nat × Nat :=
  if growth pair.1.1 pair.2.1 < best.2.2 then
    (pair.1.2, pair.2.2, growth pair.1.1 pair.2.1)
  else best

def indexPairs (rects : List DesktopRect) : List ((DesktopRect × Nat) × (DesktopRect × Nat)) :=
  rects.zipIdx.flatMap fun a => (rects.zipIdx.drop (a.2 + 1)).map (a, ·)

def closestPair (rects : List DesktopRect) : Nat × Nat × Nat :=
  (indexPairs rects).foldl closer (0, 1, 2 ^ 64 - 1)

mutual

def addRect : Nat → List DesktopRect → DesktopRect → Option (List DesktopRect)
  | 0, _, _ => none
  | fuel + 1, rects, rect =>
    if rect.isEmpty then some rects
    else
      match absorb fuel rects rect with
      | none => none
      | some (.contained rects) => some rects
      | some (.apart rects next) => shrink fuel (rects ++ [next])

/-- The second loop of `add`. -/
def shrink : Nat → List DesktopRect → Option (List DesktopRect)
  | 0, _ => none
  | fuel + 1, rects =>
    if rects.length > maxDirtyRects then
      let best := closestPair rects
      match swapRemove? rects best.2.1 with
      | none => none
      | some (second, rects) =>
        match swapRemove? rects best.1 with
        | none => none
        | some (first, rects) =>
          match addRect fuel rects (first.union second) with
          | none => none
          | some rects => shrink fuel rects
    else some rects

end

structure DirtyRegion where
  rects : List DesktopRect := []
  deriving DecidableEq, Repr

namespace DirtyRegion

def add (fuel : Nat) (region : DirtyRegion) (rect : DesktopRect) : Option DirtyRegion :=
  (addRect fuel region.rects rect).map DirtyRegion.mk

def extend (fuel : Nat) (region other : DirtyRegion) : Option DirtyRegion :=
  other.rects.foldlM (add fuel) region

def area (region : DirtyRegion) : Nat := (region.rects.map DesktopRect.area).sum

def fits (region : DirtyRegion) (width height : UInt16) : Bool :=
  region.rects.all (·.fits width height)

def covered (region : DirtyRegion) : Finset (Nat × Nat) :=
  region.rects.foldr (fun rect pixels => rect.pixels ∪ pixels) ∅

end DirtyRegion

inductive RegionCall where
  | add (rect : DesktopRect)
  | extend (other : DirtyRegion)

namespace RegionCall

def perform (fuel : Nat) (region : DirtyRegion) : RegionCall → Option DirtyRegion
  | .add rect => region.add fuel rect
  | .extend other => region.extend fuel other

def rects : RegionCall → List DesktopRect
  | .add rect => [rect]
  | .extend other => other.rects

end RegionCall

end NoriShell.Desktop

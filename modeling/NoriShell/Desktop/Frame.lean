import NoriShell.Collections.Check
import NoriShell.Collections.Slices
import NoriShell.Desktop.Region

/-! Frames of packed RGBA rows, and the patches that carry their changed rectangles. -/

namespace NoriShell.Desktop

open Collections

def maxPixels : Nat := 16777216
def maxDimension : Nat := 8192

/-- `panicked` stands for an index out of bounds. -/
inductive EngineError where
  | invalidConfiguration
  | unsupportedOperation
  | protocol
  | resourceLimit
  | connectionLost
  | timeout
  | cancelled
  | staleInput
  | panicked
  deriving DecidableEq, Repr

def orPanic {α : Type} : Option α → Except EngineError α
  | some a => .ok a
  | none => .error .panicked

structure DesktopFrame where
  width : UInt16
  height : UInt16
  rgba : List UInt8
  deriving DecidableEq, Repr

structure FramePatch where
  width : UInt16
  height : UInt16
  rects : List (DesktopRect × List UInt8)
  deriving DecidableEq, Repr

def frameLen (width height : UInt16) : Except EngineError Nat :=
  let pixels := width.toNat * height.toNat
  if width = 0 ∨ height = 0 ∨ width.toNat > maxDimension ∨ height.toNat > maxDimension ∨
      pixels > maxPixels then
    .error .resourceLimit
  else .ok (pixels * 4)

def rowStart (stride x y : UInt16) (row : Nat) : Nat :=
  ((y.toNat + row) * stride.toNat + x.toNat) * 4

def readRect (rgba : List UInt8) (stride : UInt16) (rect : DesktopRect) :
    Except EngineError (List UInt8) := do
  let rows ← (List.range rect.height.toNat).mapM fun row =>
    orPanic (slice? rgba (rowStart stride rect.x rect.y row) (rect.width.toNat * 4))
  return rows.flatten

namespace DesktopFrame

def new (width height : UInt16) : Except EngineError DesktopFrame := do
  let len ← frameLen width height
  return { width, height, rgba := List.replicate len 0 }

def checkRect (frame : DesktopFrame) (rect : DesktopRect) : Except EngineError Unit := do
  reject (rect.width = 0 ∨ rect.height = 0 ∨ rect.right > frame.width.toNat ∨
    rect.bottom > frame.height.toNat) .protocol
  let len ← frameLen frame.width frame.height
  reject (frame.rgba.length ≠ len) .protocol

def extractPatch (frame : DesktopFrame) (region : DirtyRegion) : Except EngineError FramePatch := do
  let rects ← region.rects.mapM fun rect => do
    frame.checkRect rect
    return (rect, ← readRect frame.rgba frame.width rect)
  return { width := frame.width, height := frame.height, rects }

def writeRect (frame : DesktopFrame) (rect : DesktopRect) (rgba : List UInt8) :
    Except EngineError DesktopFrame := do
  frame.checkRect rect
  let rowBytes := rect.width.toNat * 4
  reject (rgba.length ≠ rowBytes * rect.height.toNat) .protocol
  let bytes ← (List.range rect.height.toNat).foldlM (fun bytes row => do
    let part ← orPanic (slice? rgba (row * rowBytes) rowBytes)
    orPanic (overwrite? bytes (rowStart frame.width rect.x rect.y row) part)) frame.rgba
  return { frame with rgba := bytes }

def applyPatch (frame : DesktopFrame) (patch : FramePatch) : Except EngineError DesktopFrame := do
  reject (patch.width ≠ frame.width ∨ patch.height ≠ frame.height) .protocol
  patch.rects.foldlM (fun frame entry => frame.writeRect entry.1 entry.2) frame

/-- Rows are copied from the last one up when the target lies below the source. -/
def copyRect (frame : DesktopFrame) (sourceX sourceY : UInt16) (rect : DesktopRect) :
    Except EngineError DesktopFrame := do
  frame.checkRect { rect with x := sourceX, y := sourceY }
  frame.checkRect rect
  let rows := List.range rect.height.toNat
  let bytes ← (if rect.y > sourceY then rows.reverse else rows).foldlM (fun bytes row => do
    let part ← orPanic (slice? bytes (rowStart frame.width sourceX sourceY row)
      (rect.width.toNat * 4))
    orPanic (overwrite? bytes (rowStart frame.width rect.x rect.y row) part)) frame.rgba
  return { frame with rgba := bytes }

end DesktopFrame

inductive FrameOperation where
  | write (rect : DesktopRect) (rgba : List UInt8)
  | copy (sourceX sourceY : UInt16) (rect : DesktopRect)

namespace FrameOperation

def destination : FrameOperation → DesktopRect
  | .write rect _ => rect
  | .copy _ _ rect => rect

def perform (frame : DesktopFrame) : FrameOperation → Except EngineError DesktopFrame
  | .write rect rgba => frame.writeRect rect rgba
  | .copy sourceX sourceY rect => frame.copyRect sourceX sourceY rect

end FrameOperation

structure Canvas where
  frame : DesktopFrame
  region : DirtyRegion

def Canvas.draw (fuel : Nat) (canvas : Canvas) (operation : FrameOperation) :
    Except EngineError Canvas := do
  let frame ← operation.perform canvas.frame
  let region ← orPanic (canvas.region.add fuel operation.destination)
  return { frame, region }

def maxCursorDimension : Nat := 384

structure CursorBitmap where
  width : UInt16
  height : UInt16
  hotspotX : UInt16
  hotspotY : UInt16
  rgba : List UInt8
  deriving DecidableEq, Repr

/-- A hotspot beyond the far edge is moved onto it. -/
def CursorBitmap.new (width height hotspotX hotspotY : UInt16) (rgba : List UInt8) :
    Except EngineError CursorBitmap := do
  reject (width = 0 ∨ height = 0 ∨ width.toNat > maxCursorDimension ∨
    height.toNat > maxCursorDimension ∨ rgba.length ≠ width.toNat * height.toNat * 4) .protocol
  return {
    width
    height
    hotspotX := min hotspotX (width - 1)
    hotspotY := min hotspotY (height - 1)
    rgba }

inductive DesktopCursor where
  | default
  | hidden
  | bitmap (bitmap : CursorBitmap)
  deriving DecidableEq, Repr

end NoriShell.Desktop

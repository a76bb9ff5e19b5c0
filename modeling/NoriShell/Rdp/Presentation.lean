import NoriShell.Desktop.FrameLaws

/-! The presentation state of `rdp-client`: what changed in the decoded image since it was last
published, and the last cursor sent. -/

namespace NoriShell.Rdp

open Collections Desktop

abbrev Instant := Nat

def publishInterval : Nat := 16 * 1000000

abbrev DecodedImage := DesktopFrame

/-- A rectangle as the decoder reports it, the last column and row included. -/
structure InclusiveRectangle where
  left : UInt16
  top : UInt16
  right : UInt16
  bottom : UInt16
  deriving DecidableEq, Repr

def InclusiveRectangle.Holds (rect : InclusiveRectangle) (p : Nat × Nat) : Prop :=
  rect.left.toNat ≤ p.1 ∧ p.1 ≤ rect.right.toNat ∧ rect.top.toNat ≤ p.2 ∧ p.2 ≤ rect.bottom.toNat

structure DecodedPointer where
  width : UInt16
  height : UInt16
  hotspotX : UInt16
  hotspotY : UInt16
  bitmapData : List UInt8
  deriving DecidableEq, Repr

/-- A pointer of the cache, with the identity of its allocation. -/
structure SharedPointer where
  identity : Nat
  pointer : DecodedPointer
  deriving DecidableEq, Repr

/-- The outputs of a processing batch that `observe` tells apart. -/
inductive ActiveStageOutput where
  | graphicsUpdate (rect : InclusiveRectangle)
  | pointerDefault
  | pointerHidden
  | pointerBitmap (pointer : SharedPointer)
  | other
  deriving DecidableEq, Repr

inductive EngineEvent where
  | frame (frame : DesktopFrame)
  | framePatch (patch : FramePatch)
  | cursor (cursor : DesktopCursor)
  deriving DecidableEq

def dirtyRect (left top right bottom width height : UInt16) : Option DesktopRect :=
  if left > right ∨ top > bottom ∨ right ≥ width ∨ bottom ≥ height then none
  else
    let rect : DesktopRect :=
      { x := left, y := top, width := right - left + 1, height := bottom - top + 1 }
    if rect.fits width height then some rect else none

inductive PublishKind where
  | nothing
  | full
  | patch
  deriving DecidableEq, Repr

def publishKind (forceFull : Bool) (region : DirtyRegion) (width height : UInt16) : PublishKind :=
  if forceFull || !region.fits width height then .full
  else if region.rects.isEmpty then .nothing
  else
    let frameArea := width.toNat * height.toNat
    if region.area * 10 ≥ frameArea * 6 then .full else .patch

def cursorFromPointer (pointer : DecodedPointer) : DesktopCursor :=
  if pointer.width = 0 ∨ pointer.height = 0 then .hidden
  else
    match CursorBitmap.new pointer.width pointer.height pointer.hotspotX pointer.hotspotY
        pointer.bitmapData with
    | .ok bitmap => .bitmap bitmap
    | .error _ => .default

structure Presentation where
  region : DirtyRegion := {}
  needsFull : Bool := false
  pending : Bool := false
  lastPublish : Option Instant := none
  publishedSize : Option (UInt16 × UInt16) := none
  cursor : Option DesktopCursor := none
  cursorSource : Option SharedPointer := none
  deriving DecidableEq

namespace Presentation

variable (p : Presentation)

def mark (fuel : Nat) (rect : Option DesktopRect) : Except EngineError Presentation :=
  match rect with
  | some rect => do
    let region ← orPanic (p.region.add fuel rect)
    return { p with pending := true, region }
  | none => .ok { p with pending := true, needsFull := true }

def resetAfterActivation : Presentation :=
  { p with
    needsFull := true
    pending := true
    region := {}
    lastPublish := none
    cursorSource := none }

def due (now : Instant) : Option Instant :=
  if !p.pending then none
  else
    match p.lastPublish with
    | some last => some (last + publishInterval)
    | none => some now

def isBitmap : DesktopCursor → Bool
  | .bitmap _ => true
  | _ => false

def showCursor (next : DesktopCursor) : Presentation × List EngineEvent :=
  let p := if isBitmap next then p else { p with cursorSource := none }
  if p.cursor = some next then (p, [])
  else ({ p with cursor := some next }, [.cursor next])

def setCursor : ActiveStageOutput → Presentation × List EngineEvent
  | .pointerDefault => p.showCursor .default
  | .pointerHidden => p.showCursor .hidden
  | .pointerBitmap pointer =>
    if p.cursor.any isBitmap && p.cursorSource.any (·.identity = pointer.identity) then (p, [])
    else { p with cursorSource := some pointer }.showCursor (cursorFromPointer pointer.pointer)
  | _ => (p, [])

def updates (outputs : List ActiveStageOutput) : List InclusiveRectangle :=
  outputs.filterMap fun
    | .graphicsUpdate rect => some rect
    | _ => none

def lastPointer (outputs : List ActiveStageOutput) : Option ActiveStageOutput :=
  (outputs.filter fun
    | .pointerDefault | .pointerHidden | .pointerBitmap _ => true
    | _ => false).getLast?

/-- The rectangles that `observe` marks: the exact damage if there is any, and the updates
otherwise. -/
def reported (outputs : List ActiveStageOutput) (damage : List InclusiveRectangle) :
    List InclusiveRectangle :=
  if (updates outputs).isEmpty then []
  else if damage.isEmpty then updates outputs
  else damage

def markReported (fuel : Nat) (image : DecodedImage) (p : Presentation)
    (rect : InclusiveRectangle) : Except EngineError Presentation :=
  p.mark fuel (dirtyRect rect.left rect.top rect.right rect.bottom image.width image.height)

def observe (fuel : Nat) (outputs : List ActiveStageOutput) (damage : List InclusiveRectangle)
    (image : DecodedImage) : Except EngineError (Presentation × List EngineEvent) := do
  let p ← (reported outputs damage).foldlM (markReported fuel image) p
  match lastPointer outputs with
  | some output => return p.setCursor output
  | none => return (p, [])

def publication (image : DecodedImage) :
    Except EngineError (Option (UInt16 × UInt16) × List EngineEvent) :=
  let forceFull := p.needsFull || p.publishedSize ≠ some (image.width, image.height)
  match publishKind forceFull p.region image.width image.height with
  | .nothing => .ok (p.publishedSize, [])
  | .full => .ok (some (image.width, image.height), [.frame image])
  | .patch => do
    let rects ← p.region.rects.mapM fun rect =>
      return (rect, ← readRect image.rgba image.width rect)
    return (p.publishedSize, [.framePatch { width := image.width, height := image.height, rects }])

def flush (now : Instant) (image : DecodedImage) :
    Except EngineError (Presentation × List EngineEvent) := do
  let expected ← frameLen image.width image.height
  reject (image.rgba.length ≠ expected) .protocol
  let (publishedSize, events) ← p.publication image
  return ({ p with
    publishedSize
    region := {}
    needsFull := false
    pending := false
    lastPublish := some now }, events)

end Presentation

/-- A viewer replaces its frame, or applies a patch to the frame it has. -/
def view (viewer : Option DesktopFrame) : EngineEvent → Option DesktopFrame
  | .frame frame => some frame
  | .framePatch patch => do
    let frame ← viewer
    (frame.applyPatch patch).toOption
  | .cursor _ => viewer

/-- The presentation with the image and the viewer, and whether the image was changed since the
last successful flush. -/
structure Picture where
  image : DecodedImage
  presentation : Presentation := {}
  viewer : Option DesktopFrame := none
  changed : Bool := false

inductive PictureInput where
  | process (outputs : List ActiveStageOutput) (damage : List InclusiveRectangle)
    (image : DecodedImage)
  | activate (image : DecodedImage)
  | flush

namespace Picture

variable (fuel : Nat) (now : Instant) (s : Picture)

def step : PictureInput → Except EngineError (Picture × List EngineEvent)
  | .process outputs damage image => do
    let (presentation, events) ← s.presentation.observe fuel outputs damage image
    return ({
      image
      presentation
      viewer := events.foldl view s.viewer
      changed := s.changed || image ≠ s.image }, events)
  | .activate image =>
    .ok ({ s with
      image
      presentation := s.presentation.resetAfterActivation
      changed := true }, [])
  | .flush => do
    let (presentation, events) ← s.presentation.flush now s.image
    return ({ s with
      presentation
      viewer := events.foldl view s.viewer
      changed := false }, events)

def Allowed : PictureInput → Prop
  | .process outputs damage image =>
    image.width = s.image.width ∧ image.height = s.image.height ∧
      image.rgba.length = s.image.rgba.length ∧
      ∀ i, image.rgba[i]? ≠ s.image.rgba[i]? →
        ∃ rect ∈ Presentation.reported outputs damage, rect.Holds (pixelOf image.width i)
  | .activate _ | .flush => True

/-- The pictures that allowed inputs lead to, from any image at the start and at whatever times.
A flush that fails changes nothing. -/
inductive Reached (fuel : Nat) : Picture → Prop
  | start (image : DecodedImage) : Reached fuel { image }
  | step {s after : Picture} {now : Instant} {input : PictureInput} {events : List EngineEvent}
    (reached : Reached fuel s) (allowed : s.Allowed input)
    (done : s.step fuel now input = .ok (after, events)) : Reached fuel after

end Picture

end NoriShell.Rdp

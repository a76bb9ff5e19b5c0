import NoriShell.Desktop.Frame

/-! The frame publisher of `vnc-client`: server events draw on the decode surface, and
completed updates reach the viewer as frames and patches. -/

namespace NoriShell.Vnc

open Collections Desktop

abbrev Instant := Nat

def publishInterval : Nat := 16 * 1000000

inductive ServerEvent where
  | setResolution (width height : UInt16)
  | rawImage (rect : DesktopRect) (bytes : List UInt8)
  | copy (destination source : DesktopRect)
  | framebufferUpdateComplete
  deriving DecidableEq

inductive EngineEvent where
  | frame (frame : DesktopFrame)
  | framePatch (patch : FramePatch)
  deriving DecidableEq

structure FramePublisher where
  frame : Option DesktopFrame := none
  inProgress : DirtyRegion := {}
  committed : DirtyRegion := {}
  requiresFull : Bool := false
  ready : Bool := false
  lastPublish : Option Instant := none
  deriving DecidableEq

namespace FramePublisher

variable (publisher : FramePublisher)

def setResolution (width height : UInt16) : Except EngineError FramePublisher :=
  if publisher.frame.any fun frame => frame.width = width && frame.height = height then
    .ok publisher
  else do
    let frame ← DesktopFrame.new width height
    return { publisher with
      frame := some frame
      inProgress := {}
      committed := {}
      requiresFull := true
      ready := false }

def theFrame : Except EngineError DesktopFrame :=
  match publisher.frame with
  | some frame => .ok frame
  | none => .error .protocol

def mark (fuel : Nat) (rect : DesktopRect) : Except EngineError FramePublisher := do
  let inProgress ← orPanic (publisher.inProgress.add fuel rect)
  return { publisher with inProgress }

def hasPending : Bool := publisher.ready && publisher.frame.isSome

def flushReady : Bool := publisher.hasPending && publisher.inProgress.rects.isEmpty

def due (now : Instant) : Bool :=
  match publisher.lastPublish with
  | none => true
  | some last => last + publishInterval ≤ now

def published (now : Instant) : FramePublisher :=
  { publisher with
    requiresFull := false
    ready := false
    committed := {}
    lastPublish := some now }

def nextEvent (frame : DesktopFrame) : Except EngineError EngineEvent :=
  let total := frame.width.toNat * frame.height.toNat
  if publisher.requiresFull ∨ total * 6 ≤ publisher.committed.area * 10 then .ok (.frame frame)
  else do
    let patch ← frame.extractPatch publisher.committed
    return .framePatch patch

def publish (now : Instant) : Except EngineError (FramePublisher × Option EngineEvent) :=
  if publisher.hasPending then do
    let frame ← publisher.theFrame
    let event ← publisher.nextEvent frame
    return (publisher.published now, some event)
  else .ok (publisher, none)

def complete (fuel : Nat) (now : Instant) :
    Except EngineError (FramePublisher × Option EngineEvent) := do
  let committed ← orPanic (publisher.committed.extend fuel publisher.inProgress)
  let publisher := { publisher with
    committed
    inProgress := {}
    ready := publisher.frame.isSome && (publisher.requiresFull || !committed.rects.isEmpty) }
  if publisher.due now then publisher.publish now else return (publisher, none)

end FramePublisher

/-- The negotiated wire format leaves the fourth byte of a pixel undefined. -/
def fillAlpha (bytes : List UInt8) : List UInt8 :=
  bytes.mapIdx fun i byte => if i % 4 = 3 then 255 else byte

def draw (fuel : Nat) (publisher : FramePublisher) (operation : FrameOperation) :
    Except EngineError FramePublisher := do
  let frame ← publisher.theFrame
  let frame ← operation.perform frame
  { publisher with frame := some frame }.mark fuel operation.destination

def handleServerEvent (fuel : Nat) (now : Instant) (publisher : FramePublisher) :
    ServerEvent → Except EngineError (FramePublisher × Option EngineEvent)
  | .setResolution width height => do
    return (← publisher.setResolution width height, none)
  | .rawImage rect bytes => do
    let len ← frameLen rect.width rect.height
    reject (bytes.length ≠ len) .protocol
    return (← draw fuel publisher (.write rect (fillAlpha bytes)), none)
  | .copy destination source => do
    return (← draw fuel publisher (.copy source.x source.y destination), none)
  | .framebufferUpdateComplete => publisher.complete fuel now

/-- A viewer replaces its frame, or applies a patch to the frame it has. -/
def view (viewer : Option DesktopFrame) : EngineEvent → Option DesktopFrame
  | .frame frame => some frame
  | .framePatch patch => do
    let frame ← viewer
    (frame.applyPatch patch).toOption

/-- The publisher and its viewer, with the surface as of the last complete update, and
whether anything was drawn since then, or completed since the last publish. -/
structure Screen where
  publisher : FramePublisher := {}
  viewer : Option DesktopFrame := none
  completed : Option DesktopFrame := none
  underway : Bool := false
  unpublished : Bool := false

inductive Input where
  | server (event : ServerEvent)
  | timer

namespace Screen

variable (fuel : Nat) (now : Instant) (s : Screen)

def follow (publisher : FramePublisher) (event : Option EngineEvent) : Screen :=
  match event with
  | none => { s with publisher }
  | some event =>
    { s with publisher, viewer := view s.viewer event, unpublished := false }

def note : ServerEvent → Screen
  | .setResolution width height =>
    if s.publisher.frame.any fun frame => frame.width = width && frame.height = height then s
    else { s with underway := true }
  | .rawImage _ _ | .copy _ _ => { s with underway := true }
  | .framebufferUpdateComplete =>
    { s with
      completed := s.publisher.frame
      underway := false
      unpublished := s.unpublished || s.underway }

def step : Input → Except EngineError (Screen × Option EngineEvent)
  | .server event => do
    let (publisher, published) ← handleServerEvent fuel now s.publisher event
    return ((s.note event).follow publisher published, published)
  | .timer => do
    let (publisher, published) ← s.publisher.publish now
    return (s.follow publisher published, published)

def enabled : Input → Bool
  | .server _ => true
  | .timer => s.publisher.flushReady

/-- The screens that inputs handled without an error lead to, at whatever times. -/
inductive Reached (fuel : Nat) : Screen → Prop
  | start : Reached fuel {}
  | step {s after : Screen} {now : Instant} {input : Input} {event : Option EngineEvent}
    (reached : Reached fuel s) (enabled : s.enabled input = true)
    (done : s.step fuel now input = .ok (after, event)) : Reached fuel after

end Screen

end NoriShell.Vnc

import NoriShell.Desktop.Input
import NoriShell.Rdp.Database

/-! The inputs of `rdp-client`: a batch is recorded in the `Database` and then written in
fenced chunks; a change of focus releases what is recorded. -/

namespace NoriShell.Rdp

open Collections Desktop

structure ImageSize where
  width : UInt16
  height : UInt16
  width_pos : 0 < width
  height_pos : 0 < height

def ImageSize.clip (size : ImageSize) (x y : UInt16) : MousePosition :=
  ⟨min x (size.width - 1), min y (size.height - 1)⟩

def pointerButtons : List (UInt8 × MouseButton) := [(1, .left), (2, .middle), (4, .right)]

def operations (size : ImageSize) : DesktopInput → Except EngineError (List Operation)
  | .key scanCode _ down =>
    let key : Scancode := { extended := scanCode &&& 0x100 ≠ 0, code := (scanCode &&& 0xff).toUInt8 }
    .ok [if down then .keyPressed key else .keyReleased key]
  | .pointer x y buttons =>
    .ok (.mouseMove (size.clip x y) :: pointerButtons.map fun (bit, button) =>
      if buttons &&& bit ≠ 0 then .mouseButtonPressed button else .mouseButtonReleased button)
  | .wheel x y deltaX deltaY =>
    .ok (.mouseMove (size.clip x y) ::
      ([(true, deltaY), (false, deltaX)].filter (·.2 ≠ 0)).map fun (isVertical, units) =>
        .wheelRotations { isVertical, rotationUnits := max (-255) (min 255 units) })
  | .text content =>
    .ok (content.toList.flatMap fun ch => [.unicodeKeyPressed ch, .unicodeKeyReleased ch])
  | _ => .error .unsupportedOperation

/-- How `write_fenced` ends: a message is delivered whole, or the focus changes before its
first byte, or the connection is given up. -/
inductive FencedWrite where
  | written
  | stale
  | connectionLost
  | timeout
  deriving DecidableEq

/-- What the sender of a chunk meets: the control channels at its two checks, whether the chunk
can be encoded, and its write. -/
structure Moment where
  first : EngineControl
  encodes : Bool
  second : EngineControl
  write : FencedWrite

/-- The chunks of a batch, one after the other.  The server gets those written before the first
error. -/
def sendChunks (command : EngineCommand) (moments : Nat → Moment) (down : Finset Held) :
    Nat → List (List FastPathInputEvent) → Finset Held × Except EngineError Unit
  | _, [] => (down, .ok ())
  | i, chunk :: chunks =>
    if !(moments i).first.accepts command then (down, .error .staleInput)
    else if !(moments i).encodes then (down, .error .protocol)
    else if !(moments i).second.accepts command then (down, .error .staleInput)
    else if command.focusEpoch = none then (down, .error .staleInput)
    else
      match (moments i).write with
      | .written => sendChunks command moments (chunk.foldl receive down) (i + 1) chunks
      | .stale => (down, .error .staleInput)
      | .connectionLost => (down, .error .connectionLost)
      | .timeout => (down, .error .timeout)

structure Session where
  database : Database := {}
  down : Finset Held := ∅
  deriving DecidableEq

namespace Session

variable (session : Session)

def batch (size : ImageSize) :
    DesktopInput → Except EngineError (Database × List FastPathInputEvent)
  | .releaseAll => .ok session.database.releaseAll
  | input => do return session.database.apply (← operations size input)

/-- Resizes and clipboard texts leave the database and what is down alone. -/
def sendInput (command : EngineCommand) (control : EngineControl) (size : ImageSize)
    (moments : Nat → Moment) : Session × Except EngineError Unit :=
  if !control.accepts command then (session, .error .staleInput)
  else
    match session.batch size command.input with
    | .error e => (session, .error e)
    | .ok (database, events) =>
      let (down, result) := sendChunks command moments session.down 0 (events.toChunks 15)
      (⟨database, down⟩, result)

end Session

def fatal : EngineError → Bool
  | .connectionLost | .timeout | .protocol => true
  | _ => false

def carryOn : Session × Except EngineError Unit → Option Session
  | (session, .ok ()) => some session
  | (session, .error e) => if fatal e then none else some session

/-- What the main loop takes up: a command with all it meets on its way, or a change of focus
whose release chunks are delivered, or lost with the session. -/
inductive Turn where
  | command (command : EngineCommand) (received sending : EngineControl) (size : ImageSize)
    (moments : Nat → Moment)
  | focusChanged (delivered : Bool)

namespace Session

variable (session : Session)

/-- `none` is the end of the session. -/
def step : Turn → Option Session
  | .command command received sending size moments =>
    if !received.accepts command then some session
    else
      match command.input.validate with
      | .error _ => some session
      | .ok () => carryOn (session.sendInput command sending size moments)
  | .focusChanged delivered =>
    let (database, events) := session.database.releaseAll
    if delivered then some ⟨database, (events.toChunks 15).flatten.foldl receive session.down⟩
    else none

end Session

end NoriShell.Rdp

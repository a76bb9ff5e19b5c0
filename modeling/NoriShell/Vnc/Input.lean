import NoriShell.Collections.BTreeMap
import NoriShell.Desktop.Input

/-! The inputs of `vnc-client`: what is planned before a write, settled after it and released
when the focus moves, and what the server makes of the events that reach it. -/

namespace NoriShell.Vnc

open Collections Desktop

def maxWheelSteps : Nat := 120

inductive X11Event where
  | keyEvent (keycode : Keysym) (down : Bool)
  | pointerEvent (x y : UInt16) (buttons : UInt8)
  | copyText (text : String)
  deriving DecidableEq

structure PointerState where
  x : UInt16 := 0
  y : UInt16 := 0
  buttons : UInt8 := 0
  deriving DecidableEq

structure InputState where
  pressed : BTreeSet Keysym := .empty
  pointer : PointerState := {}
  deriving DecidableEq

structure PlannedInput where
  events : List X11Event
  priority : Bool

def appendWheel (events : List X11Event) (x y : UInt16) (delta : Int16)
    (negativeButton positiveButton : UInt8) : Except EngineError (List X11Event) := do
  let steps := delta.toInt.natAbs
  reject (steps > maxWheelSteps) .resourceLimit
  let button := if delta < 0 then negativeButton else positiveButton
  return events ++ (List.replicate steps
    [X11Event.pointerEvent x y button, .pointerEvent x y 0]).flatten

def unicodeKeysym (character : Char) : Keysym :=
  let codepoint := character.toNat
  .ofNat (2 ^ 32) (if codepoint ≤ 0xff then codepoint else 0x01000000 ||| codepoint)

namespace InputState

variable (state : InputState)

def releaseEvents : List X11Event :=
  state.pressed.toList.map (.keyEvent · false) ++
    if state.pointer.buttons ≠ 0 then [.pointerEvent state.pointer.x state.pointer.y 0] else []

def clear : InputState :=
  { pressed := .empty, pointer := { state.pointer with buttons := 0 } }

/-- The plan may change the state even where it fails. -/
def plan (clipboardEnabled : Bool) : DesktopInput → InputState × Except EngineError PlannedInput
  | .key _ keysym down =>
    ({ state with pressed := if down then state.pressed.insert keysym else state.pressed },
      .ok { events := [.keyEvent keysym down], priority := false })
  | .pointer x y buttons =>
    ({ state with pointer := { x, y, buttons := state.pointer.buttons ||| buttons } },
      .ok { events := [.pointerEvent x y buttons], priority := false })
  | .wheel x y deltaX deltaY =>
    ({ state with pointer := { state.pointer with x, y } }, do
      let events ← appendWheel [] x y deltaX 0x20 0x40
      let events ← appendWheel events x y deltaY 0x08 0x10
      return { events, priority := false })
  | .text text =>
    (state, .ok {
      events := text.toList.flatMap fun character =>
        [.keyEvent (unicodeKeysym character) true, .keyEvent (unicodeKeysym character) false]
      priority := false })
  | .clipboard text =>
    (state,
      if !clipboardEnabled || !text.toList.all (·.toNat ≤ 0xff) then .error .unsupportedOperation
      else .ok { events := [.copyText text], priority := false })
  | .resize _ _ _ => (state, .error .unsupportedOperation)
  | .releaseAll => (state, .ok { events := state.releaseEvents, priority := true })

def settleSuccess : DesktopInput → InputState
  | .key _ keysym false => { state with pressed := state.pressed.erase keysym }
  | .pointer x y buttons => { state with pointer := { x, y, buttons } }
  | .releaseAll => state.clear
  | _ => state

end InputState

structure Server where
  keys : Finset Keysym := ∅
  buttons : UInt8 := 0
  deriving DecidableEq

namespace Server

def receive (server : Server) : X11Event → Server
  | .keyEvent keycode true => { server with keys := insert keycode server.keys }
  | .keyEvent keycode false => { server with keys := server.keys.erase keycode }
  | .pointerEvent _ _ buttons => { server with buttons }
  | .copyText _ => server

/-- A batch arrives whole, or not at all. -/
def receiveIf (delivered : Bool) (server : Server) (events : List X11Event) : Server :=
  if delivered then events.foldl receive server else server

end Server

structure Session where
  input : InputState := {}
  server : Server := {}
  deriving DecidableEq

/-- How the write of a batch ends.  A completed write was delivered; the others may have been.
An interruption also tells whether the releases that follow it are delivered. -/
inductive Outcome where
  | written
  | failed (delivered : Bool)
  | stopped (delivered released : Bool)
  | focusChanged (delivered released : Bool)
  deriving DecidableEq

/-- A command, what the control channels say before and after it is planned, and how its
write ends; or a release of everything while no command is handled. -/
inductive Turn where
  | command (input : DesktopInput) (before after : Bool) (outcome : Outcome)
  | release (released : Bool)

namespace Session

variable (clipboardEnabled : Bool) (session : Session)

/-- `release_all` forgets what is held before it writes the releases. -/
def releaseAll (released : Bool) : Session where
  input := session.input.clear
  server := session.server.receiveIf released session.input.releaseEvents

def dispatch (events : List X11Event) (delivered : Bool) : Session :=
  { session with server := session.server.receiveIf delivered events }

def settle (input : DesktopInput) (events : List X11Event) : Outcome → Session
  | .written =>
    let session := session.dispatch events true
    { session with input := session.input.settleSuccess input }
  | .failed delivered => session.dispatch events delivered
  | .stopped delivered released | .focusChanged delivered released =>
    (session.dispatch events delivered).releaseAll released

def handleCommand (input : DesktopInput) (before after : Bool) (outcome : Outcome) : Session :=
  if before then
    match input.validate with
    | .error _ => session
    | .ok () =>
      let (state, planned) := session.input.plan clipboardEnabled input
      let session := { session with input := state }
      match planned with
      | .error _ => session
      | .ok planned =>
        if after then session.settle input planned.events outcome else session
  else session

def step : Turn → Session
  | .command input before after outcome =>
    session.handleCommand clipboardEnabled input before after outcome
  | .release released => session.releaseAll released

end Session

end NoriShell.Vnc

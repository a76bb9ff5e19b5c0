import NoriShell.Collections.BTreeMap
import Mathlib.Data.Char
import Mathlib.Data.Finset.Basic

/-! The input `Database` of `ironrdp-input`: the keys and buttons that the client has put down,
the events that it sends, and what the server makes of them. -/

namespace NoriShell.Rdp

open Collections

inductive MouseButton where
  | left
  | middle
  | right
  | x1
  | x2
  deriving DecidableEq

namespace MouseButton

def asIdx : MouseButton → Fin 5
  | left => 0
  | middle => 1
  | right => 2
  | x1 => 3
  | x2 => 4

def fromIdx : Fin 5 → MouseButton
  | 0 => left
  | 1 => middle
  | 2 => right
  | 3 => x1
  | 4 => x2

end MouseButton

structure Scancode where
  code : UInt8
  extended : Bool
  deriving DecidableEq

namespace Scancode

def asIdx (scancode : Scancode) : Fin 512 :=
  .ofNat 512 (if scancode.extended then scancode.code.toNat + 256 else scancode.code.toNat)

def fromIdx (idx : Fin 512) : Scancode :=
  if idx.val ≥ 256 then ⟨.ofNat (idx.val - 256), true⟩ else ⟨.ofNat idx.val, false⟩

end Scancode

structure MousePosition where
  x : UInt16
  y : UInt16
  deriving DecidableEq

structure WheelRotations where
  isVertical : Bool
  rotationUnits : Int16

inductive Operation where
  | mouseButtonPressed (button : MouseButton)
  | mouseButtonReleased (button : MouseButton)
  | mouseMove (position : MousePosition)
  | wheelRotations (rotations : WheelRotations)
  | keyPressed (scancode : Scancode)
  | keyReleased (scancode : Scancode)
  | unicodeKeyPressed (character : Char)
  | unicodeKeyReleased (character : Char)

structure PointerFlags where
  verticalWheel : Bool := false
  horizontalWheel : Bool := false
  move : Bool := false
  leftButton : Bool := false
  rightButton : Bool := false
  middleButtonOrWheel : Bool := false
  down : Bool := false
  deriving DecidableEq

structure PointerXFlags where
  button1 : Bool := false
  button2 : Bool := false
  down : Bool := false
  deriving DecidableEq

structure KeyboardFlags where
  release : Bool := false
  extended : Bool := false
  deriving DecidableEq

structure MousePdu where
  flags : PointerFlags
  numberOfWheelRotationUnits : Int16
  position : MousePosition
  deriving DecidableEq

structure MouseXPdu where
  flags : PointerXFlags
  position : MousePosition
  deriving DecidableEq

inductive FastPathInputEvent where
  | mouseEvent (pdu : MousePdu)
  | mouseEventEx (pdu : MouseXPdu)
  | keyboardEvent (flags : KeyboardFlags) (code : UInt8)
  | unicodeKeyboardEvent (flags : KeyboardFlags) (code : UInt16)
  deriving DecidableEq

inductive MouseButtonFlags where
  | button (flags : PointerFlags)
  | pointer (flags : PointerXFlags)

def MouseButton.flags : MouseButton → MouseButtonFlags
  | left => .button { leftButton := true }
  | middle => .button { middleButtonOrWheel := true }
  | right => .button { rightButton := true }
  | x1 => .pointer { button1 := true }
  | x2 => .pointer { button2 := true }

def encodeUtf16 (character : Char) : List UInt16 :=
  let code := character.toNat
  if code < 0x10000 then [.ofNat code]
  else [.ofNat (0xD800 + (code - 0x10000) / 0x400), .ofNat (0xDC00 + (code - 0x10000) % 0x400)]

/-- The bit arrays are the sets of their ones. -/
structure Database where
  unicodeKeyboardState : BTreeSet Char := .empty
  keyboard : BTreeSet (Fin 512) := .empty
  mouseButtons : BTreeSet (Fin 5) := .empty
  mousePosition : MousePosition := ⟨0, 0⟩
  deriving DecidableEq

namespace Database

variable (db : Database)

def buttonEvent (down : Bool) (button : MouseButton) : FastPathInputEvent :=
  match button.flags with
  | .button flags =>
    .mouseEvent {
      flags := { flags with down }, numberOfWheelRotationUnits := 0, position := db.mousePosition }
  | .pointer flags => .mouseEventEx { flags := { flags with down }, position := db.mousePosition }

def keyEvent (down : Bool) (scancode : Scancode) : FastPathInputEvent :=
  .keyboardEvent { release := !down, extended := scancode.extended } scancode.code

def unicodeEvent (down : Bool) (code : UInt16) : FastPathInputEvent :=
  .unicodeKeyboardEvent { release := !down } code

def applyOne : Operation → Database × List FastPathInputEvent
  | .mouseButtonPressed button =>
    ({ db with mouseButtons := db.mouseButtons.insert button.asIdx },
      if button.asIdx ∈ db.mouseButtons then [] else [db.buttonEvent true button])
  | .mouseButtonReleased button =>
    ({ db with mouseButtons := db.mouseButtons.erase button.asIdx },
      if button.asIdx ∈ db.mouseButtons then [db.buttonEvent false button] else [])
  | .mouseMove position =>
    if position ≠ db.mousePosition then
      ({ db with mousePosition := position }, [.mouseEvent {
        flags := { move := true }, numberOfWheelRotationUnits := 0, position }])
    else (db, [])
  | .wheelRotations rotations =>
    (db, [.mouseEvent {
      flags :=
        if rotations.isVertical then { verticalWheel := true } else { horizontalWheel := true }
      numberOfWheelRotationUnits := max (-256) (min 255 rotations.rotationUnits)
      position := db.mousePosition }])
  | .keyPressed scancode =>
    ({ db with keyboard := db.keyboard.insert scancode.asIdx },
      (if scancode.asIdx ∈ db.keyboard then [keyEvent false scancode] else []) ++
        [keyEvent true scancode])
  | .keyReleased scancode =>
    ({ db with keyboard := db.keyboard.erase scancode.asIdx },
      if scancode.asIdx ∈ db.keyboard then [keyEvent false scancode] else [])
  | .unicodeKeyPressed character =>
    ({ db with unicodeKeyboardState := db.unicodeKeyboardState.insert character },
      (if character ∈ db.unicodeKeyboardState then
        (encodeUtf16 character).map (unicodeEvent false) else []) ++
        (encodeUtf16 character).map (unicodeEvent true))
  | .unicodeKeyReleased character =>
    ({ db with unicodeKeyboardState := db.unicodeKeyboardState.erase character },
      if character ∈ db.unicodeKeyboardState then
        (encodeUtf16 character).map (unicodeEvent false) else [])

def apply (db : Database) : List Operation → Database × List FastPathInputEvent
  | [] => (db, [])
  | operation :: operations =>
    let (db, events) := db.applyOne operation
    let (db, more) := db.apply operations
    (db, events ++ more)

def releaseAll : Database × List FastPathInputEvent :=
  ({ mousePosition := db.mousePosition },
    (db.mouseButtons.toList.map .fromIdx).map (db.buttonEvent false) ++
      (db.keyboard.toList.map .fromIdx).map (keyEvent false) ++
      (db.unicodeKeyboardState.toList.flatMap encodeUtf16).map (unicodeEvent false))

end Database

inductive Held where
  | button (button : MouseButton)
  | key (scancode : Scancode)
  | unicode (code : UInt16)
  deriving DecidableEq

def FastPathInputEvent.effect : FastPathInputEvent → Option (Held × Bool)
  | mouseEvent pdu =>
    if pdu.flags.leftButton then some (.button .left, pdu.flags.down)
    else if pdu.flags.middleButtonOrWheel then some (.button .middle, pdu.flags.down)
    else if pdu.flags.rightButton then some (.button .right, pdu.flags.down)
    else none
  | mouseEventEx pdu =>
    if pdu.flags.button1 then some (.button .x1, pdu.flags.down)
    else if pdu.flags.button2 then some (.button .x2, pdu.flags.down)
    else none
  | keyboardEvent flags code => some (.key ⟨code, flags.extended⟩, !flags.release)
  | unicodeKeyboardEvent flags code => some (.unicode code, !flags.release)

def receive (down : Finset Held) (event : FastPathInputEvent) : Finset Held :=
  match event.effect with
  | some (held, true) => insert held down
  | some (held, false) => down.erase held
  | none => down

def Database.Records (db : Database) : Held → Prop
  | .button button => button.asIdx ∈ db.mouseButtons
  | .key scancode => scancode.asIdx ∈ db.keyboard
  | .unicode code => ∃ character ∈ db.unicodeKeyboardState.toList, code ∈ encodeUtf16 character

def Database.Covers (db : Database) (down : Finset Held) : Prop := ∀ held ∈ down, db.Records held

section

variable {down : Finset Held} {held : Held} {event : FastPathInputEvent}
  {events : List FastPathInputEvent}

theorem mem_receive : held ∈ receive down event ↔
      event.effect = some (held, true) ∨ held ∈ down ∧ event.effect ≠ some (held, false) := by
  unfold receive
  rcases event.effect with _ | ⟨other, _ | _⟩
  · simp
  · simp [and_comm, eq_comm]
  · simp [eq_comm]

section

variable {α : Type} {toEvent : α → FastPathInputEvent} {toHeld : α → Held} {xs : List α}

end

end

end NoriShell.Rdp

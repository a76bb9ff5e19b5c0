import NoriShell.Collections.Widths
import NoriShell.Desktop.Frame

/-! The inputs of `desktop-protocol`, and the fences that commands must pass. -/

namespace NoriShell.Desktop

open Collections

def maxTextBytes : Nat := 65536

abbrev Keysym := Fin (2 ^ 32)

inductive DesktopInput where
  | key (scanCode : UInt16) (keysym : Keysym) (down : Bool)
  | pointer (x y : UInt16) (buttons : UInt8)
  | wheel (x y : UInt16) (deltaX deltaY : Int16)
  | text (text : String)
  | clipboard (text : String)
  | resize (width height scalePercent : UInt16)
  | releaseAll
  deriving DecidableEq

namespace DesktopInput

def validateText (content : String) : Except EngineError Unit :=
  reject (content.utf8ByteSize > maxTextBytes ∨ '\x00' ∈ content.toList) .resourceLimit

def validate : DesktopInput → Except EngineError Unit
  | .text content | .clipboard content => validateText content
  | .key scanCode keysym _ => reject (scanCode > 0x1ff ∨ keysym = 0) .invalidConfiguration
  | .pointer _ _ buttons => reject (buttons > 7) .invalidConfiguration
  | .resize width height scalePercent => do
    reject (scalePercent < 100 ∨ 500 < scalePercent) .invalidConfiguration
    let _ ← frameLen width height
  | _ => .ok ()

end DesktopInput

structure EngineCommand where
  input : DesktopInput
  focusEpoch : Option UInt64

structure EngineControl where
  stop : Bool
  focusEpoch : UInt64

def EngineControl.accepts (control : EngineControl) (command : EngineCommand) : Bool :=
  !control.stop &&
    match command.focusEpoch with
    | some epoch => epoch = control.focusEpoch
    | none =>
      match command.input with
      | .resize _ _ _ => true
      | _ => false

end NoriShell.Desktop

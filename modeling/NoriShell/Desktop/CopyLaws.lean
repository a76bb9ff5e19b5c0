import NoriShell.Desktop.FrameLaws

namespace NoriShell.Desktop

open Collections

section

variable {width height : UInt16} {a b : DesktopRect} {row later i : Nat}

end

namespace DesktopFrame

variable {frame : DesktopFrame} {rect : DesktopRect} {sourceX sourceY : UInt16}

/-- What a call leaves of a frame: an error comes before the first row is copied. -/
def leaves (frame : DesktopFrame) : Except EngineError DesktopFrame → DesktopFrame
  | .ok after => after
  | .error _ => frame

end DesktopFrame

end NoriShell.Desktop

import NoriShell.Collections.Utf8

/-! The plain text that `ssh_session_service` shows to plugins of the output of a terminal, frame
by frame. -/

namespace NoriShell.Terminal

open Collections

inductive TerminalTextProjectionState where
  | ground
  | escape
  | controlSequence
  | operatingSystemCommand
  | operatingSystemCommandEscape
  deriving DecidableEq

def sshTerminalOutputFrameMaxBytes : Nat := 64 * 1024

def maxProjectedFrameBytes : Nat := 8 * 1024

def esc : UInt8 := 0x1b
def bel : UInt8 := 0x07
def backslash : UInt8 := 0x5c

def isFinal (byte : UInt8) : Bool := Utf8.between 0x40 0x7e byte

/-- The bytes that start a string after an escape: `]`, `P`, `^` and `_`. -/
def startsString (byte : UInt8) : Bool := [0x5d, 0x50, 0x5e, 0x5f].contains byte

def isText (byte : UInt8) : Bool :=
  [0x0a, 0x0d, 0x09].contains byte || Utf8.between 0x20 0x7e byte || 0x80 ≤ byte

namespace TerminalTextProjectionState

/-- The state after a byte, and whether the byte is pushed. -/
def read (byte : UInt8) : TerminalTextProjectionState → TerminalTextProjectionState × Bool
  | ground => if byte = esc then (escape, false) else (ground, isText byte)
  | escape =>
    (if byte = 0x5b then controlSequence
      else if startsString byte then operatingSystemCommand else ground, false)
  | controlSequence => (if isFinal byte then ground else controlSequence, false)
  | operatingSystemCommand =>
    (if byte = bel then ground
      else if byte = esc then operatingSystemCommandEscape else operatingSystemCommand, false)
  | operatingSystemCommandEscape =>
    (if byte = backslash then ground else operatingSystemCommand, false)

/-- The loop over the bytes of a frame, which stops when enough is projected: the state, and the
bytes projected after the first `projected` ones. -/
def project (state : TerminalTextProjectionState) (projected : Nat) :
    List UInt8 → TerminalTextProjectionState × List UInt8
  | [] => (state, [])
  | byte :: bytes =>
    let next := (state.read byte).1
    let pushed := if (state.read byte).2 then [byte] else []
    let projected := projected + (state.read byte).2.toNat
    if maxProjectedFrameBytes ≤ projected then (next, pushed)
    else ((project next projected bytes).1, pushed ++ (project next projected bytes).2)

end TerminalTextProjectionState

/-- The loop that decodes what is projected: the text, and the bytes of a character that is not
complete. -/
def decodeText (remaining : List UInt8) : List UInt8 × List UInt8 :=
  match _h : Utf8.fromUtf8 remaining with
  | .ok () => (remaining, [])
  | .error ⟨valid, some length⟩ =>
    let text := remaining.take valid ++ Utf8.replacement
    let rest := remaining.drop (valid + length)
    if rest = [] then (text, []) else (text ++ (decodeText rest).1, (decodeText rest).2)
  | .error ⟨valid, none⟩ => (remaining.take valid, remaining.drop valid)
termination_by remaining.length
decreasing_by
  all_goals
    have found := Utf8.lossy_of_fromUtf8 remaining
    rw [_h] at found
    rw [List.length_drop]
    omega

structure PluginObserver where
  projectionState : TerminalTextProjectionState := .ground
  utf8Pending : List UInt8 := []
  deriving DecidableEq

namespace PluginObserver

def projectTerminalText (o : PluginObserver) (bytes : List UInt8) : List UInt8 × PluginObserver :=
  let (state, projected) := o.projectionState.project 0 bytes
  if projected = [] then ([], { o with projectionState := state })
  else
    ((decodeText (o.utf8Pending ++ projected)).1,
      ⟨state, (decodeText (o.utf8Pending ++ projected)).2⟩)

def observe (o : PluginObserver) : List (List UInt8) → List (List UInt8) × PluginObserver
  | [] => ([], o)
  | frame :: frames =>
    let (text, next) := o.projectTerminalText frame
    let sent := if text = [] then [] else [text]
    (sent ++ (observe next frames).1, (observe next frames).2)

end PluginObserver

end NoriShell.Terminal

import NoriShell.Justified
import NoriShell.Vnc.Input

namespace NoriShell.Vnc

open Collections Desktop

def wheelBits : List UInt8 := [0x08, 0x10, 0x20, 0x40]

def X11Event.mask? : X11Event → Option UInt8
  | .pointerEvent _ _ buttons => some buttons
  | _ => none

def isPointing : DesktopInput → Bool
  | .pointer _ _ _ | .wheel _ _ _ _ => true
  | _ => false

def isWheel : DesktopInput → Bool
  | .wheel _ _ _ _ => true
  | _ => false

def turnsWheel : DesktopInput → Bool
  | .wheel _ _ deltaX deltaY => deltaX ≠ 0 ∨ deltaY ≠ 0
  | _ => false

def heldButtons (inputs : List DesktopInput) : UInt8 :=
  inputs.foldl (fun held input => match input with
    | .pointer _ _ buttons => buttons
    | _ => held) 0

namespace Session

variable (clipboardEnabled : Bool)

def sends (session : Session) (input : DesktopInput) : Except EngineError (List X11Event) := do
  input.validate
  let planned ← (session.input.plan clipboardEnabled input).2
  return planned.events

def acknowledged (inputs : List DesktopInput) : Session :=
  inputs.foldl (fun session input =>
    session.handleCommand clipboardEnabled input true true .written) {}

def Pointing (inputs : List DesktopInput) : Prop :=
  Justified (fun before input => isPointing input = true ∧
    ∃ events, (acknowledged clipboardEnabled before).sends clipboardEnabled input = .ok events)
    inputs

structure Undisturbed (held : UInt8) (input : DesktopInput) (events : List X11Event)
    (server : Server) : Prop where
  contains : ∀ mask ∈ events.filterMap X11Event.mask?, mask &&& held = held
  adds : isWheel input → ∀ mask ∈ events.filterMap X11Event.mask?,
    ∃ added ∈ 0 :: wheelBits, mask = held ||| added
  last : isWheel input → server.buttons = held

end Session

def clicks (steps : Nat) (x y : UInt16) (button : UInt8) : List X11Event :=
  (List.replicate steps [X11Event.pointerEvent x y button, .pointerEvent x y 0]).flatten

theorem buttons_clicks (steps : Nat) (x y : UInt16) (button : UInt8) (server : Server) :
    ((clicks steps x y button).foldl Server.receive server).buttons =
      if steps = 0 then server.buttons else 0 := by
  induction steps generalizing server with
  | zero => rfl
  | succ steps ih =>
    rw [clicks, List.replicate_succ, List.flatten_cons, List.foldl_append]
    change (List.foldl Server.receive _ (clicks steps x y button)).buttons = _
    rw [ih, if_neg steps.succ_ne_zero]
    exact ite_eq_right_iff.2 fun _ => rfl

theorem mask_clicks {steps : Nat} {x y : UInt16} {button mask : UInt8}
    (sent : mask ∈ (clicks steps x y button).filterMap X11Event.mask?) :
    mask = 0 ∨ mask = button := by
  obtain ⟨event, member, masked⟩ := List.mem_filterMap.1 sent
  obtain ⟨click, repeated, member⟩ := List.mem_flatten.1 member
  rw [List.eq_of_mem_replicate repeated] at member
  simp only [List.mem_cons, List.not_mem_nil, or_false] at member
  rcases member with rfl | rfl
  · exact .inr (Option.some.inj masked).symm
  · exact .inl (Option.some.inj masked).symm

theorem appendWheel_eq_ok {events out : List X11Event} {x y : UInt16} {delta : Int16}
    {negativeButton positiveButton : UInt8}
    (appended : appendWheel events x y delta negativeButton positiveButton = .ok out) :
    out = events ++ clicks delta.toInt.natAbs x y
      (if delta < 0 then negativeButton else positiveButton) := by
  simp only [appendWheel, Check.bind_eq_ok] at appended
  obtain ⟨_, -, same⟩ := appended
  exact (Except.ok.inj same).symm

namespace Session

variable {clipboardEnabled : Bool} {session : Session} {inputs : List DesktopInput}

variable {events : List X11Event} {x y : UInt16} {deltaY deltaX : Int16}

theorem sends_eq_ok {input : DesktopInput}
    (sent : session.sends clipboardEnabled input = .ok events) :
    session.handleCommand clipboardEnabled input true true .written =
      { input := (session.input.plan clipboardEnabled input).1.settleSuccess input
        server := events.foldl Server.receive session.server } := by
  simp only [sends, Check.bind_eq_ok] at sent
  obtain ⟨⟨⟩, valid, planned, plans, same⟩ := sent
  cases same
  simp only [handleCommand, if_true, valid]
  rw [show session.input.plan clipboardEnabled input =
    ((session.input.plan clipboardEnabled input).1, .ok planned) from Prod.ext rfl plans]
  rfl

theorem sends_pointer {buttons : UInt8}
    (sent : session.sends clipboardEnabled (.pointer x y buttons) = .ok events) :
    events = [.pointerEvent x y buttons] := by
  simp only [sends, InputState.plan, Check.bind_eq_ok] at sent
  obtain ⟨⟨⟩, -, planned, plans, same⟩ := sent
  cases plans
  cases same
  rfl

theorem sends_wheel
    (sent : session.sends clipboardEnabled (.wheel x y deltaX deltaY) = .ok events) :
    events = clicks deltaX.toInt.natAbs x y (if deltaX < 0 then 0x20 else 0x40) ++
      clicks deltaY.toInt.natAbs x y (if deltaY < 0 then 0x08 else 0x10) := by
  simp only [sends, InputState.plan, Check.bind_eq_ok] at sent
  obtain ⟨⟨⟩, -, planned, ⟨horizontal, first, vertical, second, plans⟩, same⟩ := sent
  cases plans
  cases same
  rw [appendWheel_eq_ok second, appendWheel_eq_ok first, List.nil_append]

theorem mask_wheel {mask : UInt8}
    (sent : session.sends clipboardEnabled (.wheel x y deltaX deltaY) = .ok events)
    (member : mask ∈ events.filterMap X11Event.mask?) : mask ∈ 0 :: wheelBits := by
  rw [sends_wheel sent, List.filterMap_append, List.mem_append] at member
  rcases member with member | member
  · rcases mask_clicks member with rfl | rfl
    · exact List.mem_cons_self
    · split <;> decide
  · rcases mask_clicks member with rfl | rfl
    · exact List.mem_cons_self
    · split <;> decide

theorem natAbs_toInt_eq_zero {delta : Int16} : delta.toInt.natAbs = 0 ↔ delta = 0 := by
  rw [Int.natAbs_eq_zero, ← Int16.toInt_zero, Int16.toInt_inj]

theorem buttons_wheel
    (sent : session.sends clipboardEnabled (.wheel x y deltaX deltaY) = .ok events)
    (server : Server) :
    (events.foldl Server.receive server).buttons =
      if turnsWheel (.wheel x y deltaX deltaY) then 0 else server.buttons := by
  rw [sends_wheel sent, List.foldl_append, buttons_clicks, buttons_clicks]
  simp only [natAbs_toInt_eq_zero, turnsWheel, decide_eq_true_eq]
  by_cases horizontal : deltaX = 0 <;> by_cases vertical : deltaY = 0 <;>
    simp [horizontal, vertical]

@[simp] theorem acknowledged_concat (input : DesktopInput) :
    acknowledged clipboardEnabled (inputs ++ [input]) =
      (acknowledged clipboardEnabled inputs).handleCommand clipboardEnabled input true true
        .written := by
  simp [acknowledged]

@[simp] theorem heldButtons_pointer (x y : UInt16) (buttons : UInt8) :
    heldButtons (inputs ++ [.pointer x y buttons]) = buttons := by
  simp [heldButtons]

@[simp] theorem heldButtons_wheel (x y : UInt16) (deltaX deltaY : Int16) :
    heldButtons (inputs ++ [.wheel x y deltaX deltaY]) = heldButtons inputs := by
  simp [heldButtons]

/-- The wheel turns only where no button is held. -/
def Released (inputs : List DesktopInput) : Prop :=
  Justified (fun before input => turnsWheel input = true → heldButtons before = 0) inputs

theorem buttons_acknowledged (pointing : Pointing clipboardEnabled inputs)
    (released : Released inputs) :
    (acknowledged clipboardEnabled inputs).server.buttons = heldButtons inputs := by
  induction inputs using List.reverseRecOn with
  | nil => rfl
  | append_singleton inputs input ih =>
    obtain ⟨pointed, kind, events, sent⟩ := Justified.concat_iff.1 pointing
    obtain ⟨earlier, still⟩ := Justified.concat_iff.1 released
    rw [acknowledged_concat, sends_eq_ok sent]
    cases input with
    | pointer x y buttons =>
      rw [sends_pointer sent, heldButtons_pointer]
      rfl
    | wheel x y deltaX deltaY =>
      rw [heldButtons_wheel]
      change (events.foldl Server.receive _).buttons = _
      rw [buttons_wheel sent, ih pointed earlier]
      split
      · exact (still ‹_›).symm
      · rfl
    | _ => cases kind

theorem undisturbed_pointer {buttons : UInt8}
    {server : Server}
    (sent : session.sends clipboardEnabled (.pointer x y buttons) = .ok events) :
    Undisturbed buttons (.pointer x y buttons) events server := by
  refine ⟨fun mask member => ?_, fun wheel => (by cases wheel), fun wheel => (by cases wheel)⟩
  rw [sends_pointer sent, List.mem_filterMap] at member
  obtain ⟨event, member, masked⟩ := member
  rw [List.mem_singleton.1 member] at masked
  rw [← Option.some.inj masked]
  exact UInt8.and_self

theorem undisturbed_wheel_iff
    {held : UInt8} {server : Server} (before : server.buttons = held)
    (sent : session.sends clipboardEnabled (.wheel x y deltaX deltaY) = .ok events) :
    Undisturbed held (.wheel x y deltaX deltaY) events (events.foldl Server.receive server) ↔
      (turnsWheel (.wheel x y deltaX deltaY) = true → held = 0) := by
  constructor
  · intro undisturbed turns
    rw [← undisturbed.last rfl, buttons_wheel sent, if_pos turns]
  · intro released
    have last : (events.foldl Server.receive server).buttons = held := by
      rw [buttons_wheel sent, before]
      split
      · exact (released ‹_›).symm
      · rfl
    by_cases turns : turnsWheel (.wheel x y deltaX deltaY) = true
    · obtain rfl := released turns
      exact ⟨fun mask _ => UInt8.and_zero, fun _ mask member =>
        ⟨mask, mask_wheel sent member, UInt8.zero_or.symm⟩, fun _ => last⟩
    · simp only [turnsWheel, decide_eq_true_eq, not_or, not_not] at turns
      obtain ⟨rfl, rfl⟩ := turns
      obtain rfl : events = [] := sends_wheel sent
      exact ⟨fun mask member => (by cases member), fun _ mask member => (by cases member),
        fun _ => last⟩

theorem wheel_undisturbed_iff (clipboardEnabled : Bool) (inputs : List DesktopInput)
    (pointing : Pointing clipboardEnabled inputs) :
    Justified (fun before input => ∀ events,
      (acknowledged clipboardEnabled before).sends clipboardEnabled input = .ok events →
        Undisturbed (heldButtons (before ++ [input])) input events
          (acknowledged clipboardEnabled (before ++ [input])).server) inputs ↔
      Released inputs := by
  induction inputs using List.reverseRecOn with
  | nil => exact iff_of_true .nil .nil
  | append_singleton inputs input ih =>
    obtain ⟨pointed, kind, events, sent⟩ := Justified.concat_iff.1 pointing
    rw [Released, Justified.concat_iff, Justified.concat_iff, ih pointed]
    refine and_congr_right fun released => ?_
    have before := buttons_acknowledged pointed released
    simp only [sent, Except.ok.injEq, forall_eq', acknowledged_concat, sends_eq_ok sent]
    cases input with
    | pointer x y buttons =>
      rw [heldButtons_pointer]
      exact iff_of_true (undisturbed_pointer sent) fun turns => by cases turns
    | wheel x y deltaX deltaY =>
      rw [heldButtons_wheel]
      exact undisturbed_wheel_iff before sent
    | _ => cases kind

theorem wheel_undisturbed_iff_click : ∃ inputs, Pointing false inputs ∧
    (Justified (fun before input => ∀ events,
      (acknowledged false before).sends false input = .ok events →
        Undisturbed (heldButtons (before ++ [input])) input events
          (acknowledged false (before ++ [input])).server) inputs ↔ Released inputs) := by
  have pointing : Pointing false [.pointer 4 4 1, .pointer 4 4 0, .wheel 4 4 0 1] :=
    .concat_iff.2 ⟨.concat_iff.2 ⟨.concat_iff.2 ⟨.nil, rfl, _, rfl⟩, rfl, _, rfl⟩, rfl, _, rfl⟩
  exact ⟨_, pointing, wheel_undisturbed_iff false _ pointing⟩

/-- A wheel during a drag: the left button is up for the server, though it is still held. -/
theorem wheel_releases_held_button : Pointing false [.pointer 4 4 1, .wheel 4 4 0 1] ∧
      (acknowledged false [.pointer 4 4 1]).sends false (.wheel 4 4 0 1) =
        .ok [.pointerEvent 4 4 0x10, .pointerEvent 4 4 0] ∧
      heldButtons [.pointer 4 4 1, .wheel 4 4 0 1] = 1 ∧
      (acknowledged false [.pointer 4 4 1, .wheel 4 4 0 1]).server.buttons = 0 :=
  ⟨.concat_iff.2 ⟨.concat_iff.2 ⟨.nil, rfl, _, rfl⟩, rfl, _, rfl⟩, rfl, rfl, rfl⟩

end Session

end NoriShell.Vnc

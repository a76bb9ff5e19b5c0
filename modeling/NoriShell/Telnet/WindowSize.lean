import NoriShell.Telnet.Connection
import NoriShell.Telnet.Negotiation

/-! When the window size is reported: after `WILL NAWS`, but not always while it stands. -/

namespace NoriShell.Telnet

namespace Message

def reply? : Message → Option Reply
  | .reply answer => some answer
  | _ => none

def isWindowSize : Message → Bool
  | .report .. => true
  | .resized .. => true
  | _ => false

end Message

/-- The last word of these messages on NAWS is `WILL`. -/
def NawsOn (messages : List Message) : Prop :=
  ((messages.filterMap Message.reply?).filterMap (Reply.local? optNaws)).getLast? = some true

def SizesWhileOn (messages : List Message) : Prop :=
  Justified (fun before message => message.isWindowSize = true → NawsOn before) messages

namespace Session

def Receives (session : Session) (bytes : List UInt8) : Prop :=
  session.await = .read ∧ bytes.length ≤ readBufferBytes ∧ bytes ≠ []

def Decodes (session : Session) : Action → Prop
  | .read bytes =>
    session.Receives bytes → (session.connection.codec.read bytes).failure = none
  | _ => True

/-- A read that turns NAWS on leaves it on. -/
def Steady (session : Session) : Action → Prop
  | .read bytes => session.Receives bytes →
    .localNaws ∈ (session.connection.codec.read bytes).output.enabled →
    (session.connection.codec.read bytes).state.localNawsEnabled = true
  | _ => True

def Along (P : Session → Action → Prop) : Session → List Action → Prop
  | _, [] => True
  | session, action :: actions => P session action ∧ Along P (session.step action) actions

def Tracked (session : Session) : Prop :=
  Balanced (session.sent.filterMap Message.reply?) session.connection.codec

variable {session : Session}

@[simp] theorem flush_sent : session.flush.sent = session.sent := by
  unfold flush resume
  dsimp only
  split
  · rfl
  · split <;> rfl

@[simp] theorem flush_codec : session.flush.connection.codec = session.connection.codec := by
  unfold flush resume
  dsimp only
  split
  · rfl
  · split <;> rfl

@[simp] theorem write_sent (count : Nat) : (session.write count).sent = session.sent := by
  unfold write
  dsimp only
  split
  · rfl
  · split <;> simp

@[simp] theorem write_codec (count : Nat) :
    (session.write count).connection.codec = session.connection.codec := by
  unfold write
  dsimp only
  split
  · rfl
  · split <;> simp

theorem receive_sent {bytes : List UInt8}
    (ok : (session.connection.codec.read bytes).failure = none) :
    (session.receive bytes).sent = session.sent ++
      batch session.connection.rows session.connection.cols
        (session.connection.codec.read bytes).output := by
  simp [receive, TelnetCodec.decode, ok]

theorem receive_codec (bytes : List UInt8) : (session.receive bytes).connection.codec =
      (session.connection.codec.read bytes).state := by
  rw [← TelnetCodec.decode_codec]
  rcases h : session.connection.codec.decode bytes with ⟨_ | decoded, codec⟩ <;> simp [receive, h]

theorem nawsOn_iff {messages : List Message} {codec : TelnetCodec}
    (h : Balanced (messages.filterMap Message.reply?) codec) :
    NawsOn messages ↔ codec.localNawsEnabled = true :=
  (h.ours optNaws).current.symm

theorem batch_effect {messages : List Message} {codec : TelnetCodec} {rows cols : UInt16}
    {decoded : DecodeResult}
    (after : Balanced (messages.filterMap Message.reply? ++ decoded.replies) codec) :
    Balanced ((messages ++ batch rows cols decoded).filterMap Message.reply?) codec ∧
      (SizesWhileOn (messages ++ batch rows cols decoded) ↔ SizesWhileOn messages ∧
        (.localNaws ∈ decoded.enabled → codec.localNawsEnabled = true)) := by
  have spoken : (messages ++ decoded.replies.map Message.reply).filterMap Message.reply? =
      messages.filterMap Message.reply? ++ decoded.replies := by
    simp [List.filterMap_map, Function.comp_def, Message.reply?]
  have plain : SizesWhileOn (messages ++ decoded.replies.map Message.reply) ↔ SizesWhileOn messages :=
    Justified.append_iff (by simp [Message.isWindowSize])
  rw [← spoken] at after
  rw [batch, ← List.append_assoc]
  split
  · rename_i enabled
    have wordless : [Message.report rows cols].filterMap Message.reply? = [] := rfl
    refine ⟨by rwa [List.filterMap_append, wordless, List.append_nil], ?_⟩
    rw [SizesWhileOn, Justified.concat_iff, ← SizesWhileOn, plain, nawsOn_iff after]
    simp [Message.isWindowSize, enabled]
  · rename_i silent
    rw [List.append_nil]
    exact ⟨after, by simp [plain, silent]⟩

theorem Tracked.receive (h : session.Tracked) {bytes : List UInt8}
    (ok : (session.connection.codec.read bytes).failure = none) :
    (session.receive bytes).Tracked ∧
      (SizesWhileOn (session.receive bytes).sent ↔ SizesWhileOn session.sent ∧
        (NegotiatedOption.localNaws ∈ (session.connection.codec.read bytes).output.enabled →
          (session.connection.codec.read bytes).state.localNawsEnabled = true)) := by
  rw [Tracked, receive_sent ok, receive_codec]
  exact batch_effect (Balanced.read h bytes)

/-- The step keeps the flags and the replies in step, and adds a window size while NAWS
is off only if `P` fails. -/
def Advances (session after : Session) (P : Prop) : Prop :=
  after.Tracked ∧ (SizesWhileOn after.sent ↔ SizesWhileOn session.sent ∧ P)

theorem Tracked.same (h : session.Tracked) {after : Session} {P : Prop} (holds : P)
    (sent : after.sent = session.sent)
    (codec : after.connection.codec = session.connection.codec) : session.Advances after P := by
  rw [Advances, Tracked, sent, codec]
  exact ⟨h, (and_iff_left holds).symm⟩

theorem Tracked.writeAll (h : session.Tracked) {message : Message} {P : Prop} (holds : P)
    (wordless : message.reply? = none)
    (on : message.isWindowSize = true → session.connection.codec.localNawsEnabled = true) :
    session.Advances (session.writeAll message) P := by
  refine ⟨by simpa [Tracked, Session.writeAll, wordless] using h, ?_⟩
  rw [Session.writeAll, SizesWhileOn, Justified.concat_iff, nawsOn_iff h]
  exact and_congr_right fun _ => iff_of_true on holds

theorem Tracked.sendInput (h : session.Tracked) {P : Prop} (holds : P) (data : List UInt8) :
    session.Advances (session.sendInput data) P := by
  unfold Session.sendInput
  split
  · exact h.same holds rfl rfl
  split
  · exact h.same holds rfl rfl
  · have flushed : session.flushAll.Tracked := h
    exact flushed.writeAll holds rfl nofun

theorem Tracked.resize (h : session.Tracked) {P : Prop} (holds : P) (rows cols : UInt16) :
    session.Advances (session.resize rows cols) P := by
  unfold Session.resize
  split
  · exact h.same holds rfl rfl
  split
  · exact h.same holds rfl rfl
  dsimp only
  split
  · rename_i on
    have resized :
        { session with connection := { session.connection with rows, cols } }.flushAll.Tracked := h
    exact resized.writeAll holds rfl fun _ => on
  · exact h.same holds rfl rfl

theorem Tracked.step (h : session.Tracked) {action : Action} (decodes : session.Decodes action) :
    session.Advances (session.step action) (session.Steady action) := by
  unfold Session.step
  split
  case h_1 => split <;> exact h.same trivial (by simp) (by simp)
  case h_2 => split <;> exact h.same trivial (by simp) (by simp)
  case h_3 bytes =>
    split
    · rename_i waits
      split
      · rename_i empty
        exact h.same (fun receives => absurd empty receives.2.2) rfl rfl
      · rename_i some
        have receives : session.Receives bytes := ⟨waits.1, waits.2, some⟩
        obtain ⟨tracked, sizes⟩ := h.receive (decodes receives)
        exact ⟨tracked, sizes.trans (and_congr_right fun _ => ⟨fun steady _ => steady,
          fun steady => steady receives⟩)⟩
    · rename_i busy
      exact h.same (fun receives => absurd ⟨receives.1, receives.2.1⟩ busy) rfl rfl
  case h_4 => exact h.same trivial rfl rfl
  case h_5 data =>
    split
    · exact h.sendInput trivial data
    · exact h.same trivial rfl rfl
  case h_6 rows cols =>
    split
    · exact h.resize trivial rows cols
    · exact h.same trivial rfl rfl

theorem Tracked.run (h : session.Tracked) {actions : List Action}
    (decodes : Along Decodes session actions) :
    SizesWhileOn (session.run actions).sent ↔
      SizesWhileOn session.sent ∧ Along Steady session actions := by
  induction actions generalizing session with
  | nil => simp [Session.run, Along]
  | cons action actions ih =>
    obtain ⟨tracked, sizes⟩ := h.step decodes.1
    rw [Along, ← and_assoc, ← sizes]
    exact ih tracked decodes.2

/-- Where every read decodes, the window size is reported only while NAWS is on exactly
when no read turns NAWS on and off again. -/
theorem sizes_while_on_iff (rows cols : UInt16) {actions : List Action}
    (decodes : Along Decodes (start rows cols) actions) :
    SizesWhileOn ((start rows cols).run actions).sent ↔ Along Steady (start rows cols) actions := by
  have fresh : (start rows cols).Tracked := Balanced.new
  exact (fresh.run decodes).trans (and_iff_right .nil)

/-- A server that turns NAWS on, and a resize. -/
theorem resize_while_on : SizesWhileOn ((start 24 80).run
      [.nextEvent, .read [iac, doCode, optNaws], .drop, .resize 30 100]).sent := by
  refine (sizes_while_on_iff 24 80 ?_).mpr ?_
  · exact ⟨trivial, fun _ => rfl, trivial, trivial, trivial⟩
  · exact ⟨trivial, fun _ _ => rfl, trivial, trivial, trivial⟩

/-- A read that turns NAWS on and off: the window size follows `WONT NAWS`. -/
theorem report_while_off : ¬SizesWhileOn ((start 24 80).run
      [.nextEvent, .read [iac, doCode, optNaws, iac, dontCode, optNaws]]).sent := by
  intro h
  have on := h [.reply (.will optNaws), .reply (.wont optNaws)] (.report 24 80) [] rfl rfl
  simp [NawsOn, Message.reply?, Reply.local?] at on

end Session

end NoriShell.Telnet

import Mathlib.Data.List.Chain
import NoriShell.Justified
import NoriShell.Telnet.CodecLaws

/-! The decoder answers only when an option changes. -/

namespace NoriShell.Telnet

namespace Reply

/-- A reply about this side of the option: whether it turns the option on. -/
def local? (option : UInt8) : Reply → Option Bool
  | .will o => if o = option then some true else none
  | .wont o => if o = option then some false else none
  | _ => none

def remote? (option : UInt8) : Reply → Option Bool
  | .doOption o => if o = option then some true else none
  | .dont o => if o = option then some false else none
  | _ => none

end Reply

def Alternates (verbs : List Bool) : Prop :=
  verbs.IsChain (· ≠ ·) ∧ ∀ first ∈ verbs.head?, first = true

theorem Alternates.concat {verbs : List Bool} {verb : Bool} (h : Alternates verbs)
    (first : verbs = [] → verb = true) (turns : verbs.getLast? ≠ some verb) :
    Alternates (verbs ++ [verb]) := by
  refine ⟨List.isChain_append.mpr ⟨h.1, .singleton _, ?_⟩, ?_⟩
  · intro last at_ next isVerb
    obtain rfl : verb = next := by simpa using isVerb
    rintro rfl
    exact turns at_
  · cases verbs with
    | nil => simpa using first
    | cons head verbs => simpa using h.2

/-- What the answers about one option have been, given whether it is allowed. -/
structure Answered (allowed enabled refused : Bool) (verbs : List Bool) : Prop where
  alternates : allowed = true → Alternates verbs
  once : allowed = false → verbs = if refused then [false] else []
  current : enabled = true ↔ verbs.getLast? = some true
  listed : enabled = true → allowed = true

namespace Answered

variable {allowed enabled refused : Bool} {verbs : List Bool}

theorem start : Answered allowed false false [] where
  alternates _ := ⟨.nil, by simp⟩
  once _ := rfl
  current := by simp
  listed := by simp

theorem enable (h : Answered allowed enabled refused verbs) (ok : allowed = true)
    (off : enabled = false) : Answered allowed true false (verbs ++ [true]) where
  alternates _ := (h.alternates ok).concat (fun _ => rfl) fun last => by
    simpa [off] using h.current.mpr last
  once := by simp [ok]
  current := by simp
  listed _ := ok

theorem disable (h : Answered allowed enabled refused verbs) (on : enabled = true) :
    Answered allowed false refused (verbs ++ [false]) := by
  have last := h.current.mp on
  refine ⟨fun ok => (h.alternates ok).concat ?_ (by simp [last]), by simp [h.listed on],
    by simp, by simp⟩
  rintro rfl
  simp at last

theorem refuse (h : Answered allowed enabled refused verbs) (no : allowed = false)
    (fresh : refused = false) : Answered allowed enabled true (verbs ++ [false]) := by
  obtain rfl : verbs = [] := by simpa [fresh] using h.once no
  refine ⟨by simp [no], by simp, ⟨fun on => ?_, by simp⟩, h.listed⟩
  simpa [no] using h.listed on

end Answered

structure Speaks (side : UInt8 → Reply → Option Bool) (option : UInt8) (verb : Bool)
    (reply : Reply) : Prop where
  tells : side option reply = some verb
  only : ∀ other, other ≠ option → side other reply = none

def Settled (allowed : UInt8 → Bool) (side : UInt8 → Reply → Option Bool)
    (enabled refused : UInt8 → Bool) (replies : List Reply) : Prop :=
  ∀ option, Answered (allowed option) (enabled option) (refused option)
    (replies.filterMap (side option))

namespace Settled

variable {allowed enabled refused : UInt8 → Bool} {side : UInt8 → Reply → Option Bool}
  {replies : List Reply} {option : UInt8} {reply : Reply} {verb on no : Bool}

theorem quiet (h : Settled allowed side enabled refused replies)
    (silent : ∀ option, side option reply = none) :
    Settled allowed side enabled refused (replies ++ [reply]) := fun option => by
  simpa [silent option] using h option

theorem update (h : Settled allowed side enabled refused replies)
    (speaks : Speaks side option verb reply)
    (answer : Answered (allowed option) on no (replies.filterMap (side option) ++ [verb])) :
    Settled allowed side (Function.update enabled option on) (Function.update refused option no)
      (replies ++ [reply]) := fun other => by
  by_cases same : other = option
  · subst same
    simpa [speaks.tells] using answer
  · simpa [same, speaks.only other same] using h other

theorem enable (h : Settled allowed side enabled refused replies)
    (speaks : Speaks side option true reply) (ok : allowed option = true)
    (off : enabled option = false) :
    Settled allowed side (Function.update enabled option true)
      (Function.update refused option false) (replies ++ [reply]) :=
  h.update speaks ((h option).enable ok off)

theorem disable (h : Settled allowed side enabled refused replies)
    (speaks : Speaks side option false reply) (on : enabled option = true) :
    Settled allowed side (Function.update enabled option false) refused (replies ++ [reply]) := by
  simpa using h.update speaks ((h option).disable on)

theorem refuse (h : Settled allowed side enabled refused replies)
    (speaks : Speaks side option false reply) (no : allowed option = false)
    (fresh : refused option = false) :
    Settled allowed side enabled (Function.update refused option true) (replies ++ [reply]) := by
  simpa using h.update speaks ((h option).refuse no fresh)

end Settled

namespace Reply

variable (option : UInt8)

theorem will_speaks : Speaks local? option true (.will option) :=
  ⟨by simp [local?], fun _ other => by simp [local?, other.symm]⟩

theorem wont_speaks : Speaks local? option false (.wont option) :=
  ⟨by simp [local?], fun _ other => by simp [local?, other.symm]⟩

theorem do_speaks : Speaks remote? option true (.doOption option) :=
  ⟨by simp [remote?], fun _ other => by simp [remote?, other.symm]⟩

theorem dont_speaks : Speaks remote? option false (.dont option) :=
  ⟨by simp [remote?], fun _ other => by simp [remote?, other.symm]⟩

end Reply

structure Balanced (replies : List Reply) (codec : TelnetCodec) : Prop where
  ours : Settled allowsLocal Reply.local? codec.localEnabled codec.localRefused replies
  theirs : Settled allowsRemote Reply.remote? codec.remoteEnabled codec.remoteRefused replies
  terminal : Justified (fun before reply => reply = .terminalType →
    (before.filterMap (Reply.local? optTerminalType)).getLast? = some true) replies

namespace Balanced

variable {replies : List Reply} {codec : TelnetCodec} {option : UInt8}

theorem new : Balanced [] .new where
  ours _ := .start
  theirs _ := .start
  terminal := .nil

variable {after : TelnetCodec}

theorem kept (h : Balanced replies codec) {output : DecodeResult}
    (silent : output.replies = []) (ourEnabled : after.localEnabled = codec.localEnabled)
    (ourRefused : after.localRefused = codec.localRefused)
    (theirEnabled : after.remoteEnabled = codec.remoteEnabled)
    (theirRefused : after.remoteRefused = codec.remoteRefused) :
    Balanced (replies ++ output.replies) after := by
  rw [silent, List.append_nil]
  refine ⟨?_, ?_, h.terminal⟩
  · rw [ourEnabled, ourRefused]
    exact h.ours
  · rw [theirEnabled, theirRefused]
    exact h.theirs

theorem ourReply (h : Balanced replies codec) {reply : Reply}
    (ours : Settled allowsLocal Reply.local? after.localEnabled after.localRefused
      (replies ++ [reply]))
    (quiet : ∀ option, Reply.remote? option reply = none) (plain : reply ≠ .terminalType)
    (enabled : after.remoteEnabled = codec.remoteEnabled)
    (refused : after.remoteRefused = codec.remoteRefused) : Balanced (replies ++ [reply]) after where
  ours := ours
  theirs := by
    rw [enabled, refused]
    exact h.theirs.quiet quiet
  terminal := Justified.concat_iff.mpr ⟨h.terminal, fun same => absurd same plain⟩

theorem theirReply (h : Balanced replies codec) {reply : Reply}
    (theirs : Settled allowsRemote Reply.remote? after.remoteEnabled after.remoteRefused
      (replies ++ [reply]))
    (quiet : ∀ option, Reply.local? option reply = none) (plain : reply ≠ .terminalType)
    (enabled : after.localEnabled = codec.localEnabled)
    (refused : after.localRefused = codec.localRefused) : Balanced (replies ++ [reply]) after where
  ours := by
    rw [enabled, refused]
    exact h.ours.quiet quiet
  theirs := theirs
  terminal := Justified.concat_iff.mpr ⟨h.terminal, fun same => absurd same plain⟩

theorem handleNegotiation (h : Balanced replies codec) (command option : UInt8) :
    Balanced (replies ++ (codec.handleNegotiation command option).2.replies)
      (codec.handleNegotiation command option).1 := by
  have unchanged : Balanced (replies ++ (0 : DecodeResult).replies) codec := by simpa using h
  unfold TelnetCodec.handleNegotiation
  split
  · split
    · rename_i allowed
      split
      · exact unchanged
      · rename_i off
        exact h.ourReply (h.ours.enable (Reply.will_speaks option) allowed
          (Bool.of_not_eq_true off)) (fun _ => rfl) (by simp) rfl rfl
    · rename_i no
      split
      · exact unchanged
      · rename_i fresh
        exact h.ourReply (h.ours.refuse (Reply.wont_speaks option)
          (Bool.of_not_eq_true no) (Bool.of_not_eq_true fresh))
          (fun _ => rfl) (by simp) rfl rfl
  split
  · split
    · rename_i on
      exact h.ourReply (h.ours.disable (Reply.wont_speaks option) on) (fun _ => rfl) (by simp) rfl rfl
    · exact unchanged
  split
  · split
    · rename_i allowed
      split
      · exact unchanged
      · rename_i off
        exact h.theirReply (h.theirs.enable (Reply.do_speaks option) allowed
          (Bool.of_not_eq_true off)) (fun _ => rfl) (by simp) rfl rfl
    · rename_i no
      split
      · exact unchanged
      · rename_i fresh
        exact h.theirReply (h.theirs.refuse (Reply.dont_speaks option)
          (Bool.of_not_eq_true no) (Bool.of_not_eq_true fresh))
          (fun _ => rfl) (by simp) rfl rfl
  split
  · rename_i on
    exact h.theirReply (h.theirs.disable (Reply.dont_speaks option) on.2) (fun _ => rfl) (by simp) rfl
      rfl
  · exact unchanged

theorem finishSubnegotiation (h : Balanced replies codec) :
    Balanced (replies ++ codec.finishSubnegotiation.2.replies) codec.finishSubnegotiation.1 := by
  unfold TelnetCodec.finishSubnegotiation
  dsimp only
  split
  · rename_i asked
    exact ⟨h.ours.quiet fun _ => rfl, h.theirs.quiet fun _ => rfl,
      Justified.concat_iff.mpr ⟨h.terminal, fun _ => (h.ours _).current.mp asked.2.1⟩⟩
  · exact h.kept rfl rfl rfl rfl rfl

theorem pushSubnegotiation (h : Balanced replies codec) (byte : UInt8) :
    Balanced (replies ++ (codec.pushSubnegotiation byte).output.replies)
      (codec.pushSubnegotiation byte).state := by
  unfold TelnetCodec.pushSubnegotiation
  split <;> exact h.kept rfl rfl rfl rfl rfl

theorem decodeByte (h : Balanced replies codec) (byte : UInt8) :
    Balanced (replies ++ (codec.decodeByte byte).output.replies) (codec.decodeByte byte).state := by
  unfold TelnetCodec.decodeByte
  split
  case h_1 => split <;> exact h.kept rfl rfl rfl rfl rfl
  case h_2 =>
    split
    · exact h.kept rfl rfl rfl rfl rfl
    split
    · exact h.kept rfl rfl rfl rfl rfl
    split <;> exact h.kept rfl rfl rfl rfl rfl
  case h_3 command _ =>
    have answered := h.handleNegotiation command byte
    exact ⟨answered.ours, answered.theirs, answered.terminal⟩
  case h_4 => exact h.kept rfl rfl rfl rfl rfl
  case h_5 =>
    split
    · exact h.kept rfl rfl rfl rfl rfl
    · exact h.pushSubnegotiation byte
  case h_6 =>
    split
    · have pushed := h.pushSubnegotiation iac
      rcases e : codec.pushSubnegotiation iac with ⟨state, output, _ | error⟩ <;> rw [e] at pushed
      · simp only [Scan.andThen_ok, Scan.start, add_zero]
        exact ⟨pushed.ours, pushed.theirs, pushed.terminal⟩
      · exact pushed
    split
    · have finished := h.finishSubnegotiation
      exact ⟨finished.ours, finished.theirs, finished.terminal⟩
    · exact h.kept rfl rfl rfl rfl rfl

theorem read (h : Balanced replies codec) (bytes : List UInt8) :
    Balanced (replies ++ (codec.read bytes).output.replies) (codec.read bytes).state := by
  have whole := scan_traces (I := fun (decoded : DecodeResult) codec =>
    Balanced decoded.replies codec) (fun _ _ byte h => h.decodeByte byte) (o := { replies }) h bytes
  simpa only [DecodeResult.add_replies, TelnetCodec.read] using whole

end Balanced

namespace TelnetCodec

/-- The replies appended during the calls of `decode` on the chunks, with those of
a call that then fails. -/
def issued (codec : TelnetCodec) : List (List UInt8) → List Reply
  | [] => []
  | chunk :: chunks => (codec.read chunk).output.replies ++ (codec.decode chunk).2.issued chunks

theorem decode_codec (codec : TelnetCodec) (bytes : List UInt8) :
    (codec.decode bytes).2 = (codec.read bytes).state := by
  unfold decode
  split <;> rfl

end TelnetCodec

variable {codec : TelnetCodec}

theorem Balanced.chunks {replies : List Reply} (h : Balanced replies codec)
    (chunks : List (List UInt8)) :
    Balanced (replies ++ codec.issued chunks) (codec.decodeChunks chunks).2 := by
  induction chunks generalizing replies codec with
  | nil =>
    rw [TelnetCodec.issued, List.append_nil]
    exact h
  | cons chunk chunks ih =>
    have first := h.read chunk
    rw [← codec.decode_codec chunk] at first
    rw [TelnetCodec.issued, ← List.append_assoc]
    exact ih first

def returned (results : List (Except ProtocolError DecodeResult)) : List Reply :=
  results.flatMap fun
    | .ok decoded => decoded.replies
    | .error _ => []

theorem returned_eq_issued {chunks : List (List UInt8)}
    (ok : ∀ result ∈ (codec.decodeChunks chunks).1, result.isOk) :
    returned (codec.decodeChunks chunks).1 = codec.issued chunks := by
  induction chunks generalizing codec with
  | nil => rfl
  | cons chunk chunks ih =>
    have later := ih fun result mem => ok result (List.mem_cons_of_mem _ mem)
    have first : (codec.decode chunk).1.isOk := ok _ List.mem_cons_self
    obtain ⟨decoded, h⟩ : ∃ decoded, (codec.decode chunk).1 = .ok decoded := by
      cases h : (codec.decode chunk).1 with
      | ok decoded => exact ⟨decoded, rfl⟩
      | error => simp [h, Except.isOk, Except.toBool] at first
    have whole := TelnetCodec.decode_eq_ok.mp (Prod.ext h rfl)
    rw [TelnetCodec.issued, ← later, whole]
    simp [returned, TelnetCodec.decodeChunks, h]

/-- Replies are given only when an option changes: for each option they alternate
from on to off, or are a single refusal, and the last one tells whether it is on. -/
structure OnlyOnChange (replies : List Reply) (codec : TelnetCodec) : Prop where
  ours : ∀ option, if allowsLocal option then Alternates (replies.filterMap (Reply.local? option))
    else replies.filterMap (Reply.local? option) <+: [false]
  theirs : ∀ option,
    if allowsRemote option then Alternates (replies.filterMap (Reply.remote? option))
    else replies.filterMap (Reply.remote? option) <+: [false]
  localEnabled : ∀ option, codec.localEnabled option = true ↔
    (replies.filterMap (Reply.local? option)).getLast? = some true
  remoteEnabled : ∀ option, codec.remoteEnabled option = true ↔
    (replies.filterMap (Reply.remote? option)).getLast? = some true
  allowedLocal : ∀ option, codec.localEnabled option = true → allowsLocal option = true
  allowedRemote : ∀ option, codec.remoteEnabled option = true → allowsRemote option = true
  terminal : ∀ before after, replies = before ++ .terminalType :: after →
    (before.filterMap (Reply.local? optTerminalType)).getLast? = some true

theorem Answered.shape {allowed enabled refused : Bool} {verbs : List Bool}
    (h : Answered allowed enabled refused verbs) :
    if allowed then Alternates verbs else verbs <+: [false] := by
  split
  · exact h.alternates ‹_›
  · rw [h.once (Bool.of_not_eq_true ‹_›)]
    split <;> simp

theorem Balanced.onlyOnChange {replies : List Reply}
    (h : Balanced replies codec) : OnlyOnChange replies codec where
  ours option := (h.ours option).shape
  theirs option := (h.theirs option).shape
  localEnabled option := (h.ours option).current
  remoteEnabled option := (h.theirs option).current
  allowedLocal option := (h.ours option).listed
  allowedRemote option := (h.theirs option).listed
  terminal before after shape := h.terminal before .terminalType after shape rfl

/-- Of the replies `decode` has appended, in whatever chunks the stream came; and
so of the replies it returned, when no call failed. -/
theorem replies_only_on_change (chunks : List (List UInt8)) :
    OnlyOnChange (TelnetCodec.new.issued chunks) (TelnetCodec.new.decodeChunks chunks).2 ∧
      ((∀ result ∈ (TelnetCodec.new.decodeChunks chunks).1, result.isOk) →
        OnlyOnChange (returned (TelnetCodec.new.decodeChunks chunks).1)
          (TelnetCodec.new.decodeChunks chunks).2) := by
  have whole := (Balanced.new.chunks chunks).onlyOnChange
  rw [List.nil_append] at whole
  exact ⟨whole, fun ok => (returned_eq_issued ok).symm ▸ whole⟩

def failingRead : List UInt8 :=
  [iac, doCode, optNaws] ++ ([iac, sb, optBinary] ++
    appendEscaped (List.replicate maxSubnegotiationBytes 120) ++ appendEscaped [120])

theorem read_failingRead : ∃ output codec,
    TelnetCodec.new.read failingRead = ⟨codec, output, some .subnegotiationTooLarge⟩ ∧
      codec.localEnabled optNaws = true := by
  have turned : TelnetCodec.new.read [iac, doCode, optNaws] = ⟨{ TelnetCodec.new with
          localEnabled := Function.update (fun _ => false) optNaws true
          localRefused := Function.update (fun _ => false) optNaws false },
        { replies := [.will optNaws], enabled := [.localNaws] }, none⟩ := rfl
  rw [failingRead, TelnetCodec.read_append, turned, Scan.andThen_ok,
    TelnetCodec.read_after (TelnetCodec.read_block rfl (by simp)),
    TelnetCodec.read_payload_overflow (by simp)]
  exact ⟨_, _, rfl, rfl⟩

/-- The failed call has turned the option on, but its reply is lost. -/
theorem failingRead_not_onlyOnChange :
    ¬ OnlyOnChange (returned (TelnetCodec.new.decodeChunks [failingRead]).1)
      (TelnetCodec.new.decodeChunks [failingRead]).2 := by
  intro h
  obtain ⟨output, codec, failed, on⟩ := read_failingRead
  have current := h.localEnabled optNaws
  simp [TelnetCodec.decodeChunks, TelnetCodec.decode, failed, returned, on] at current

end NoriShell.Telnet

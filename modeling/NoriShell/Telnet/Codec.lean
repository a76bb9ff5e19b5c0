import Mathlib.Logic.Function.Basic
import NoriShell.Transducer

/-! The Telnet decoder of `telnet-runtime`: a byte-at-a-time parser with an
allowlist of options. -/

namespace NoriShell.Telnet

def iac : UInt8 := 255
def dontCode : UInt8 := 254
def doCode : UInt8 := 253
def wontCode : UInt8 := 252
def willCode : UInt8 := 251
def sb : UInt8 := 250
def se : UInt8 := 240

def optBinary : UInt8 := 0
def optEcho : UInt8 := 1
def optSuppressGoAhead : UInt8 := 3
def optTerminalType : UInt8 := 24
def optNaws : UInt8 := 31

def ttypeIs : UInt8 := 0
def ttypeSend : UInt8 := 1

def maxSubnegotiationBytes : Nat := 4 * 1024

def defaultTerminalType : List UInt8 :=
  [120, 116, 101, 114, 109, 45, 50, 53, 54, 99, 111, 108, 111, 114]

def appendEscaped : List UInt8 → List UInt8
  | [] => []
  | byte :: bytes =>
    if byte = iac then byte :: iac :: appendEscaped bytes else byte :: appendEscaped bytes

def encodeUserInput (data : List UInt8) : List UInt8 := appendEscaped data

def toBeBytes (n : UInt16) : List UInt8 := [(n >>> 8).toUInt8, n.toUInt8]

def encodeNaws (rows cols : UInt16) : List UInt8 :=
  [iac, sb, optNaws] ++ appendEscaped (toBeBytes cols) ++ appendEscaped (toBeBytes rows)
    ++ [iac, se]

inductive NegotiatedOption where
  | localNaws
  | localTerminalType
  | localBinary
  | remoteBinary
  | remoteEcho
  | remoteSuppressGoAhead
  deriving DecidableEq, Repr

/-- What the decoder answers; `encode` gives the bytes it appends to `responses`. -/
inductive Reply where
  | will (option : UInt8)
  | wont (option : UInt8)
  | doOption (option : UInt8)
  | dont (option : UInt8)
  | terminalType
  deriving DecidableEq, Repr

def Reply.encode : Reply → List UInt8
  | .will option => [iac, willCode, option]
  | .wont option => [iac, wontCode, option]
  | .doOption option => [iac, doCode, option]
  | .dont option => [iac, dontCode, option]
  | .terminalType =>
    [iac, sb, optTerminalType, ttypeIs] ++ appendEscaped defaultTerminalType ++ [iac, se]

@[ext]
structure DecodeResult where
  data : List UInt8 := []
  replies : List Reply := []
  enabled : List NegotiatedOption := []
  deriving DecidableEq, Repr

namespace DecodeResult

def responses (decoded : DecodeResult) : List UInt8 := decoded.replies.flatMap Reply.encode

instance : Zero DecodeResult := ⟨{}⟩

instance : Add DecodeResult :=
  ⟨fun a b => ⟨a.data ++ b.data, a.replies ++ b.replies, a.enabled ++ b.enabled⟩⟩

instance : AddMonoid DecodeResult where
  add_assoc a b c := DecodeResult.ext (List.append_assoc ..) (List.append_assoc ..)
    (List.append_assoc ..)
  zero_add _ := rfl
  add_zero a := DecodeResult.ext (List.append_nil _) (List.append_nil _) (List.append_nil _)
  nsmul := nsmulRec

variable (a b : DecodeResult)

@[simp] theorem zero_data : (0 : DecodeResult).data = [] := rfl
@[simp] theorem zero_replies : (0 : DecodeResult).replies = [] := rfl
@[simp] theorem zero_enabled : (0 : DecodeResult).enabled = [] := rfl
@[simp] theorem add_data : (a + b).data = a.data ++ b.data := rfl
@[simp] theorem add_replies : (a + b).replies = a.replies ++ b.replies := rfl
@[simp] theorem add_enabled : (a + b).enabled = a.enabled ++ b.enabled := rfl

@[simp] theorem add_responses : (a + b).responses = a.responses ++ b.responses := by
  simp [responses]

end DecodeResult

inductive ProtocolError where
  | subnegotiationTooLarge
  deriving DecidableEq, Repr

inductive ParseState where
  | data
  | iac
  | negotiation (command : UInt8)
  | subnegotiationOption
  | subnegotiation
  | subnegotiationIac
  deriving DecidableEq, Repr

structure TelnetCodec where
  state : ParseState
  subnegotiationOption : Option UInt8
  subnegotiation : List UInt8
  localEnabled : UInt8 → Bool
  remoteEnabled : UInt8 → Bool
  localRefused : UInt8 → Bool
  remoteRefused : UInt8 → Bool

def allowsLocal (option : UInt8) : Bool :=
  option = optBinary || option = optTerminalType || option = optNaws

def allowsRemote (option : UInt8) : Bool :=
  option = optBinary || option = optEcho || option = optSuppressGoAhead

/-- The source's last arm is `unreachable!`; here the caller proves that it is. -/
def localOption (option : UInt8) (allowed : allowsLocal option) : NegotiatedOption :=
  if naws : option = optNaws then .localNaws
  else if terminalType : option = optTerminalType then .localTerminalType
  else if binary : option = optBinary then .localBinary
  else absurd allowed (by simp [allowsLocal, naws, terminalType, binary])

def remoteOption (option : UInt8) (allowed : allowsRemote option) : NegotiatedOption :=
  if binary : option = optBinary then .remoteBinary
  else if echo : option = optEcho then .remoteEcho
  else if goAhead : option = optSuppressGoAhead then .remoteSuppressGoAhead
  else absurd allowed (by simp [allowsRemote, binary, echo, goAhead])

namespace TelnetCodec

def new : TelnetCodec where
  state := .data
  subnegotiationOption := none
  subnegotiation := []
  localEnabled _ := false
  remoteEnabled _ := false
  localRefused _ := false
  remoteRefused _ := false

def localNawsEnabled (codec : TelnetCodec) : Bool := codec.localEnabled optNaws

def pushSubnegotiation (codec : TelnetCodec) (byte : UInt8) :
    Scan TelnetCodec DecodeResult ProtocolError :=
  if codec.subnegotiation.length ≥ maxSubnegotiationBytes then
    ⟨{ codec with subnegotiation := [], subnegotiationOption := none, state := .data }, 0,
      some .subnegotiationTooLarge⟩
  else
    ⟨{ codec with subnegotiation := codec.subnegotiation ++ [byte] }, 0, none⟩

def handleNegotiation (codec : TelnetCodec) (command option : UInt8) : TelnetCodec × DecodeResult :=
  if command = doCode then
    if allowed : allowsLocal option then
      if codec.localEnabled option then (codec, 0)
      else
        ({ codec with
            localEnabled := Function.update codec.localEnabled option true
            localRefused := Function.update codec.localRefused option false },
          { replies := [.will option], enabled := [localOption option allowed] })
    else if codec.localRefused option then (codec, 0)
    else
      ({ codec with localRefused := Function.update codec.localRefused option true },
        { replies := [.wont option] })
  else if command = dontCode then
    if codec.localEnabled option then
      ({ codec with localEnabled := Function.update codec.localEnabled option false },
        { replies := [.wont option] })
    else (codec, 0)
  else if command = willCode then
    if allowed : allowsRemote option then
      if codec.remoteEnabled option then (codec, 0)
      else
        ({ codec with
            remoteEnabled := Function.update codec.remoteEnabled option true
            remoteRefused := Function.update codec.remoteRefused option false },
          { replies := [.doOption option], enabled := [remoteOption option allowed] })
    else if codec.remoteRefused option then (codec, 0)
    else
      ({ codec with remoteRefused := Function.update codec.remoteRefused option true },
        { replies := [.dont option] })
  else if command = wontCode ∧ codec.remoteEnabled option then
    ({ codec with remoteEnabled := Function.update codec.remoteEnabled option false },
      { replies := [.dont option] })
  else (codec, 0)

def finishSubnegotiation (codec : TelnetCodec) : TelnetCodec × DecodeResult :=
  ({ codec with subnegotiation := [], subnegotiationOption := none },
    if codec.subnegotiationOption = some optTerminalType ∧ codec.localEnabled optTerminalType ∧
        codec.subnegotiation = [ttypeSend] then
      { replies := [.terminalType] }
    else 0)

def decodeByte (codec : TelnetCodec) (byte : UInt8) : Scan TelnetCodec DecodeResult ProtocolError :=
  match codec.state with
  | .data =>
    if byte = iac then .start { codec with state := .iac } else ⟨codec, { data := [byte] }, none⟩
  | .iac =>
    if byte = iac then ⟨{ codec with state := .data }, { data := [iac] }, none⟩
    else if byte = doCode ∨ byte = dontCode ∨ byte = willCode ∨ byte = wontCode then
      .start { codec with state := .negotiation byte }
    else if byte = sb then .start { codec with state := .subnegotiationOption }
    else .start { codec with state := .data }
  | .negotiation command =>
    let (codec, decoded) := codec.handleNegotiation command byte
    ⟨{ codec with state := .data }, decoded, none⟩
  | .subnegotiationOption =>
    .start { codec with
      subnegotiationOption := some byte, subnegotiation := [], state := .subnegotiation }
  | .subnegotiation =>
    if byte = iac then .start { codec with state := .subnegotiationIac }
    else codec.pushSubnegotiation byte
  | .subnegotiationIac =>
    if byte = iac then
      (codec.pushSubnegotiation iac).andThen fun codec =>
        .start { codec with state := .subnegotiation }
    else if byte = se then
      let (codec, decoded) := codec.finishSubnegotiation
      ⟨{ codec with state := .data }, decoded, none⟩
    else
      -- A malformed command ends the block, which is discarded.
      .start { codec with subnegotiation := [], subnegotiationOption := none, state := .data }

def read (codec : TelnetCodec) (bytes : List UInt8) : Scan TelnetCodec DecodeResult ProtocolError :=
  scan decodeByte codec bytes

/-- A failure drops what the call had collected; the codec keeps its changes. -/
def decode (codec : TelnetCodec) (bytes : List UInt8) :
    Except ProtocolError DecodeResult × TelnetCodec :=
  match (codec.read bytes).failure with
  | some error => (.error error, (codec.read bytes).state)
  | none => (.ok (codec.read bytes).output, (codec.read bytes).state)

def decodeChunks (codec : TelnetCodec) :
    List (List UInt8) → List (Except ProtocolError DecodeResult) × TelnetCodec
  | [] => ([], codec)
  | chunk :: chunks =>
    let rest := (codec.decode chunk).2.decodeChunks chunks
    ((codec.decode chunk).1 :: rest.1, rest.2)

end TelnetCodec

end NoriShell.Telnet

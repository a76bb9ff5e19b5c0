import Mathlib.Data.List.Basic
import NoriShell.Telnet.Codec

/-! The connection of `telnet-runtime`.  A call of `next_event` moves from one await
point to the next, and its future may be dropped at each of them. -/

namespace NoriShell.Telnet

def maxInputBytes : Nat := 1024 * 1024
def readBufferBytes : Nat := 32 * 1024

structure TelnetConnection where
  codec : TelnetCodec
  rows : UInt16
  cols : UInt16
  pendingProtocolWrite : List UInt8
  pendingProtocolOffset : Nat
  pendingData : List (List UInt8)
  closed : Bool

namespace TelnetConnection

def connect (rows cols : UInt16) : TelnetConnection where
  codec := .new
  rows := rows
  cols := cols
  pendingProtocolWrite := []
  pendingProtocolOffset := 0
  pendingData := []
  closed := false

def unwritten (connection : TelnetConnection) : List UInt8 :=
  connection.pendingProtocolWrite.drop connection.pendingProtocolOffset

def clearWrites (connection : TelnetConnection) : TelnetConnection :=
  { connection with pendingProtocolWrite := [], pendingProtocolOffset := 0 }

end TelnetConnection

/-- A unit of output.  `report` is the window size queued with the replies of a
read, `resized` the one written by `resize`. -/
inductive Message where
  | reply (reply : Reply)
  | report (rows cols : UInt16)
  | resized (rows cols : UInt16)
  | input (data : List UInt8)
  deriving DecidableEq, Repr

def Message.encode : Message → List UInt8
  | .reply answer => answer.encode
  | .report rows cols => encodeNaws rows cols
  | .resized rows cols => encodeNaws rows cols
  | .input data => encodeUserInput data

def batch (rows cols : UInt16) (decoded : DecodeResult) : List Message :=
  decoded.replies.map .reply ++
    if .localNaws ∈ decoded.enabled then [.report rows cols] else []

inductive Await where
  | idle
  | write
  | read
  deriving DecidableEq, Repr

structure ReadRecord where
  bytes : List UInt8
  rows : UInt16
  cols : UInt16

/-- A connection together with what passed between it and the outside: the bytes the
socket took, the reads, the events handed out, and what was queued or written. -/
structure Session where
  connection : TelnetConnection
  await : Await
  wire : List UInt8
  reads : List ReadRecord
  delivered : List (List UInt8)
  sent : List Message

inductive Action where
  | nextEvent
  | write (count : Nat)
  | read (bytes : List UInt8)
  | drop
  | sendInput (data : List UInt8)
  | resize (rows cols : UInt16)

namespace Session

def start (rows cols : UInt16) : Session where
  connection := .connect rows cols
  await := .idle
  wire := []
  reads := []
  delivered := []
  sent := []

/-- The end of `flush_protocol_write` inside `next_event`, up to the next await. -/
def resume (session : Session) : Session :=
  let connection := session.connection.clearWrites
  match connection.pendingData with
  | data :: rest =>
    { session with
      connection := { connection with pendingData := rest }
      delivered := session.delivered ++ [data]
      await := .idle }
  | [] => { session with connection, await := .read }

/-- The test of the loop of `flush_protocol_write`. -/
def flush (session : Session) : Session :=
  if session.connection.pendingProtocolOffset < session.connection.pendingProtocolWrite.length then
    { session with await := .write }
  else session.resume

/-- What the socket may take of the bytes it is offered; nothing is an error. -/
def write (session : Session) (count : Nat) : Session :=
  let unwritten := session.connection.unwritten
  if count = 0 then { session with await := .idle }
  else if count ≤ unwritten.length then
    flush { session with
      connection := { session.connection with
        pendingProtocolOffset := session.connection.pendingProtocolOffset + count }
      wire := session.wire ++ unwritten.take count }
  else session

/-- The part of `next_event` between a read and the flush that follows. -/
def receive (session : Session) (bytes : List UInt8) : Session :=
  let connection := session.connection
  let reads := session.reads ++ [⟨bytes, connection.rows, connection.cols⟩]
  match connection.codec.decode bytes with
  | (.error _, codec) =>
    { session with reads, connection := { connection with codec }, await := .idle }
  | (.ok decoded, codec) =>
    let enabledNaws := NegotiatedOption.localNaws ∈ decoded.enabled
    flush { session with
      reads
      connection := { connection with
        codec
        pendingProtocolWrite := connection.pendingProtocolWrite ++ decoded.responses ++
          if enabledNaws then encodeNaws connection.rows connection.cols else []
        pendingData :=
          if decoded.data = [] then connection.pendingData
          else connection.pendingData ++ [decoded.data] }
      sent := session.sent ++ batch connection.rows connection.cols decoded }

def flushAll (session : Session) : Session :=
  { session with
    connection := session.connection.clearWrites
    wire := session.wire ++ session.connection.unwritten }

def writeAll (session : Session) (message : Message) : Session :=
  { session with
    wire := session.wire ++ message.encode
    sent := session.sent ++ [message] }

def sendInput (session : Session) (data : List UInt8) : Session :=
  if session.connection.closed then session
  else if data.length > maxInputBytes then session
  else session.flushAll.writeAll (.input data)

def resize (session : Session) (rows cols : UInt16) : Session :=
  if session.connection.closed then session
  else if rows = 0 ∨ cols = 0 then session
  else
    let session := { session with connection := { session.connection with rows, cols } }.flushAll
    if session.connection.codec.localNawsEnabled then session.writeAll (.resized rows cols)
    else session

def step (session : Session) : Action → Session
  | .nextEvent =>
    if session.await = .idle ∧ ¬session.connection.closed then session.flush else session
  | .write count => if session.await = .write then session.write count else session
  | .read bytes =>
    if session.await = .read ∧ bytes.length ≤ readBufferBytes then
      if bytes = [] then
        { session with connection := { session.connection with closed := true }, await := .idle }
      else session.receive bytes
    else session
  | .drop => { session with await := .idle }
  | .sendInput data => if session.await = .idle then session.sendInput data else session
  | .resize rows cols => if session.await = .idle then session.resize rows cols else session

def run (session : Session) (actions : List Action) : Session := actions.foldl step session

end Session

end NoriShell.Telnet

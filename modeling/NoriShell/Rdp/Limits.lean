import NoriShell.Rdp.Wire

/-! The fences of `rdp-client` in front of the reassembly of the engine, and the reassembly as the
engine is taken to do it. -/

namespace NoriShell.Rdp

open Collections Desktop

def maxFragment : Nat := 16 * 1024 * 1024
def maxChannel : Nat := 4 * 1024 * 1024

inductive Fragmentation where
  | single
  | first
  | next
  | last
  deriving DecidableEq

structure FastPathUpdate where
  fragmentation : Fragmentation
  compressed : Bool
  data : List UInt8

structure Codec where
  /-- The updates of a packet whose header can be read, and whether something that is no update
  follows them. -/
  fastPath : List UInt8 → Option (List FastPathUpdate × Bool)
  /-- The channel and the user data of a send-data indication. -/
  sendData : List UInt8 → Option (UInt16 × List UInt8)
  /-- The total that a DRDYNVC message declares, where it is the first of several. -/
  declaredTotal : List UInt8 → Option (Option Nat)

def littleEndian (bytes : List UInt8) : Nat := bytes.foldr (fun b n => b.toNat + 256 * n) 0

def isLastChunk (userData : List UInt8) : Bool :=
  littleEndian ((userData.drop 4).take 4) &&& 2 ≠ 0

structure Limits where
  fast : Nat
  channels : UInt16 → Option (List UInt8)
  dynamic : Option UInt16

namespace Limits

def new (ids : List UInt16) (dynamic : Option UInt16) : Limits where
  fast := 0
  channels id := if ids.contains id then some [] else none
  dynamic := dynamic

def setPending (l : Limits) (id : UInt16) (pending : List UInt8) : Limits :=
  { l with channels := Function.update l.channels id (some pending) }

def admitUpdate (l : Limits) (update : FastPathUpdate) : Except EngineError Limits := do
  reject update.compressed .unsupportedOperation
  let fast := if update.fragmentation = .single ∨ update.fragmentation = .first then 0 else l.fast
  let fast := fast + update.data.length
  reject (2 ^ 64 ≤ fast) .resourceLimit
  reject (maxFragment < fast) .resourceLimit
  return { l with
    fast := if update.fragmentation = .single ∨ update.fragmentation = .last then 0 else fast }

end Limits

section

variable (codec : Codec)

def checkTotal (message : List UInt8) : Except EngineError Unit := do
  let declared ← (codec.declaredTotal message).elim (.error .protocol) .ok
  reject (declared.any (maxChannel < ·)) .resourceLimit

namespace Limits

def checkFastPath (l : Limits) (bytes : List UInt8) : Except EngineError Limits := do
  let decoded ← (codec.fastPath bytes).elim (.error .protocol) .ok
  let l ← decoded.1.foldlM admitUpdate l
  reject decoded.2 .protocol
  return l

def checkChunk (l : Limits) (id : UInt16) (pending userData : List UInt8) :
    Except EngineError Limits := do
  reject (userData.length < 8) .protocol
  reject (maxChannel < littleEndian (userData.take 4) ∨
    maxChannel < pending.length + userData.length - 8) .resourceLimit
  let pending := pending ++ userData.drop 8
  if isLastChunk userData then
    if l.dynamic = some id then checkTotal codec pending
    return l.setPending id []
  else
    return l.setPending id pending

def check (l : Limits) (action : Action) (bytes : List UInt8) : Except EngineError Limits :=
  match action with
  | .fastPath => l.checkFastPath codec bytes
  | .x224 =>
    match codec.sendData bytes with
    | none => .ok l
    | some (id, userData) =>
      match l.channels id with
      | none => .ok l
      | some pending => l.checkChunk codec id pending userData

def checkUdpDvc (bytes : List UInt8) : Except EngineError Unit := do
  reject (bytes = [] ∨ 65535 < bytes.length) .resourceLimit
  checkTotal codec bytes

end Limits

/-- What the engine holds, how long its buffers have been at most, and the DRDYNVC messages that
were completed. -/
structure Engine where
  fast : List UInt8 := []
  fastHigh : Nat := 0
  channels : UInt16 → List UInt8 := fun _ => []
  channelHigh : UInt16 → Nat := fun _ => 0
  messages : List (List UInt8) := []

namespace Engine

/-- A buffer is begun by the first fragment, and handed over with the last one. -/
def update (e : Engine) (u : FastPathUpdate) : Engine :=
  match u.fragmentation with
  | .single => { e with fast := [] }
  | .first => { e with fast := u.data, fastHigh := max e.fastHigh u.data.length }
  | .next =>
    let buffer := e.fast ++ u.data
    { e with fast := buffer, fastHigh := max e.fastHigh buffer.length }
  | .last =>
    let buffer := e.fast ++ u.data
    { e with fast := [], fastHigh := max e.fastHigh buffer.length }

def chunk (e : Engine) (dynamic : Option UInt16) (id : UInt16) (userData : List UInt8) : Engine :=
  let buffer := e.channels id ++ userData.drop 8
  { e with
    channels := Function.update e.channels id (if isLastChunk userData then [] else buffer)
    channelHigh := Function.update e.channelHigh id (max (e.channelHigh id) buffer.length)
    messages := e.messages ++
      if isLastChunk userData ∧ dynamic = some id then [buffer] else [] }

def process (e : Engine) (dynamic : Option UInt16) (action : Action) (bytes : List UInt8) :
    Engine :=
  match action with
  | .fastPath => ((codec.fastPath bytes).elim [] Prod.fst).foldl update e
  | .x224 =>
    match codec.sendData bytes with
    | none => e
    | some (id, userData) => e.chunk dynamic id userData

end Engine

inductive Packet where
  | pdu (action : Action) (bytes : List UInt8)
  | udp (bytes : List UInt8)

def admitPacket (s : Limits × Engine) : Packet → Except EngineError (Limits × Engine)
  | .pdu action bytes => do
    let l ← s.1.check codec action bytes
    return (l, s.2.process codec s.1.dynamic action bytes)
  | .udp bytes => do
    Limits.checkUdpDvc codec bytes
    return (s.1, { s.2 with messages := s.2.messages ++ [bytes] })

end

end NoriShell.Rdp

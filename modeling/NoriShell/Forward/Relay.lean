import Mathlib

/-! The relay of a forwarded connection: one loop over two endpoints, each with a peer that
sends, reads and closes when it likes. -/

namespace NoriShell.Forward

def relayBufferBytes : Nat := 16 * 1024

inductive Side
  | first
  | second
  deriving DecidableEq

def Side.other : Side → Side
  | .first => .second
  | .second => .first

/-- What its peer has sent and the relay has not read, and how much it takes before its peer reads
again. -/
structure Endpoint where
  unread : List UInt8
  closed : Bool
  room : Nat
  received : List UInt8
  failed : Bool
  deriving DecidableEq

inductive Activity
  | reading
  | writing (target : Side) (rest : List UInt8) (size : Nat)
  | shutting (target : Side)
  | finished
  | stopped
  deriving DecidableEq

structure Relay where
  endpoints : Side → Endpoint
  eof : Side → Bool
  traffic : Side → Nat
  activity : Activity

inductive Step
  | read (source : Side) (count : Nat)
  | write (count : Nat)
  | shutdown
  | timeout
  | fail
  | send (side : Side) (bytes : List UInt8)
  | drain (side : Side) (count : Nat)
  | close (side : Side)
  | crash (side : Side)
  deriving DecidableEq

def Step.isRelay : Step → Bool
  | .read _ _ | .write _ | .shutdown | .timeout | .fail => true
  | _ => false

def Step.sends (side : Side) : Step → Nat
  | .send sender bytes => if sender = side then bytes.length else 0
  | _ => 0

namespace Relay

/-- `rooms` are the buffers between the relay and its peers. -/
def start (rooms : Side → Nat) : Relay where
  endpoints side := ⟨[], false, rooms side, [], false⟩
  eof _ := false
  traffic _ := 0
  activity := .reading

def set (relay : Relay) (side : Side) (endpoint : Endpoint) : Relay :=
  { relay with endpoints := Function.update relay.endpoints side endpoint }

def again (relay : Relay) : Relay :=
  { relay with activity := if relay.eof .first ∧ relay.eof .second then .finished else .reading }

/-- A read of no bytes is the end of the stream. -/
def readFrom (relay : Relay) (source : Side) (count : Nat) : Option Relay :=
  let endpoint := relay.endpoints source
  if relay.eof source ∨ endpoint.failed then none
  else if count = 0 then
    if endpoint.unread = [] ∧ endpoint.closed then
      some { relay with
        eof := Function.update relay.eof source true
        activity := .shutting source.other }
    else none
  else if count ≤ endpoint.unread.length ∧ count ≤ relayBufferBytes then
    some { relay.set source { endpoint with unread := endpoint.unread.drop count } with
      activity := .writing source.other (endpoint.unread.take count) count }
  else none

def writeTo (relay : Relay) (target : Side) (rest : List UInt8) (size count : Nat) : Option Relay :=
  let endpoint := relay.endpoints target
  if endpoint.failed ∨ count = 0 ∨ endpoint.room < count ∨ rest.length < count then none
  else
    let written := relay.set target { endpoint with
      room := endpoint.room - count
      received := endpoint.received ++ rest.take count }
    if rest.length = count then
      let traffic := Function.update relay.traffic target.other (relay.traffic target.other + size)
      some { written with traffic }.again
    else some { written with activity := .writing target (rest.drop count) size }

def isIdle (relay : Relay) (side : Side) : Bool :=
  relay.eof side || (relay.endpoints side).unread = [] && !(relay.endpoints side).closed

def isBroken (relay : Relay) : Bool :=
  match relay.activity with
  | .reading =>
    !relay.eof .first && (relay.endpoints .first).failed ||
      !relay.eof .second && (relay.endpoints .second).failed
  | .writing target _ _ => (relay.endpoints target).failed
  | .shutting target => (relay.endpoints target).failed
  | _ => false

def step (relay : Relay) : Step → Option Relay
  | .read source count => if relay.activity = .reading then relay.readFrom source count else none
  | .write count =>
    match relay.activity with
    | .writing target rest size => relay.writeTo target rest size count
    | _ => none
  | .shutdown =>
    match relay.activity with
    | .shutting target => if (relay.endpoints target).failed then none else some relay.again
    | _ => none
  | .timeout =>
    if relay.activity = .reading ∧ relay.isIdle .first ∧ relay.isIdle .second then
      some { relay with activity := .stopped }
    else none
  | .fail => if relay.isBroken then some { relay with activity := .stopped } else none
  | .send side bytes =>
    let endpoint := relay.endpoints side
    if endpoint.closed then none
    else some (relay.set side { endpoint with unread := endpoint.unread ++ bytes })
  | .drain side count =>
    let endpoint := relay.endpoints side
    some (relay.set side { endpoint with room := endpoint.room + count })
  | .close side => some (relay.set side { relay.endpoints side with closed := true })
  | .crash side => some (relay.set side { relay.endpoints side with failed := true })

def run (relay : Relay) : List Step → Option Relay
  | [] => some relay
  | step :: steps => relay.step step >>= (run · steps)

def CanMove (relay : Relay) (source : Side) : Prop :=
  ∃ steps after, (∀ step ∈ steps, step.isRelay) ∧ relay.run steps = some after ∧
    (relay.endpoints source.other).received.length < (after.endpoints source.other).received.length

/-- Parked in a write to a side that does not take all of it. -/
def Blocked (relay : Relay) (side : Side) : Prop :=
  ∃ rest size, relay.activity = .writing side rest size ∧ (relay.endpoints side).room < rest.length

structure Live (relay : Relay) : Prop where
  running : relay.activity ≠ .finished ∧ relay.activity ≠ .stopped
  intact : ∀ side, (relay.endpoints side).failed = false

end Relay

end NoriShell.Forward

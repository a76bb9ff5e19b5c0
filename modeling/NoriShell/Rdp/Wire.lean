import NoriShell.Desktop.Input

/-! The wire of `rdp-client`: reads of whole messages that may be dropped and begun again, and
writes that a change of focus may stop. -/

namespace NoriShell.Rdp

open Desktop

def maxPdu : Nat := 4 * 1024 * 1024

def chunkBytes : Nat := 8192

inductive Action where
  | fastPath
  | x224
  deriving DecidableEq

structure PduInfo where
  action : Action
  length : Nat
  deriving DecidableEq

structure Pdu where
  action : Action
  bytes : List UInt8
  deriving DecidableEq

def Pdu.info (pdu : Pdu) : PduInfo := ⟨pdu.action, pdu.bytes.length⟩

abbrev FindSize := List UInt8 → Except Unit (Option PduInfo)

/-- Where a `pdu` future waits for the read of `more`: called by `pdu` itself, or by `exact`. -/
inductive PduFuture where
  | sizing
  | filling (info : PduInfo)
  deriving DecidableEq

inductive Poll where
  | ready (result : Except EngineError Pdu)
  | pending (future : PduFuture)

def Wire.more (buffer : List UInt8) (future : PduFuture) : Poll :=
  if maxPdu ≤ buffer.length then .ready (.error .resourceLimit) else .pending future

/-- The loop of `exact` up to its next read, with the buffer it leaves. -/
def Wire.fill (info : PduInfo) (buffer : List UInt8) : Poll × List UInt8 :=
  if buffer.length < info.length then (Wire.more buffer (.filling info), buffer)
  else (.ready (.ok ⟨info.action, buffer.take info.length⟩), buffer.drop info.length)

def Wire.exact (info : PduInfo) (buffer : List UInt8) : Poll × List UInt8 :=
  if info.length = 0 ∨ maxPdu < info.length then (.ready (.error .resourceLimit), buffer)
  else Wire.fill info buffer

section

variable (findSize : FindSize)

def Wire.pdu (buffer : List UInt8) : Poll × List UInt8 :=
  match findSize buffer with
  | .error _ => (.ready (.error .protocol), buffer)
  | .ok (some info) => Wire.exact info buffer
  | .ok none => (Wire.more buffer .sizing, buffer)

/-- How the future goes on when its read is answered; a read that fails is as one of no bytes. -/
def PduFuture.resume (future : PduFuture) (chunk buffer : List UInt8) : Poll × List UInt8 :=
  if chunk = [] then (.ready (.error .connectionLost), buffer)
  else
    match future with
    | .sizing => Wire.pdu findSize (buffer ++ chunk)
    | .filling info => Wire.fill info (buffer ++ chunk)

structure Reader where
  buffer : List UInt8 := []
  inbound : List UInt8
  future : Option PduFuture := none
  results : List (Except EngineError Pdu) := []

inductive ReadEvent where
  | call
  /-- The stream gives the future some bytes, one more than `count` where it can. -/
  | read (count : Nat)
  | lost
  /-- The future is dropped where it waits. -/
  | drop
  deriving DecidableEq

namespace Reader

def settle (r : Reader) : Poll × List UInt8 → Reader
  | (.ready result, buffer) =>
    { r with buffer, future := none, results := r.results ++ [result] }
  | (.pending future, buffer) => { r with buffer, future := some future }

def step (r : Reader) : ReadEvent → Reader
  | .call =>
    match r.future with
    | none => r.settle (Wire.pdu findSize r.buffer)
    | some _ => r
  | .read count =>
    match r.future with
    | none => r
    | some future =>
      let taken := min (count + 1) chunkBytes
      if r.inbound = [] then r
      else
        { r with inbound := r.inbound.drop taken }.settle
          (future.resume findSize (r.inbound.take taken) r.buffer)
  | .lost =>
    match r.future with
    | none => r
    | some future => r.settle (future.resume findSize [] r.buffer)
  | .drop => { r with future := none }

def run (r : Reader) (events : List ReadEvent) : Reader := events.foldl (step findSize) r

def returned (r : Reader) : List Pdu :=
  r.results.filterMap fun result => result.toOption

end Reader

end

def staleOrTorn (written : Nat) : EngineError :=
  if written = 0 then .staleInput else .connectionLost

structure Focus where
  epoch : UInt64
  changed : Bool
  closed : Bool
  deriving DecidableEq

inductive StreamAnswer where
  | pending
  | accepted (count : Nat)
  | failed
  deriving DecidableEq

inductive FlushAnswer where
  | pending
  | done
  | failed
  deriving DecidableEq

inductive WriteEvent where
  | notify (epoch : UInt64)
  /-- The sender of the focus channel is gone. -/
  | close
  /-- One turn of the loop; the stream is asked where the focus channel has nothing new. -/
  | select (answer : StreamAnswer)
  | flush (answer : FlushAnswer)
  | timeout
  deriving DecidableEq

structure Writer where
  focus : Focus
  written : Nat := 0
  accepted : List UInt8 := []
  outcome : Option (Except EngineError Unit) := none

namespace Writer

def call (stop : Bool) (focus : Focus) (epoch : UInt64) : Writer :=
  if stop ∨ focus.epoch ≠ epoch then { focus, outcome := some (.error .staleInput) }
  else { focus := { focus with changed := false } }

def fails (w : Writer) (e : EngineError) : Writer := { w with outcome := some (.error e) }

def select (data : List UInt8) (epoch : UInt64) (w : Writer) (answer : StreamAnswer) : Writer :=
  if w.focus.changed then
    let seen := { w with focus := { w.focus with changed := false } }
    if w.focus.epoch = epoch then seen else seen.fails (staleOrTorn w.written)
  else if w.focus.closed then w.fails (staleOrTorn w.written)
  else
    match answer with
    | .pending => w
    | .failed => w.fails .connectionLost
    | .accepted count =>
      let bytes := (data.drop w.written).take count
      if bytes = [] then w.fails .connectionLost
      else { w with written := w.written + bytes.length, accepted := w.accepted ++ bytes }

def flush (w : Writer) : FlushAnswer → Writer
  | .pending => w
  | .done => { w with outcome := some (.ok ()) }
  | .failed => w.fails .connectionLost

def step (data : List UInt8) (epoch : UInt64) (w : Writer) (event : WriteEvent) : Writer :=
  match w.outcome with
  | some _ => w
  | none =>
    match event with
    | .notify sent => { w with focus := { w.focus with epoch := sent, changed := true } }
    | .close => { w with focus := { w.focus with closed := true } }
    | .select answer => if w.written < data.length then w.select data epoch answer else w
    | .flush answer => if w.written < data.length then w else w.flush answer
    | .timeout => w.fails .timeout

def writeFenced (data : List UInt8) (stop : Bool) (focus : Focus) (epoch : UInt64)
    (events : List WriteEvent) : Writer :=
  events.foldl (step data epoch) (call stop focus epoch)

end Writer

end NoriShell.Rdp

import Mathlib

/-! The writer for one pane's terminal input: one request in flight, and what is typed meanwhile
merged under its fence. -/

namespace NoriShell.Terminal

/-- As a script holds it: in units of UTF-16. -/
abbrev Text := List UInt16

def isHighSurrogate (unit : UInt16) : Bool := 0xd800 ≤ unit.toNat && unit.toNat < 0xdc00

def isLowSurrogate (unit : UInt16) : Bool := 0xdc00 ≤ unit.toNat && unit.toNat < 0xe000

/-- A surrogate without its other half is encoded as the replacement character. -/
def unitBytes (unit : UInt16) : Nat :=
  if unit.toNat < 0x80 then 1 else if unit.toNat < 0x800 then 2 else 3

def encodedBytes : Text → Nat
  | [] => 0
  | [unit] => unitBytes unit
  | unit :: next :: rest =>
    if isHighSurrogate unit && isLowSurrogate next then 4 + encodedBytes rest
    else unitBytes unit + encodedBytes (next :: rest)

def coalescedInputMaxBytes : Nat := 4096

/-- The number of its `send` stands for the promise of an item. -/
structure QueuedItem where
  send : Nat
  value : Text
  deriving DecidableEq

structure Batch (Key : Type) where
  key : Key
  items : List QueuedItem
  bytes : Nat
  isSealed : Bool

def Batch.text {Key : Type} (batch : Batch Key) : Text :=
  (batch.items.map QueuedItem.value).flatten

inductive InputError
  | fenceChanged
  | dropped
  | unavailable
  | writeFailed
  deriving DecidableEq

inductive Event (Key : Type)
  | sent (item : QueuedItem) (captured : Option Key) (isSealed : Bool)
  | wrote (current : Option Key) (items : List QueuedItem) (value : Text)
  | succeeded (items : List QueuedItem)
  | failed (items : List QueuedItem)
  | resolved (item : QueuedItem) (clientSeq : Nat) (lastInBatch : Bool)
  | rejected (item : QueuedItem) (error : InputError)

inductive Call
  | send (value : Text) (isSealed : Bool)
  | succeed (index clientSeq : Nat)
  | fail (index : Nat)
  | discardQueued

/-- `awaiting` are the writes that a `pump` is suspended in. -/
structure Writer (Key : Type) where
  queue : List (Batch Key)
  inFlight : Bool
  awaiting : List (Batch Key)
  sends : Nat
  prepares : Nat
  log : List (Event Key)

namespace Writer

variable {Key : Type} [DecidableEq Key]

def start : Writer Key := ⟨[], false, [], 0, 0, []⟩

def emit (events : List (Event Key)) (w : Writer Key) : Writer Key :=
  { w with log := w.log ++ events }

def reject (items : List QueuedItem) (error : InputError) (w : Writer Key) : Writer Key :=
  w.emit (items.map (.rejected · error))

def rejectQueued (w : Writer Key) : Writer Key :=
  { w.reject (w.queue.flatMap Batch.items) .dropped with queue := [] }

def abandon (batch : Batch Key) (error : InputError) (w : Writer Key) : Writer Key :=
  { (w.reject batch.items error).rejectQueued with inFlight := false }

omit [DecidableEq Key] in
@[simp] theorem abandon_queue (batch : Batch Key) (error : InputError) (w : Writer Key) :
    (w.abandon batch error).queue = [] := rfl

def resolve (batch : Batch Key) (clientSeq : Nat) (w : Writer Key) : Writer Key :=
  w.emit (batch.items.mapIdx fun index item =>
    .resolved item clientSeq (index = batch.items.length - 1))

/-- `prepare` gives the fence at each of its calls. -/
def pump (prepare : Nat → Option Key) (w : Writer Key) : Writer Key :=
  if w.inFlight then w
  else
    match shape : w.queue with
    | [] => w
    | batch :: queue =>
      let current := prepare w.prepares
      let taken := { w with queue, inFlight := true, prepares := w.prepares + 1 }
      if current = some batch.key then
        { taken with awaiting := taken.awaiting ++ [batch] }.emit
          [.wrote current batch.items batch.text]
      else (taken.abandon batch .fenceChanged).pump prepare
termination_by w.queue.length
decreasing_by simp [shape]

/-- Into the last batch, if that is open, has the same fence and has room. -/
def enqueue (maxBatchBytes : Nat) (key : Key) (item : QueuedItem) (isSealed : Bool)
    (queue : List (Batch Key)) : List (Batch Key) :=
  let bytes := encodedBytes item.value
  match queue.getLast? with
  | some tail =>
    if !tail.isSealed ∧ tail.key = key ∧ tail.bytes + bytes ≤ maxBatchBytes then
      queue.dropLast ++ [⟨tail.key, tail.items ++ [item], tail.bytes + bytes, isSealed⟩]
    else queue ++ [⟨key, [item], bytes, isSealed⟩]
  | none => queue ++ [⟨key, [item], bytes, isSealed⟩]

def send (prepare : Nat → Option Key) (maxBatchBytes : Nat) (value : Text) (isSealed : Bool)
    (w : Writer Key) : Writer Key :=
  let item : QueuedItem := ⟨w.sends, value⟩
  let captured := prepare w.prepares
  let asked := { w with sends := w.sends + 1, prepares := w.prepares + 1 }.emit
    [.sent item captured isSealed]
  match captured with
  | none => asked.reject [item] .unavailable
  | some key =>
    { asked with queue := enqueue maxBatchBytes key item isSealed asked.queue }.pump prepare

/-- The write of a suspended `pump` has come to its end. -/
def succeed (prepare : Nat → Option Key) (index clientSeq : Nat) (w : Writer Key) : Writer Key :=
  match w.awaiting[index]? with
  | none => w
  | some batch =>
    let ended := { w with awaiting := w.awaiting.eraseIdx index }.emit [.succeeded batch.items]
    { ended.resolve batch clientSeq with inFlight := false }.pump prepare

def fail (prepare : Nat → Option Key) (index : Nat) (w : Writer Key) : Writer Key :=
  match w.awaiting[index]? with
  | none => w
  | some batch =>
    let ended := { w with awaiting := w.awaiting.eraseIdx index }.emit [.failed batch.items]
    (ended.abandon batch .writeFailed).pump prepare

def step (prepare : Nat → Option Key) (maxBatchBytes : Nat) (w : Writer Key) : Call → Writer Key
  | .send value isSealed => w.send prepare maxBatchBytes value isSealed
  | .succeed index clientSeq => w.succeed prepare index clientSeq
  | .fail index => w.fail prepare index
  | .discardQueued => w.rejectQueued

def run (prepare : Nat → Option Key) (maxBatchBytes : Option Nat) (calls : List Call) :
    Writer Key :=
  calls.foldl (step prepare (maxBatchBytes.getD coalescedInputMaxBytes)) start

end Writer

end NoriShell.Terminal

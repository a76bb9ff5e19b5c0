import NoriShell.Rdp.Wire

namespace NoriShell.Rdp

open Desktop

/-- A size function settles on an answer that more bytes do not change. -/
def Settles (findSize : FindSize) : Prop :=
  ∀ bytes later, findSize bytes ≠ .ok none → findSize (bytes ++ later) = findSize bytes

def stream (pdus : List Pdu) : List UInt8 := pdus.flatMap Pdu.bytes

/-- Of a message that the rest of the stream starts with, the size function knows the size
after the first bytes of the rest, no more than the longest message has. -/
structure Frames (findSize : FindSize) (pdu : Pdu) (rest : List Pdu) : Prop where
  nonempty : pdu.bytes ≠ []
  short : pdu.bytes.length ≤ maxPdu
  known : findSize ((stream (pdu :: rest)).take maxPdu) = .ok (some pdu.info)

/-- A stream of messages that a size function can tell apart.  Before the first byte it need not
know anything, but nothing absurd either. -/
structure Framed (findSize : FindSize) (pdus : List Pdu) : Prop where
  settles : Settles findSize
  begins : findSize [] = .ok none ∨
    ∃ info, findSize [] = .ok (some info) ∧ 0 < info.length ∧ info.length ≤ maxPdu
  frames : ∀ before pdu rest, pdus = before ++ pdu :: rest → Frames findSize pdu rest

@[simp] theorem stream_nil : stream [] = [] := rfl

@[simp] theorem stream_cons (pdu : Pdu) (pdus : List Pdu) :
    stream (pdu :: pdus) = pdu.bytes ++ stream pdus := rfl

@[simp] theorem Pdu.length_info (pdu : Pdu) : pdu.info.length = pdu.bytes.length := rfl

namespace Framed

variable {findSize : FindSize} {pdus rest : List Pdu} {pdu : Pdu} {buffer inbound : List UInt8}

theorem tail (framed : Framed findSize (pdu :: rest)) : Framed findSize rest where
  settles := framed.settles
  begins := framed.begins
  frames before p rest' split := framed.frames (pdu :: before) p rest' (by rw [split]; rfl)

theorem answer (framed : Framed findSize (pdu :: rest))
    (received : buffer ++ inbound = stream (pdu :: rest)) (known : findSize buffer ≠ .ok none) :
    findSize buffer = .ok (some pdu.info) := by
  have first := (framed.frames [] pdu rest rfl).known
  have whole := framed.settles _ ((stream (pdu :: rest)).drop maxPdu) (by rw [first]; simp)
  rw [List.take_append_drop, first, ← received, framed.settles _ _ known] at whole
  exact whole

theorem room (framed : Framed findSize pdus) (received : buffer ++ inbound = stream pdus)
    (unknown : findSize buffer = .ok none) : buffer.length < maxPdu := by
  by_contra full
  rw [Nat.not_lt] at full
  cases pdus with
  | nil =>
    rw [(List.append_eq_nil_iff.1 received).1] at full
    exact absurd full (by decide)
  | cons pdu rest =>
    have first := (framed.frames [] pdu rest rfl).known
    rw [← received, List.take_append_of_le_length full] at first
    have whole := framed.settles _ (buffer.drop maxPdu) (by rw [first]; simp)
    rw [List.take_append_drop, first, unknown] at whole
    simp at whole

end Framed

def Waits (findSize : FindSize) (rest : List Pdu) (buffer : List UInt8) : PduFuture → Prop
  | .sizing => findSize buffer = .ok none
  | .filling info => buffer.length < info.length ∧ info.length ≤ maxPdu ∧
      ∀ pdu pdus, rest = pdu :: pdus → info = pdu.info

/-- What a poll comes to when `rest` is still to be returned: the next message, or a wait. -/
inductive Polled (findSize : FindSize) (rest : List Pdu) (buffer inbound : List UInt8) :
    Poll × List UInt8 → Prop
  | returned (pdu : Pdu) (pdus : List Pdu) (left : List UInt8) (first : rest = pdu :: pdus)
      (kept : left ++ inbound = stream pdus) :
      Polled findSize rest buffer inbound (.ready (.ok pdu), left)
  | waits (future : PduFuture) (waits : Waits findSize rest buffer future) :
      Polled findSize rest buffer inbound (.pending future, buffer)

section

variable {findSize : FindSize} {rest : List Pdu} {buffer inbound : List UInt8} {info : PduInfo}

theorem polled_fill (received : buffer ++ inbound = stream rest) (short : info.length ≤ maxPdu)
    (positive : 0 < info.length) (right : ∀ pdu pdus, rest = pdu :: pdus → info = pdu.info) :
    Polled findSize rest buffer inbound (Wire.fill info buffer) := by
  unfold Wire.fill
  split
  · next few =>
    rw [Wire.more, if_neg (by omega)]
    exact .waits _ ⟨few, short, right⟩
  · next enough =>
    cases rest with
    | nil =>
      rw [(List.append_eq_nil_iff.1 received).1] at enough
      exact absurd positive (by simpa using enough)
    | cons pdu pdus =>
      obtain rfl := right pdu pdus rfl
      have long : pdu.bytes.length ≤ buffer.length := Nat.le_of_not_lt enough
      have same : buffer.take pdu.bytes.length = pdu.bytes := by
        have whole := congrArg (List.take pdu.bytes.length) received
        rw [List.take_append_of_le_length long] at whole
        simpa using whole
      change Polled _ _ _ _ (.ready (.ok ⟨pdu.action, buffer.take pdu.bytes.length⟩), _)
      rw [same]
      refine .returned pdu pdus _ rfl ?_
      have left := congrArg (List.drop pdu.bytes.length) received
      rw [List.drop_append_of_le_length long] at left
      simpa using left

theorem polled_pdu (framed : Framed findSize rest) (received : buffer ++ inbound = stream rest) :
    Polled findSize rest buffer inbound (Wire.pdu findSize buffer) := by
  unfold Wire.pdu
  cases rest with
  | nil =>
    obtain ⟨rfl, rfl⟩ := List.append_eq_nil_iff.1 received
    rcases framed.begins with unknown | ⟨info, known, positive, short⟩
    · rw [unknown]
      exact .waits _ unknown
    · simp only [known, Wire.exact]
      rw [if_neg (by omega)]
      exact polled_fill received short positive (by simp)
  | cons pdu pdus =>
    by_cases unknown : findSize buffer = .ok none
    · simp only [unknown, Wire.more]
      rw [if_neg (Nat.not_le_of_lt (framed.room received unknown))]
      exact .waits _ unknown
    · have frames := framed.frames [] pdu pdus rfl
      have positive : 0 < pdu.info.length := List.length_pos_iff.2 frames.nonempty
      have short : pdu.info.length ≤ maxPdu := frames.short
      simp only [framed.answer received unknown, Wire.exact]
      rw [if_neg (by omega)]
      refine polled_fill received short positive ?_
      intro p ps same
      rw [(List.cons.inj same).1]

theorem polled_resume {future : PduFuture} {chunk : List UInt8} (framed : Framed findSize rest)
    (received : buffer ++ (chunk ++ inbound) = stream rest) (some_bytes : chunk ≠ [])
    (waits : Waits findSize rest buffer future) :
    Polled findSize rest (buffer ++ chunk) inbound (future.resume findSize chunk buffer) := by
  unfold PduFuture.resume
  rw [if_neg some_bytes]
  rw [← List.append_assoc] at received
  cases future with
  | sizing => exact polled_pdu framed received
  | filling info =>
    obtain ⟨few, short, right⟩ := waits
    exact polled_fill received short (Nat.lt_of_le_of_lt (Nat.zero_le _) few) right

end

/-- The reader has returned all but `rest`, whose bytes it holds or is still to get. -/
structure Owes (findSize : FindSize) (pdus : List Pdu) (r : Reader) (rest : List Pdu) : Prop where
  framed : Framed findSize rest
  returned : pdus = r.returned ++ rest
  received : r.buffer ++ r.inbound = stream rest
  errors : ∀ e, .error e ∈ r.results → e = .connectionLost
  waits : ∀ future, r.future = some future → Waits findSize rest r.buffer future

namespace Owes

variable {findSize : FindSize} {pdus rest : List Pdu} {r : Reader} {buffer inbound : List UInt8}
  {poll : Poll × List UInt8}

theorem settle (owes : Owes findSize pdus r rest) (received : buffer ++ inbound = stream rest)
    (polled : Polled findSize rest buffer inbound poll) :
    ∃ rest', Owes findSize pdus ({ r with inbound }.settle poll) rest' ∧
      (({ r with inbound }.settle poll).future = none → rest'.length < rest.length) := by
  cases polled with
  | returned pdu pdus' left first kept =>
    subst first
    refine ⟨pdus', ⟨owes.framed.tail, ?_, kept, ?_, by simp [Reader.settle]⟩, fun _ =>
      Nat.lt_succ_self _⟩
    · rw [owes.returned]
      simp [Reader.settle, Reader.returned, Except.toOption]
    · intro e member
      simp only [Reader.settle, List.mem_append, List.mem_singleton, reduceCtorEq, or_false]
        at member
      exact owes.errors e member
  | waits future waits =>
    refine ⟨rest, ⟨owes.framed, owes.returned, received, owes.errors, ?_⟩, by
      simp [Reader.settle]⟩
    intro future' same
    cases same
    exact waits

theorem lose (owes : Owes findSize pdus r rest) :
    Owes findSize pdus (r.settle (.ready (.error .connectionLost), r.buffer)) rest where
  framed := owes.framed
  returned := by
    rw [owes.returned]
    simp [Reader.settle, Reader.returned, Except.toOption]
  received := owes.received
  errors := by
    intro e member
    rcases List.mem_append.1 member with member | member
    · exact owes.errors e member
    · cases List.mem_singleton.1 member
      rfl
  waits := by simp [Reader.settle]

theorem call (owes : Owes findSize pdus r rest) (idle : r.future = none) :
    ∃ rest', Owes findSize pdus (r.step findSize .call) rest' ∧
      ((r.step findSize .call).future = none → rest'.length < rest.length) := by
  simp only [Reader.step, idle]
  exact owes.settle owes.received (polled_pdu owes.framed owes.received)

theorem step (owes : Owes findSize pdus r rest) (event : ReadEvent) :
    ∃ rest', Owes findSize pdus (r.step findSize event) rest' := by
  cases event with
  | call =>
    cases future : r.future with
    | none =>
      obtain ⟨rest', owes', -⟩ := owes.call future
      exact ⟨rest', owes'⟩
    | some waiting =>
      simp only [Reader.step, future]
      exact ⟨rest, owes⟩
  | read count =>
    cases future : r.future with
    | none =>
      simp only [Reader.step, future]
      exact ⟨rest, owes⟩
    | some waiting =>
      simp only [Reader.step, future]
      split
      · exact ⟨rest, owes⟩
      · next more =>
        have received := owes.received
        rw [← List.take_append_drop (min (count + 1) chunkBytes) r.inbound] at received
        have some_bytes : r.inbound.take (min (count + 1) chunkBytes) ≠ [] := by
          rw [Ne, List.take_eq_nil_iff, not_or]
          exact ⟨by simp [chunkBytes], more⟩
        obtain ⟨rest', owes', -⟩ := owes.settle (by rw [List.append_assoc]; exact received)
          (polled_resume owes.framed received some_bytes (owes.waits waiting future))
        exact ⟨rest', owes'⟩
  | lost =>
    cases future : r.future with
    | none =>
      simp only [Reader.step, future]
      exact ⟨rest, owes⟩
    | some waiting =>
      simp only [Reader.step, future]
      exact ⟨rest, owes.lose⟩
  | drop => exact ⟨rest, owes.framed, owes.returned, owes.received, owes.errors, by
      simp [Reader.step]⟩

theorem run (owes : Owes findSize pdus r rest) (events : List ReadEvent) :
    ∃ rest', Owes findSize pdus (r.run findSize events) rest' := by
  induction events generalizing r rest with
  | nil => exact ⟨rest, owes⟩
  | cons event events ih =>
    obtain ⟨rest', owes'⟩ := owes.step event
    exact ih owes'

theorem all_returned (owes : Owes findSize pdus r rest) (delivered : r.inbound = [])
    (pending : r.future ≠ none) : r.returned = pdus := by
  obtain ⟨future, waiting⟩ := Option.ne_none_iff_exists'.1 pending
  have waits := owes.waits future waiting
  have received := owes.received
  rw [delivered, List.append_nil] at received
  cases rest with
  | nil => exact (owes.returned.trans (List.append_nil _)).symm
  | cons pdu rest =>
    have known := (owes.framed.frames [] pdu rest rfl).known
    cases future with
    | sizing =>
      have answer := owes.framed.settles _ ((stream (pdu :: rest)).drop maxPdu)
        (by rw [known]; simp)
      rw [List.take_append_drop, known, ← received, waits] at answer
      simp at answer
    | filling info =>
      obtain ⟨few, -, right⟩ := waits
      rw [right pdu rest rfl, received] at few
      simp at few

theorem inbound_call (r : Reader) : (r.step findSize .call).inbound = r.inbound := by
  simp only [Reader.step]
  split
  · rcases Wire.pdu findSize r.buffer with ⟨_ | _, _⟩ <;> rfl
  · rfl

theorem calls (owes : Owes findSize pdus r rest) (delivered : r.inbound = []) {count : Nat}
    (enough : r.future = none → rest.length ≤ count) :
    (r.run findSize (List.replicate count .call)).returned = pdus := by
  induction count generalizing r rest with
  | zero =>
    by_cases idle : r.future = none
    · rw [owes.returned, List.eq_nil_of_length_eq_zero (Nat.le_zero.1 (enough idle)),
        List.append_nil]
      rfl
    · exact owes.all_returned delivered idle
  | succ count ih =>
    by_cases idle : r.future = none
    · obtain ⟨rest', owes', shorter⟩ := owes.call idle
      refine ih owes' ((inbound_call r).trans delivered) fun again => ?_
      exact Nat.le_of_lt_succ (Nat.lt_of_lt_of_le (shorter again) (enough idle))
    · obtain ⟨future, waiting⟩ := Option.ne_none_iff_exists'.1 idle
      have same : r.step findSize .call = r := by simp only [Reader.step, waiting]
      change ((r.step findSize .call).run findSize (List.replicate count .call)).returned = pdus
      rw [same]
      exact ih owes delivered fun again => absurd again idle

end Owes

theorem Framed.owes {findSize : FindSize} {pdus : List Pdu} (framed : Framed findSize pdus) :
    Owes findSize pdus { inbound := stream pdus } pdus where
  framed := framed
  returned := rfl
  received := rfl
  errors := by simp
  waits := by simp

structure Fenced (data : List UInt8) (w : Writer) : Prop where
  accepted : w.accepted = data.take w.written
  whole : w.outcome = some (.ok ()) → data.length ≤ w.written
  none : w.outcome = some (.error .staleInput) → w.written = 0

namespace Fenced

variable {data : List UInt8} {w : Writer} {epoch : UInt64}

theorem call (stop : Bool) (focus : Focus) : Fenced data (Writer.call stop focus epoch) := by
  unfold Writer.call
  split
  · exact ⟨rfl, by simp, fun _ => rfl⟩
  · exact ⟨rfl, by simp, by simp⟩

theorem fails (fenced : Fenced data w) {e : EngineError}
    (stale : e = .staleInput → w.written = 0) : Fenced data (w.fails e) where
  accepted := fenced.accepted
  whole := by simp [Writer.fails]
  none := by
    intro same
    exact stale (by simpa [Writer.fails] using same)

theorem refocus (fenced : Fenced data w) (focus : Focus) : Fenced data { w with focus } :=
  ⟨fenced.accepted, fenced.whole, fenced.none⟩

theorem written_of_staleOrTorn {written : Nat} (stale : staleOrTorn written = .staleInput) :
    written = 0 := by
  by_contra torn
  simp [staleOrTorn, torn] at stale

theorem accept (fenced : Fenced data w) (running : w.outcome = Option.none) (count : Nat) :
    let bytes := (data.drop w.written).take count
    Fenced data { w with written := w.written + bytes.length, accepted := w.accepted ++ bytes } where
  accepted := by
    rw [List.take_add, fenced.accepted]
    exact congrArg _ (List.prefix_iff_eq_take.1 (List.take_prefix _ _))
  whole := by simp [running]
  none := by simp [running]

theorem select (fenced : Fenced data w) (running : w.outcome = Option.none)
    (answer : StreamAnswer) : Fenced data (w.select data epoch answer) := by
  unfold Writer.select
  split
  · dsimp only
    split
    · exact fenced.refocus _
    · exact (fenced.refocus _).fails written_of_staleOrTorn
  · split
    · exact fenced.fails written_of_staleOrTorn
    · cases answer with
      | pending => exact fenced
      | failed => exact fenced.fails (by simp)
      | accepted count =>
        dsimp only
        split
        · exact fenced.fails (by simp)
        · exact fenced.accept running count

theorem flush (fenced : Fenced data w) (done : data.length ≤ w.written) (answer : FlushAnswer) :
    Fenced data (w.flush answer) := by
  cases answer with
  | pending => exact fenced
  | done => exact ⟨fenced.accepted, fun _ => done, by simp [Writer.flush]⟩
  | failed => exact fenced.fails (by simp)

theorem step (fenced : Fenced data w) (event : WriteEvent) :
    Fenced data (w.step data epoch event) := by
  unfold Writer.step
  split
  · exact fenced
  · next running =>
    cases event with
    | notify sent => exact fenced.refocus _
    | close => exact fenced.refocus _
    | select answer =>
      dsimp only
      split
      · exact fenced.select running answer
      · exact fenced
    | flush answer =>
      dsimp only
      split
      · exact fenced
      · next done => exact fenced.flush (Nat.le_of_not_lt done) answer
    | timeout => exact fenced.fails (by simp)

theorem run (stop : Bool) (focus : Focus) (events : List WriteEvent) :
    Fenced data (Writer.writeFenced data stop focus epoch events) :=
  List.foldlRecOn events _ (call stop focus) fun _ fenced event _ => fenced.step event

end Fenced

theorem Writer.writeFenced_stale {data : List UInt8} {stop : Bool} {focus : Focus}
    {epoch : UInt64} (stale : stop ∨ focus.epoch ≠ epoch) (events : List WriteEvent) :
    Writer.writeFenced data stop focus epoch events =
      { focus, outcome := some (.error .staleInput) } := by
  have called : Writer.call stop focus epoch = { focus, outcome := some (.error .staleInput) } :=
    if_pos stale
  rw [writeFenced, called]
  induction events with
  | nil => rfl
  | cons event events ih => exact ih

/-- However the bytes arrive and wherever the future is dropped, the calls return the messages of
the stream in order, and all of them once it is delivered; the only error is a lost connection.
A fenced write that is done has written everything, one that is stale nothing, and between the
two it is neither. -/
theorem messages_whole {findSize : FindSize} {pdus : List Pdu} (framed : Framed findSize pdus) :
    (∀ events : List ReadEvent,
      let r := Reader.run findSize { inbound := stream pdus } events
      r.returned <+: pdus ∧ (∀ e, .error e ∈ r.results → e = .connectionLost) ∧
        (r.inbound = [] → r.future ≠ none → r.returned = pdus) ∧
        (r.inbound = [] →
          (r.run findSize (.drop :: List.replicate pdus.length .call)).returned = pdus)) ∧
    (∀ (data : List UInt8) (stop : Bool) (focus : Focus) (epoch : UInt64)
      (events : List WriteEvent),
      let w := Writer.writeFenced data stop focus epoch events
      w.accepted <+: data ∧ (w.outcome = some (.ok ()) → w.accepted = data) ∧
        (w.outcome = some (.error .staleInput) → w.accepted = []) ∧
        (w.accepted ≠ [] → w.accepted ≠ data →
          w.outcome ≠ some (.ok ()) ∧ w.outcome ≠ some (.error .staleInput)) ∧
        (stop ∨ focus.epoch ≠ epoch →
          w.outcome = some (.error .staleInput) ∧ w.accepted = [])) := by
  constructor
  · intro events r
    obtain ⟨rest, owes⟩ := framed.owes.run events
    refine ⟨⟨rest, owes.returned.symm⟩, owes.errors, owes.all_returned, fun delivered => ?_⟩
    have dropped : Owes findSize pdus (r.step findSize .drop) rest :=
      ⟨owes.framed, owes.returned, owes.received, owes.errors, by simp [Reader.step]⟩
    refine dropped.calls delivered fun _ => ?_
    rw [owes.returned, List.length_append]
    exact Nat.le_add_left _ _
  · intro data stop focus epoch events w
    have fenced : Fenced data w := Fenced.run stop focus events
    have all (ok : w.outcome = some (.ok ())) : w.accepted = data := by
      rw [fenced.accepted, List.take_of_length_le (fenced.whole ok)]
    have nothing (stale : w.outcome = some (.error .staleInput)) : w.accepted = [] := by
      rw [fenced.accepted, fenced.none stale, List.take_zero]
    refine ⟨fenced.accepted ▸ List.take_prefix _ _, all, nothing, ?_, ?_⟩
    · intro some_bytes not_all
      exact ⟨fun ok => not_all (all ok), fun stale => some_bytes (nothing stale)⟩
    · intro stale
      have ended : w = { focus, outcome := some (.error .staleInput) } :=
        Writer.writeFenced_stale stale events
      rw [ended]
      exact ⟨rfl, rfl⟩

def lengthByte : FindSize
  | [] => .ok none
  | length :: _ => .ok (some ⟨.fastPath, length.toNat⟩)

def twoMessages : List Pdu := [⟨.fastPath, [2, 7]⟩, ⟨.fastPath, [1]⟩]

theorem framed_twoMessages : Framed lengthByte twoMessages where
  settles := by
    intro bytes later known
    cases bytes with
    | nil => exact absurd rfl known
    | cons length bytes => rfl
  begins := .inl rfl
  frames := by
    intro before pdu rest split
    match before, split with
    | [], split =>
      obtain ⟨rfl, rfl⟩ := List.cons.inj split
      exact ⟨by simp, by decide, rfl⟩
    | [_], split =>
      obtain ⟨rfl, rfl⟩ := List.cons.inj (List.cons.inj split).2
      exact ⟨by simp, by decide, rfl⟩
    | _ :: _ :: before, split => simp [twoMessages] at split

theorem messages_whole_dropped :
    (Reader.run lengthByte { inbound := [2, 7, 1] } [.call, .read 0, .drop, .call, .read 8]).returned
      <+: twoMessages :=
  ((messages_whole framed_twoMessages).1 _).1

end NoriShell.Rdp

import NoriShell.Forward.Relay

namespace NoriShell.Forward

@[simp] theorem Side.other_other (side : Side) : side.other.other = side := by
  cases side <;> rfl

@[simp] theorem Side.other_ne (side : Side) : side.other ≠ side := by
  cases side <;> decide

@[simp] theorem Side.ne_other (side : Side) : side ≠ side.other := side.other_ne.symm

theorem Side.forall_of (side : Side) {p : Side → Prop} (own : p side) (others : p side.other)
    (target : Side) : p target := by
  cases side <;> cases target <;> assumption

def Step.bytes (side : Side) : Step → List UInt8
  | .send sender bytes => if sender = side then bytes else []
  | _ => []

theorem Side.eq_or_eq_other (a b : Side) : a = b ∨ a = b.other := by
  cases a <;> cases b <;> decide

namespace Relay

variable {relay after : Relay} {source target side : Side} {rest : List UInt8} {size count : Nat}
  {endpoint : Endpoint}

@[simp] theorem set_endpoints_self : (relay.set side endpoint).endpoints side = endpoint := by
  simp [set]

@[simp] theorem set_endpoints_of_ne (h : target ≠ side) :
    (relay.set side endpoint).endpoints target = relay.endpoints target := by
  simp [set, h]

@[simp] theorem set_eof : (relay.set side endpoint).eof = relay.eof := rfl

@[simp] theorem set_activity : (relay.set side endpoint).activity = relay.activity := rfl

@[simp] theorem again_endpoints : relay.again.endpoints = relay.endpoints := rfl

@[simp] theorem again_eof : relay.again.eof = relay.eof := rfl

theorem again_activity_ne : relay.again.activity ≠ .writing target rest size := by
  unfold again
  split <;> simp

@[simp] def delivered (relay : Relay) (target : Side) (rest : List UInt8) (count : Nat) : Relay :=
  relay.set target { relay.endpoints target with
    room := (relay.endpoints target).room - count
    received := (relay.endpoints target).received ++ rest.take count }

inductive Turn (relay : Relay) : Relay → Prop
  | ends (source : Side) (reading : relay.activity = .reading)
      (unread : (relay.endpoints source).unread = []) (closed : (relay.endpoints source).closed) :
      Turn relay { relay with
        eof := Function.update relay.eof source true
        activity := .shutting source.other }
  | reads (source : Side) (count : Nat) (reading : relay.activity = .reading)
      (live : relay.eof source = false) (positive : 0 < count)
      (fits : count ≤ (relay.endpoints source).unread.length) :
      Turn relay { relay.set source { relay.endpoints source with
          unread := (relay.endpoints source).unread.drop count } with
        activity := .writing source.other ((relay.endpoints source).unread.take count) count }
  | writes (target : Side) (rest : List UInt8) (size count : Nat)
      (writing : relay.activity = .writing target rest size)
      (fits : count ≤ (relay.endpoints target).room) (short : count < rest.length) :
      Turn relay { relay.delivered target rest count with
        activity := .writing target (rest.drop count) size }
  | wrote (target : Side) (rest : List UInt8) (size : Nat) (traffic : Side → Nat)
      (writing : relay.activity = .writing target rest size)
      (fits : rest.length ≤ (relay.endpoints target).room) :
      Turn relay { relay.delivered target rest rest.length with traffic }.again
  | shut (target : Side) (shutting : relay.activity = .shutting target) : Turn relay relay.again
  | stops : Turn relay { relay with activity := .stopped }

theorem turn_of_readFrom (reading : relay.activity = .reading)
    (reads : relay.readFrom source count = some after) : Turn relay after := by
  simp only [readFrom, Option.ite_none_left_eq_some, not_or, Bool.not_eq_true] at reads
  obtain ⟨⟨live, -⟩, reads⟩ := reads
  by_cases none : count = 0
  · simp only [none, if_true, Option.ite_none_right_eq_some, Option.some.injEq] at reads
    obtain ⟨⟨unread, closed⟩, rfl⟩ := reads
    exact .ends source reading unread closed
  · simp only [none, if_false, Option.ite_none_right_eq_some, Option.some.injEq] at reads
    obtain ⟨⟨fits, -⟩, rfl⟩ := reads
    exact .reads source count reading live (Nat.pos_of_ne_zero none) fits

theorem turn_of_writeTo (writing : relay.activity = .writing target rest size)
    (writes : relay.writeTo target rest size count = some after) : Turn relay after := by
  simp only [writeTo, Option.ite_none_left_eq_some, not_or, Nat.not_lt] at writes
  obtain ⟨⟨-, -, fits, short⟩, writes⟩ := writes
  by_cases all : rest.length = count
  · simp only [all, if_true, Option.some.injEq] at writes
    cases writes
    cases all
    exact .wrote target rest size _ writing fits
  · simp only [all, if_false, Option.some.injEq] at writes
    cases writes
    exact .writes target rest size count writing fits (by omega)

theorem turn_of_step {step : Step} (own : step.isRelay) (steps : relay.step step = some after) :
    Turn relay after := by
  cases step with
  | read source count =>
    simp only [Relay.step, Option.ite_none_right_eq_some] at steps
    exact turn_of_readFrom steps.1 steps.2
  | write count =>
    simp only [Relay.step] at steps
    split at steps
    · exact turn_of_writeTo ‹_› steps
    · cases steps
  | shutdown =>
    simp only [Relay.step] at steps
    split at steps
    · simp only [Option.ite_none_left_eq_some, Option.some.injEq] at steps
      cases steps.2
      exact .shut _ ‹_›
    · cases steps
  | timeout =>
    simp only [Relay.step, Option.ite_none_right_eq_some, Option.some.injEq] at steps
    cases steps.2
    exact .stops
  | fail =>
    simp only [Relay.step, Option.ite_none_right_eq_some, Option.some.injEq] at steps
    cases steps.2
    exact .stops
  | _ => cases own

section

def pendingTo (relay : Relay) (side : Side) : Nat :=
  match relay.activity with
  | .writing target rest _ => if target = side then rest.length else 0
  | _ => 0

/-- No byte is made up, after the peers have sent the given numbers of bytes. -/
structure Balanced (rooms sent : Side → Nat) (relay : Relay) : Prop where
  ended : ∀ side, relay.eof side → (relay.endpoints side).unread = [] ∧ (relay.endpoints side).closed
  flow : ∀ side, (relay.endpoints side).received.length + relay.pendingTo side +
    (relay.endpoints side.other).unread.length ≤ sent side.other
  rooms : ∀ side, rooms side ≤ (relay.endpoints side).room + (relay.endpoints side).received.length

structure Sound (rooms sent : Side → Nat) (relay : Relay) : Prop extends
    Balanced rooms sent relay where
  pending : ∀ target rest size, relay.activity = .writing target rest size → rest ≠ []

variable {rooms sent : Side → Nat}

theorem sound_start (rooms : Side → Nat) : (start rooms).Sound rooms fun _ => 0 where
  ended _ eof := by simp [start] at eof
  pending _ _ _ writing := by simp [start] at writing
  flow _ := by simp [start, pendingTo]
  rooms _ := by simp [start]

theorem pendingTo_of_writing (writing : relay.activity = .writing target rest size) :
    relay.pendingTo side = if target = side then rest.length else 0 := by
  simp [pendingTo, writing]

theorem pendingTo_of_parked
    (parked : ∀ target rest size, relay.activity ≠ .writing target rest size) :
    relay.pendingTo side = 0 := by
  cases activity : relay.activity with
  | writing target rest size => exact absurd activity (parked target rest size)
  | _ => simp [pendingTo, activity]

theorem Balanced.park (h : relay.Balanced rooms sent) (endpoints : after.endpoints = relay.endpoints)
    (eof : after.eof = relay.eof)
    (parked : ∀ target rest size, after.activity ≠ .writing target rest size) :
    after.Sound rooms sent where
  ended := by simpa only [endpoints, eof] using h.ended
  flow side := by
    have flow := h.flow side
    rw [endpoints, pendingTo_of_parked parked]
    omega
  rooms := by simpa only [endpoints] using h.rooms
  pending target rest size writing := absurd writing (parked target rest size)

theorem Balanced.reads (h : relay.Balanced rooms sent) (reading : relay.activity = .reading)
    (live : relay.eof source = false) :
    ({ relay.set source { relay.endpoints source with
        unread := (relay.endpoints source).unread.drop count } with
      activity := .writing source.other ((relay.endpoints source).unread.take count) count } :
      Relay).Balanced rooms sent := by
  have parked : ∀ side, relay.pendingTo side = 0 := fun side =>
    pendingTo_of_parked (by simp [reading])
  refine ⟨Side.forall_of source ?_ ?_, Side.forall_of source ?_ ?_, Side.forall_of source ?_ ?_⟩
  · simp [live]
  · simpa using h.ended source.other
  · have flow := h.flow source
    rw [parked] at flow
    simpa [pendingTo] using flow
  · have flow := h.flow source.other
    rw [parked, Side.other_other] at flow
    simp only [set_endpoints_of_ne source.other_ne, pendingTo, if_true, Side.other_other,
      set_endpoints_self, List.length_take, List.length_drop]
    omega
  · simpa using h.rooms source
  · simpa using h.rooms source.other

theorem Balanced.delivers (h : relay.Balanced rooms sent)
    (writing : relay.activity = .writing target rest size)
    (fits : count ≤ (relay.endpoints target).room) (short : count ≤ rest.length) :
    ({ relay.delivered target rest count with
      activity := .writing target (rest.drop count) size } : Relay).Balanced rooms sent := by
  refine ⟨Side.forall_of target ?_ ?_, Side.forall_of target ?_ ?_, Side.forall_of target ?_ ?_⟩
  · simpa using h.ended target
  · simpa using h.ended target.other
  · have flow := h.flow target
    rw [pendingTo_of_writing writing, if_pos rfl] at flow
    simp only [delivered, set_endpoints_of_ne target.other_ne, pendingTo, if_true,
      set_endpoints_self, List.length_append, List.length_take, List.length_drop]
    omega
  · have flow := h.flow target.other
    rw [pendingTo_of_writing writing] at flow
    simpa [pendingTo] using flow
  · have rooms := h.rooms target
    simp only [delivered, set_endpoints_self, List.length_append, List.length_take]
    omega
  · simpa using h.rooms target.other

theorem Sound.turn (h : relay.Sound rooms sent) (turn : Turn relay after) :
    after.Sound rooms sent := by
  cases turn with
  | ends source reading unread closed =>
    have ended : ({ relay with eof := Function.update relay.eof source true } : Relay).Balanced
        rooms sent := by
      refine ⟨fun side eof => ?_, h.flow, h.rooms⟩
      by_cases same : side = source
      · cases same
        exact ⟨unread, closed⟩
      · exact h.ended side (by simpa [Function.update_of_ne same] using eof)
    exact ended.park rfl rfl (by simp)
  | reads source count reading live positive fits =>
    refine ⟨h.reads reading live, fun target rest size writing => ?_⟩
    cases writing
    exact List.ne_nil_of_length_pos (by rw [List.length_take]; omega)
  | writes target rest size count writing fits short =>
    refine ⟨h.delivers writing fits short.le, fun target rest size writing => ?_⟩
    cases writing
    exact List.ne_nil_of_length_pos (by rw [List.length_drop]; omega)
  | wrote target rest size traffic writing fits =>
    exact (h.delivers writing fits le_rfl).park rfl rfl fun _ _ _ => again_activity_ne
  | shut target shutting => exact h.park rfl rfl fun _ _ _ => again_activity_ne
  | stops => exact h.park rfl rfl (by simp)

theorem Sound.peer (h : relay.Sound rooms sent) {sent' : Side → Nat}
    (more : ∀ side, sent side ≤ sent' side)
    (received : endpoint.received = (relay.endpoints side).received)
    (room : (relay.endpoints side).room ≤ endpoint.room)
    (unread : endpoint.unread.length + sent side ≤ (relay.endpoints side).unread.length + sent' side)
    (ended : (relay.endpoints side).closed → endpoint.unread = (relay.endpoints side).unread ∧
      endpoint.closed) :
    (relay.set side endpoint).Sound rooms sent' := by
  have pendingTo (target : Side) : (relay.set side endpoint).pendingTo target =
      relay.pendingTo target := rfl
  refine ⟨⟨Side.forall_of side ?_ ?_, Side.forall_of side ?_ ?_, Side.forall_of side ?_ ?_⟩,
    h.pending⟩
  · intro eof
    obtain ⟨none, closed⟩ := h.ended side eof
    rw [set_endpoints_self, (ended closed).1]
    exact ⟨none, (ended closed).2⟩
  · simpa using h.ended side.other
  · have flow := h.flow side
    have more := more side.other
    rw [set_endpoints_self, pendingTo, set_endpoints_of_ne side.other_ne, received]
    omega
  · have flow := h.flow side.other
    rw [Side.other_other] at flow
    rw [set_endpoints_of_ne side.other_ne, pendingTo, Side.other_other, set_endpoints_self]
    omega
  · have rooms := h.rooms side
    rw [set_endpoints_self, received]
    omega
  · simpa using h.rooms side.other

theorem Sound.step (h : relay.Sound rooms sent) {step : Step}
    (steps : relay.step step = some after) :
    after.Sound rooms fun side => sent side + step.sends side := by
  have same (own : ∀ side, step.sends side = 0) :
      (fun side => sent side + step.sends side) = sent := funext fun side => by simp [own side]
  cases step with
  | send sender bytes =>
    simp only [Relay.step, Option.ite_none_left_eq_some, Option.some.injEq] at steps
    obtain ⟨opened, rfl⟩ := steps
    apply h.peer
    · simp
    · rfl
    · rfl
    · simp [Step.sends]; omega
    · exact fun closed => absurd closed opened
  | drain sender count =>
    cases steps
    rw [same fun _ => rfl]
    exact h.peer (fun _ => le_rfl) rfl (by simp) le_rfl fun closed => ⟨rfl, closed⟩
  | close sender =>
    cases steps
    rw [same fun _ => rfl]
    exact h.peer (fun _ => le_rfl) rfl le_rfl le_rfl fun _ => ⟨rfl, rfl⟩
  | crash sender =>
    cases steps
    rw [same fun _ => rfl]
    exact h.peer (fun _ => le_rfl) rfl le_rfl le_rfl fun closed => ⟨rfl, closed⟩
  | _ =>
    rw [same fun _ => rfl]
    exact h.turn (turn_of_step rfl steps)

theorem Sound.run (h : relay.Sound rooms sent) {steps : List Step}
    (runs : relay.run steps = some after) :
    after.Sound rooms fun side => sent side + (steps.map (Step.sends side)).sum := by
  induction steps generalizing relay sent with
  | nil =>
    cases runs
    simpa using h
  | cons step steps ih =>
    obtain ⟨next, first, runs⟩ := Option.bind_eq_some_iff.1 runs
    simpa [Nat.add_assoc] using ih (h.step first) runs

end

theorem Blocked.turn (h : relay.Blocked source) (intact : (relay.endpoints source).failed = false)
    {step : Step} (own : step.isRelay) (steps : relay.step step = some after) :
    after.Blocked source ∧ (after.endpoints source).failed = false ∧
      after.endpoints source.other = relay.endpoints source.other := by
  obtain ⟨rest, size, writing, short⟩ := h
  cases step with
  | write count =>
    simp only [Relay.step, writing, writeTo, Option.ite_none_left_eq_some, not_or,
      Nat.not_lt] at steps
    obtain ⟨⟨-, -, fits, -⟩, steps⟩ := steps
    rw [if_neg (by omega)] at steps
    cases steps
    refine ⟨⟨rest.drop count, size, rfl, ?_⟩, ?_, ?_⟩
    · simp only [set_endpoints_self, List.length_drop]
      omega
    · simpa using intact
    · exact set_endpoints_of_ne source.other_ne
  | read | shutdown | timeout => simp [Relay.step, writing] at steps
  | fail => simp [Relay.step, isBroken, writing, intact] at steps
  | _ => cases own

theorem Blocked.run (h : relay.Blocked source) (intact : (relay.endpoints source).failed = false)
    {steps : List Step} (own : ∀ step ∈ steps, step.isRelay) (runs : relay.run steps = some after) :
    after.endpoints source.other = relay.endpoints source.other := by
  induction steps generalizing relay with
  | nil =>
    cases runs
    rfl
  | cons step steps ih =>
    obtain ⟨next, first, runs⟩ := Option.bind_eq_some_iff.1 runs
    obtain ⟨blocked, intact, other⟩ := h.turn intact (own step List.mem_cons_self) first
    rw [← other]
    exact ih blocked intact (fun step mem => own step (List.mem_cons_of_mem _ mem)) runs

theorem Blocked.not_canMove (h : relay.Blocked source)
    (intact : (relay.endpoints source).failed = false) : ¬relay.CanMove source := by
  rintro ⟨steps, after, own, runs, more⟩
  rw [h.run intact own runs] at more
  exact lt_irrefl _ more

theorem canMove_of_step {step : Step} (own : step.isRelay) (steps : relay.step step = some after)
    (received : (after.endpoints source.other).received =
      (relay.endpoints source.other).received) (moves : after.CanMove source) :
    relay.CanMove source := by
  obtain ⟨rest, last, owns, runs, more⟩ := moves
  refine ⟨step :: rest, last, ?_, ?_, received ▸ more⟩
  · exact List.forall_mem_cons.2 ⟨own, owns⟩
  · exact Option.bind_eq_some_iff.2 ⟨after, steps, runs⟩

structure Ready (relay : Relay) (source : Side) : Prop where
  unread : (relay.endpoints source).unread ≠ []
  room : 0 < (relay.endpoints source.other).room
  live : relay.eof source = false
  intact : ∀ side, (relay.endpoints side).failed = false

theorem canMove_of_writing (writing : relay.activity = .writing source.other rest size)
    (pending : rest ≠ []) (room : 0 < (relay.endpoints source.other).room)
    (intact : (relay.endpoints source.other).failed = false) : relay.CanMove source := by
  have length : 0 < rest.length := List.length_pos_iff.2 pending
  have ok : ¬((relay.endpoints source.other).failed = true ∨ 1 = 0 ∨
      (relay.endpoints source.other).room < 1 ∨ rest.length < 1) := by
    rw [intact]
    simp only [Bool.false_eq_true, false_or]
    omega
  have written : ∃ after, relay.step (.write 1) = some after ∧
      (after.endpoints source.other).received =
        (relay.endpoints source.other).received ++ rest.take 1 := by
    simp only [step, writing, writeTo, if_neg ok]
    split
    · exact ⟨_, rfl, by simp⟩
    · exact ⟨_, rfl, by simp⟩
  obtain ⟨after, steps, received⟩ := written
  refine ⟨[.write 1], after, by simp [Step.isRelay], by simp [run, steps], ?_⟩
  rw [received, List.length_append, List.length_take]
  omega

theorem Ready.canMove_of_reading (h : relay.Ready source) (reading : relay.activity = .reading) :
    relay.CanMove source := by
  have length : 0 < (relay.endpoints source).unread.length := List.length_pos_iff.2 h.unread
  have reads : relay.step (.read source 1) = some { relay.set source { relay.endpoints source with
        unread := (relay.endpoints source).unread.drop 1 } with
      activity := .writing source.other ((relay.endpoints source).unread.take 1) 1 } := by
    have fits : 1 ≤ (relay.endpoints source).unread.length ∧ 1 ≤ relayBufferBytes :=
      ⟨length, by decide⟩
    simp [step, reading, readFrom, h.live, h.intact source, fits]
  apply canMove_of_step rfl reads
  · simp
  · apply canMove_of_writing rfl
    · exact List.ne_nil_of_length_pos (by rw [List.length_take]; omega)
    · simpa using h.room
    · simpa using h.intact source.other

theorem Ready.canMove_of_again (h : relay.Ready source) : relay.again.CanMove source := by
  have ready : relay.again.Ready source := ⟨h.unread, h.room, h.live, h.intact⟩
  apply ready.canMove_of_reading
  have going : ¬(relay.eof .first = true ∧ relay.eof .second = true) := by
    have live := h.live
    cases source <;> simp_all
  simp [again, going]

theorem Ready.canMove_of_fits (h : relay.Ready source)
    (writing : relay.activity = .writing source rest size) (pending : rest ≠ [])
    (fits : rest.length ≤ (relay.endpoints source).room) : relay.CanMove source := by
  have length : 0 < rest.length := List.length_pos_iff.2 pending
  have ok : ¬((relay.endpoints source).failed = true ∨ rest.length = 0 ∨
      (relay.endpoints source).room < rest.length ∨ rest.length < rest.length) := by
    rw [h.intact source]
    simp only [Bool.false_eq_true, false_or]
    omega
  have wrote : relay.step (.write rest.length) = some { relay.delivered source rest rest.length with
      traffic := Function.update relay.traffic source.other
        (relay.traffic source.other + size) }.again := by
    simp only [step, writing, writeTo, if_neg ok, if_true, delivered]
  apply canMove_of_step rfl wrote
  · simp
  · apply Ready.canMove_of_again
    refine ⟨?_, ?_, h.live, Side.forall_of source ?_ ?_⟩
    · simpa using h.unread
    · simpa using h.room
    · simpa using h.intact source
    · simpa using h.intact source.other

theorem Ready.canMove (h : relay.Ready source) (live : relay.Live)
    (pending : ∀ target rest size, relay.activity = .writing target rest size → rest ≠ [])
    (free : ¬relay.Blocked source) : relay.CanMove source := by
  cases activity : relay.activity with
  | reading => exact h.canMove_of_reading activity
  | writing target rest size =>
    have pending := pending target rest size activity
    refine Side.forall_of source (p := (relay.activity = .writing · rest size → _))
      (fun writing => ?_) (fun writing => ?_) target activity
    · apply h.canMove_of_fits writing pending
      by_contra short
      exact free ⟨rest, size, writing, Nat.lt_of_not_le short⟩
    · exact canMove_of_writing writing pending h.room (h.intact source.other)
  | shutting target =>
    have shut : relay.step .shutdown = some relay.again := by
      simp [step, activity, h.intact target]
    exact canMove_of_step rfl shut rfl h.canMove_of_again
  | finished => exact absurd activity live.running.1
  | stopped => exact absurd activity live.running.2

/-- All that is under way to a side fits, if its room held all that was sent there. -/
theorem Sound.not_blocked {rooms sent : Side → Nat} (h : relay.Sound rooms sent)
    (fits : sent side.other ≤ rooms side) : ¬relay.Blocked side := by
  rintro ⟨rest, size, writing, short⟩
  have flow := h.flow side
  have rooms := h.rooms side
  rw [pendingTo_of_writing writing, if_pos rfl] at flow
  omega

/-- In every state that the relay reaches, a side's bytes can go on to the other side unless the
loop is parked in a write to the first one that does not fit; it never is while what was sent to
that side fits its buffers. -/
theorem relay_moves_iff (rooms : Side → Nat) (steps : List Step) (relay : Relay) (source : Side)
    (runs : (start rooms).run steps = some relay) (live : relay.Live)
    (unread : (relay.endpoints source).unread ≠ [])
    (room : 0 < (relay.endpoints source.other).room) :
    (relay.CanMove source ↔ ¬relay.Blocked source) ∧
      ((steps.map (Step.sends source.other)).sum ≤ rooms source → relay.CanMove source) := by
  have sound := (sound_start rooms).run runs
  have ready : relay.Ready source := by
    refine ⟨unread, room, ?_, live.intact⟩
    by_contra ended
    exact unread (sound.ended source (by simpa using ended)).1
  have moves : ¬relay.Blocked source → relay.CanMove source :=
    ready.canMove live sound.pending
  refine ⟨⟨fun moves blocked => ?_, moves⟩, fun fits => moves ?_⟩
  · exact blocked.not_canMove (live.intact source) moves
  · exact sound.not_blocked (by simpa using fits)

/-- The second peer has sent two bytes, for which the first has room for one, and the first sends
before it reads. -/
def parkedSteps : List Step :=
  [.send .second [0, 1], .read .second 2, .write 1, .send .first [2]]

theorem relay_moves_iff_after_send :
    ∃ relay, (start fun _ => 1).run [.send .first [2]] = some relay ∧ relay.CanMove .first := by
  refine ⟨_, rfl, (relay_moves_iff (fun _ => 1) [.send .first [2]] _ .first rfl ⟨?_, ?_⟩ ?_ ?_).2 ?_⟩
  · decide
  · intro side
    cases side <;> rfl
  · decide
  · decide
  · decide

theorem parked_write_stops_relay :
    ∃ relay, (start fun _ => 1).run parkedSteps = some relay ∧ relay.Live ∧
      (relay.endpoints .first).unread = [2] ∧ (relay.endpoints .second).room = 1 ∧
      ¬relay.CanMove .first := by
  refine ⟨_, rfl, ⟨by decide, fun side => ?_⟩, rfl, rfl, ?_⟩
  · cases side <;> rfl
  · exact Blocked.not_canMove ⟨[1], 2, rfl, by decide⟩ rfl

def inFlight (relay : Relay) (source : Side) : List UInt8 :=
  match relay.activity with
  | .writing target rest _ => if target = source.other then rest else []
  | _ => []

/-- What a peer has sent: what the other one got, then what is in flight, or was when the relay
stopped, then what is unread. -/
structure Carries (relay : Relay) (source : Side) (sent flying : List UInt8) : Prop where
  flow : (relay.endpoints source.other).received ++ flying ++ (relay.endpoints source).unread = sent
  current : relay.activity ≠ .stopped → flying = relay.inFlight source
  drained : relay.eof source → flying = []
  finished : relay.activity = .finished → relay.eof source

namespace Carries

variable {relay after : Relay} {source target : Side} {sent flying rest : List UInt8} {size : Nat}

theorem landed (h : relay.Carries source sent flying) (runs : relay.activity ≠ .stopped)
    (idle : relay.inFlight source = []) : flying = [] :=
  (h.current runs).trans idle

theorem again (h : relay.Carries source sent []) (traffic : Side → Nat) :
    { relay with traffic }.again.Carries source sent [] := by
  refine ⟨h.flow, fun _ => ?_, h.drained, fun done => ?_⟩
  · unfold inFlight Relay.again
    split_ifs <;> rfl
  · simp only [Relay.again, ite_eq_left_iff, reduceCtorEq, imp_false, not_not] at done
    exact Side.forall_of .first (p := fun side => relay.eof side = true) done.1 done.2 source

theorem delivers (h : relay.Carries source sent flying)
    (writing : relay.activity = .writing target rest size) (count : Nat) :
    ({ relay.delivered target rest count with
      activity := .writing target (rest.drop count) size } : Relay).Carries source sent
      (flying.drop count) := by
  have flies := h.current (by simp [writing])
  simp only [inFlight, writing] at flies
  refine ⟨?_, fun _ => ?_, fun ended => by rw [h.drained ended, List.drop_nil], nofun⟩
  · rw [← h.flow, flies]
    rcases target.eq_or_eq_other source with rfl | rfl <;> simp
  · rcases target.eq_or_eq_other source with rfl | rfl <;> simp [inFlight, flies]

theorem turn (h : relay.Carries source sent flying) (turn : Turn relay after) :
    ∃ flying, after.Carries source sent flying := by
  cases turn with
  | ends side reading =>
    exact ⟨[], h.landed (by simp [reading]) (by simp [inFlight, reading]) ▸ h.flow, fun _ => rfl,
      fun _ => rfl, nofun⟩
  | reads side count reading live =>
    refine ⟨_, ?_, fun _ => rfl, fun ended => ?_, nofun⟩
    · rw [← h.flow, h.landed (by simp [reading]) (by simp [inFlight, reading])]
      rcases side.eq_or_eq_other source with rfl | rfl <;> simp [inFlight]
    · rcases side.eq_or_eq_other source with rfl | rfl
      · simp [live] at ended
      · simp [inFlight]
  | writes target rest size count writing => exact ⟨_, h.delivers writing count⟩
  | wrote target rest size traffic writing =>
    have all := h.delivers writing rest.length
    have landed : flying.drop rest.length = [] := by
      rw [h.current (by simp [writing])]
      simp only [inFlight, writing]
      split_ifs <;> simp
    rw [landed] at all
    exact ⟨[], all.again traffic⟩
  | shut target shutting =>
    obtain rfl := h.landed (by simp [shutting]) (by simp [inFlight, shutting])
    exact ⟨[], h.again relay.traffic⟩
  | stops => exact ⟨flying, h.flow, nofun, h.drained, nofun⟩

theorem step (h : relay.Carries source sent flying) {step : Step}
    (steps : relay.step step = some after) :
    ∃ flying, after.Carries source (sent ++ step.bytes source) flying := by
  cases step with
  | send sender bytes =>
    simp only [Relay.step, Option.ite_none_left_eq_some, Option.some.injEq] at steps
    obtain ⟨-, rfl⟩ := steps
    refine ⟨flying, ?_, h.current, h.drained, h.finished⟩
    rw [← h.flow]
    rcases sender.eq_or_eq_other source with rfl | rfl <;> simp [Step.bytes]
  | drain sender count | close sender | crash sender =>
    cases steps
    refine ⟨flying, ?_, h.current, h.drained, h.finished⟩
    rw [← h.flow]
    rcases sender.eq_or_eq_other source with rfl | rfl <;> simp [Step.bytes]
  | _ => simpa [Step.bytes] using h.turn (turn_of_step rfl steps)

theorem run (h : relay.Carries source sent flying) {steps : List Step}
    (runs : relay.run steps = some after) :
    ∃ flying, after.Carries source (sent ++ steps.flatMap (Step.bytes source)) flying := by
  induction steps generalizing relay sent flying with
  | nil =>
    cases runs
    exact ⟨flying, by simpa using h⟩
  | cons step steps ih =>
    obtain ⟨next, first, runs⟩ := Option.bind_eq_some_iff.1 runs
    obtain ⟨flying, h⟩ := h.step first
    simpa using ih h runs

end Carries

/-- Whatever the peers and the relay do, a peer gets what the other one sends, in order and once;
what is missing is in flight or unread, or was in flight when the relay stopped.  The end of a
stream is passed on only after all of it, and the relay finishes after all of both. -/
theorem relay_delivers {rooms : Side → Nat} {steps : List Step} {relay : Relay}
    (runs : (start rooms).run steps = some relay) (source : Side) :
    (∃ flying, (relay.endpoints source.other).received ++ flying ++
        (relay.endpoints source).unread = steps.flatMap (Step.bytes source) ∧
      (relay.activity ≠ .stopped → flying = relay.inFlight source)) ∧
    (relay.eof source ∨ relay.activity = .finished →
      (relay.endpoints source.other).received = steps.flatMap (Step.bytes source)) := by
  have begins : (start rooms).Carries source [] [] := ⟨rfl, fun _ => rfl, fun _ => rfl, nofun⟩
  obtain ⟨flying, h⟩ := begins.run runs
  refine ⟨⟨flying, h.flow, h.current⟩, fun ends => ?_⟩
  have ended := ends.elim id h.finished
  have unread := (((sound_start rooms).run runs).ended source ended).1
  have flow := h.flow
  rw [unread, h.drained ended] at flow
  simpa using flow

theorem relay_delivers_before_shutdown :
    ∃ relay, (start fun _ => 1).run [.send .first [2], .read .first 1, .write 1, .close .first,
        .read .first 0, .shutdown] = some relay ∧ (relay.endpoints .second).received = [2] :=
  have runs := rfl
  ⟨_, runs, (relay_delivers runs .first).2 (.inl rfl)⟩

end Relay

end NoriShell.Forward

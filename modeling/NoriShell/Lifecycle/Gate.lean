import Mathlib

/-! The gate between the cleanup before an exit and the creation of resources.  Every atomic
operation is one step of a thread, and a thread is one call, or one permit until it is dropped. -/

namespace NoriShell.Lifecycle

inductive Phase
  | idle
  | cleaning
  | authorized
  deriving DecidableEq

/-- Where a thread stands.  `looping`, `registered` and `waiting` are inside `begin_cleanup`, with
or without a notification for the future it holds, and `cleaned` is after its return of true. -/
inductive Stage
  | ready
  | checked
  | counted
  | rejected
  | permit
  | notifying
  | looping
  | registered (notified : Bool)
  | waiting (notified : Bool)
  | cleaned
  deriving DecidableEq

inductive Action
  | loadPhase
  | increment
  | reloadPhase
  | decrement
  | notifyWaiters
  | beginCleanup
  | register
  | loadCount
  | wake
  | cancelCleanup
  | authorizeExit
  deriving DecidableEq

namespace Stage

def notify : Stage → Stage
  | .registered _ => .registered true
  | .waiting _ => .waiting true
  | stage => stage

/-- Between the increment and the decrement of the counter. -/
def isCounted : Stage → Bool
  | .counted | .rejected | .permit => true
  | _ => false

def isCleaner : Stage → Bool
  | .looping | .registered _ | .waiting _ | .cleaned => true
  | _ => false

end Stage

structure Gate where
  phase : Phase
  activeResourceCreators : Nat
  threads : List Stage
  deriving DecidableEq

namespace Gate

def start (threads : Nat) : Gate := ⟨.idle, 0, .replicate threads .ready⟩

def put (gate : Gate) (i : Nat) (stage : Stage) : Gate :=
  { gate with threads := gate.threads.set i stage }

/-- A decrement to zero is followed by a notification. -/
def release (gate : Gate) (i : Nat) : Gate :=
  { gate.put i (if gate.activeResourceCreators = 1 then .notifying else .ready) with
    activeResourceCreators := gate.activeResourceCreators - 1 }

/-- An action that does not fit the stage of the thread changes nothing. -/
def step (gate : Gate) (move : Nat × Action) : Gate :=
  let i := move.1
  match gate.threads[i]?, move.2 with
  | some .ready, .loadPhase => if gate.phase = .idle then gate.put i .checked else gate
  | some .checked, .increment =>
    { gate.put i .counted with activeResourceCreators := gate.activeResourceCreators + 1 }
  | some .counted, .reloadPhase =>
    gate.put i (if gate.phase = .idle then .permit else .rejected)
  | some .rejected, .decrement => gate.release i
  | some .permit, .decrement => gate.release i
  | some .notifying, .notifyWaiters =>
    { gate with threads := (gate.threads.set i .ready).map Stage.notify }
  | some .ready, .beginCleanup =>
    if gate.phase = .idle then { gate.put i .looping with phase := .cleaning } else gate
  | some .looping, .register => gate.put i (.registered false)
  | some (.registered notified), .loadCount =>
    gate.put i (if gate.activeResourceCreators = 0 then .cleaned else .waiting notified)
  | some (.waiting true), .wake => gate.put i .looping
  | some .ready, .cancelCleanup =>
    { gate with phase := if gate.phase = .cleaning then .idle else gate.phase }
  | some .cleaned, .cancelCleanup =>
    { gate.put i .ready with phase := if gate.phase = .cleaning then .idle else gate.phase }
  | some .ready, .authorizeExit => { gate with phase := .authorized }
  | some .cleaned, .authorizeExit => { gate.put i .ready with phase := .authorized }
  | _, _ => gate

def run (gate : Gate) (schedule : List (Nat × Action)) : Gate := schedule.foldl step gate

/-- A cancellation comes from the caller whose `begin_cleanup` returned true. -/
def OwnsCancel (gate : Gate) (move : Nat × Action) : Prop :=
  move.2 = .cancelCleanup → gate.threads[move.1]? = some .cleaned

def OwnsCancels : Gate → List (Nat × Action) → Prop
  | _, [] => True
  | gate, move :: schedule => gate.OwnsCancel move ∧ (gate.step move).OwnsCancels schedule

end Gate

section

variable {l : List Stage} {i : Nat} {old : Stage}

theorem countP_set (h : l[i]? = some old) (new : Stage) (p : Stage → Bool) :
    (l.set i new).countP p + (p old).toNat = l.countP p + (p new).toNat := by
  induction l generalizing i with
  | nil => simp at h
  | cons stage l ih =>
    cases i with
    | zero =>
      rw [List.getElem?_cons_zero] at h
      cases h
      rw [List.set_cons_zero, List.countP_cons, List.countP_cons]
      cases p old <;> cases p new <;> simp
    | succ i =>
      rw [List.getElem?_cons_succ] at h
      have rest := ih h
      rw [List.set_cons_succ, List.countP_cons, List.countP_cons]
      omega

theorem countP_replicate_ready (n : Nat) {p : Stage → Bool} (idle : p .ready = false) :
    (List.replicate n Stage.ready).countP p = 0 := by
  rw [List.countP_eq_zero]
  intro stage mem
  rw [List.eq_of_mem_replicate mem, idle]
  simp

theorem countP_eq_zero_iff {stage : Stage} : l.countP (· = stage) = 0 ↔ stage ∉ l := by
  simp only [List.countP_eq_zero, decide_eq_true_eq]
  exact ⟨fun none mem => none stage mem rfl, fun absent other mem same => absent (same ▸ mem)⟩

theorem countP_pos_iff {stage : Stage} : 0 < l.countP (· = stage) ↔ stage ∈ l := by
  simp

theorem countP_map_notify {p : Stage → Bool} (same : ∀ stage, p stage.notify = p stage) :
    (l.map Stage.notify).countP p = l.countP p := by
  rw [List.countP_map]
  exact List.countP_congr fun stage _ => by simp [same]

theorem countP_map_notify_waiting : (l.map Stage.notify).countP (· = .waiting false) = 0 := by
  rw [List.countP_map, List.countP_eq_zero]
  intro stage _
  cases stage <;> simp [Stage.notify]

end

namespace Gate

variable {gate : Gate}

/-- What an action of one thread makes of its stage, the counter and the phase.  Only a
notification concerns the other threads. -/
inductive Turn (gate : Gate) : Action → Stage → Stage → Nat → Phase → Prop
  | check : gate.phase = .idle →
    Turn gate .loadPhase .ready .checked gate.activeResourceCreators gate.phase
  | count : Turn gate .increment .checked .counted (gate.activeResourceCreators + 1) gate.phase
  | grant : gate.phase = .idle →
    Turn gate .reloadPhase .counted .permit gate.activeResourceCreators gate.phase
  | reject : gate.phase ≠ .idle →
    Turn gate .reloadPhase .counted .rejected gate.activeResourceCreators gate.phase
  | release {old : Stage} : old = .rejected ∨ old = .permit →
    Turn gate .decrement old (if gate.activeResourceCreators = 1 then .notifying else .ready)
      (gate.activeResourceCreators - 1) gate.phase
  | beginCleanup : gate.phase = .idle →
    Turn gate .beginCleanup .ready .looping gate.activeResourceCreators .cleaning
  | register :
    Turn gate .register .looping (.registered false) gate.activeResourceCreators gate.phase
  | drained {notified : Bool} : gate.activeResourceCreators = 0 →
    Turn gate .loadCount (.registered notified) .cleaned gate.activeResourceCreators gate.phase
  | await {notified : Bool} : gate.activeResourceCreators ≠ 0 →
    Turn gate .loadCount (.registered notified) (.waiting notified) gate.activeResourceCreators
      gate.phase
  | wake : Turn gate .wake (.waiting true) .looping gate.activeResourceCreators gate.phase
  | cancel {old : Stage} : old = .ready ∨ old = .cleaned →
    Turn gate .cancelCleanup old .ready gate.activeResourceCreators
      (if gate.phase = .cleaning then .idle else gate.phase)
  | authorize {old : Stage} : old = .ready ∨ old = .cleaned →
    Turn gate .authorizeExit old .ready gate.activeResourceCreators .authorized

theorem step_cases (gate : Gate) (move : Nat × Action) : gate.step move = gate ∨
      (gate.threads[move.1]? = some .notifying ∧ gate.step move =
          { gate with threads := (gate.threads.set move.1 .ready).map Stage.notify }) ∨
      ∃ old new n phase, gate.threads[move.1]? = some old ∧ gate.Turn move.2 old new n phase ∧
        gate.step move = ⟨phase, n, gate.threads.set move.1 new⟩ := by
  have stays (stage : Stage) (h : gate.threads[move.1]? = some stage) :
      gate.threads.set move.1 stage = gate.threads := by
    obtain ⟨inside, rfl⟩ := List.getElem?_eq_some_iff.mp h
    exact List.set_getElem_self inside
  fun_cases Gate.step gate move
  case case1 is ready idle => exact .inr (.inr ⟨_, _, _, _, ready, is ▸ .check idle, rfl⟩)
  case case2 => exact .inl rfl
  case case3 is checked _ => exact .inr (.inr ⟨_, _, _, _, checked, is ▸ .count, rfl⟩)
  case case4 is counted =>
    split
    · next idle => exact .inr (.inr ⟨_, _, _, _, counted, is ▸ .grant idle, rfl⟩)
    · next busy => exact .inr (.inr ⟨_, _, _, _, counted, is ▸ .reject busy, rfl⟩)
  case case5 is rejected =>
    exact .inr (.inr ⟨_, _, _, _, rejected, is ▸ .release (.inl rfl), rfl⟩)
  case case6 is permit => exact .inr (.inr ⟨_, _, _, _, permit, is ▸ .release (.inr rfl), rfl⟩)
  case case7 notifying => exact .inr (.inl ⟨notifying, rfl⟩)
  case case8 is ready idle _ => exact .inr (.inr ⟨_, _, _, _, ready, is ▸ .beginCleanup idle, rfl⟩)
  case case9 => exact .inl rfl
  case case10 is looping => exact .inr (.inr ⟨_, _, _, _, looping, is ▸ .register, rfl⟩)
  case case11 is registered =>
    split
    · next zero => exact .inr (.inr ⟨_, _, _, _, registered, is ▸ .drained zero, rfl⟩)
    · next busy => exact .inr (.inr ⟨_, _, _, _, registered, is ▸ .await busy, rfl⟩)
  case case12 is waiting => exact .inr (.inr ⟨_, _, _, _, waiting, is ▸ .wake, rfl⟩)
  case case13 is ready =>
    refine .inr (.inr ⟨_, _, _, _, ready, is ▸ @Turn.cancel gate _ (.inl rfl), ?_⟩)
    rw [stays _ ready]
  case case14 is cleaned _ => exact .inr (.inr ⟨_, _, _, _, cleaned, is ▸ .cancel (.inr rfl), rfl⟩)
  case case15 is ready =>
    refine .inr (.inr ⟨_, _, _, _, ready, is ▸ @Turn.authorize gate _ (.inl rfl), ?_⟩)
    rw [stays _ ready]
  case case16 is cleaned _ =>
    exact .inr (.inr ⟨_, _, _, _, cleaned, is ▸ .authorize (.inr rfl), rfl⟩)
  case case17 => exact .inl rfl

/-- The counter counts, and whoever waits while it is zero has a notification coming. -/
structure Counted (gate : Gate) : Prop where
  counter : gate.activeResourceCreators = gate.threads.countP Stage.isCounted
  woken : 0 < gate.threads.countP (· = .waiting false) → gate.activeResourceCreators = 0 →
    0 < gate.threads.countP (· = .notifying)

theorem counted_start (n : Nat) : (start n).Counted where
  counter := (countP_replicate_ready n rfl).symm
  woken waiting := by
    have none := @countP_replicate_ready n (· = .waiting false) rfl
    exact absurd waiting (by rw [start, none]; omega)

namespace Turn

variable {action : Action} {old new : Stage} {n : Nat} {phase : Phase}

theorem counter (turn : gate.Turn action old new n phase)
    (counted : old.isCounted.toNat ≤ gate.activeResourceCreators) :
    n + old.isCounted.toNat = gate.activeResourceCreators + new.isCounted.toNat := by
  cases turn with
  | release from_ =>
    have one : old.isCounted.toNat = 1 := by rcases from_ with rfl | rfl <;> rfl
    have none : (if gate.activeResourceCreators = 1 then Stage.notifying
        else Stage.ready).isCounted.toNat = 0 := by split <;> rfl
    omega
  | cancel from_ => rcases from_ with rfl | rfl <;> rfl
  | authorize from_ => rcases from_ with rfl | rfl <;> rfl
  | _ => rfl

theorem not_notifying (turn : gate.Turn action old new n phase) : old ≠ .notifying := by
  cases turn with
  | release from_ => rcases from_ with rfl | rfl <;> decide
  | cancel from_ => rcases from_ with rfl | rfl <;> decide
  | authorize from_ => rcases from_ with rfl | rfl <;> decide
  | _ => simp

theorem awaits (turn : gate.Turn action old new n phase) (awaits : new = .waiting false) :
    n ≠ 0 := by
  cases turn with
  | await busy => exact busy
  | release => split at awaits <;> cases awaits
  | _ => cases awaits

theorem reaches_zero (turn : gate.Turn action old new n phase) (zero : n = 0) :
    gate.activeResourceCreators = 0 ∨ new = .notifying := by
  cases turn with
  | count => omega
  | release =>
    rcases Nat.lt_or_ge gate.activeResourceCreators 1 with none | some
    · exact .inl (by omega)
    · exact .inr (if_pos (by omega))
  | _ => exact .inl zero

theorem cleans (turn : gate.Turn action old new n phase) (cleans : new = .cleaned) :
    gate.activeResourceCreators = 0 := by
  cases turn with
  | drained zero => exact zero
  | release => split at cleans <;> cases cleans
  | _ => cases cleans

theorem grants (turn : gate.Turn action old new n phase) (grants : new = .permit) :
    gate.phase = .idle := by
  cases turn with
  | grant idle => exact idle
  | release => split at grants <;> cases grants
  | _ => cases grants

theorem begins (turn : gate.Turn action old new n phase) (begins : new.isCleaner) :
    old.isCleaner ∨ gate.phase = .idle ∧ phase ≠ .idle := by
  cases turn with
  | beginCleanup idle => exact .inr ⟨idle, by decide⟩
  | release => split at begins <;> cases begins
  | register => exact .inl rfl
  | drained => exact .inl rfl
  | await => exact .inl rfl
  | wake => exact .inl rfl
  | _ => cases begins

theorem opens (turn : gate.Turn action old new n phase)
    (own : action = .cancelCleanup → old = .cleaned) (opens : phase = .idle) :
    gate.phase = .idle ∨ action = .cancelCleanup ∧ old.isCleaner ∧ new.isCleaner = false := by
  cases turn with
  | cancel =>
    obtain rfl := own rfl
    exact .inr ⟨rfl, rfl, rfl⟩
  | beginCleanup => cases opens
  | authorize => cases opens
  | _ => exact .inl opens

end Turn

theorem Counted.step (h : gate.Counted) (move : Nat × Action) : (gate.step move).Counted := by
  have counter := h.counter
  obtain same | ⟨notifying, same⟩ | ⟨old, new, n, phase, here, turn, same⟩ :=
    gate.step_cases move <;> rw [same]
  · exact h
  · have counts := countP_set notifying .ready Stage.isCounted
    constructor
    · rw [countP_map_notify fun stage => by cases stage <;> rfl]
      simpa [Stage.isCounted, counter] using counts.symm
    · intro waiting
      rw [countP_map_notify_waiting] at waiting
      omega
  · have counts := countP_set here new Stage.isCounted
    have waits := countP_set here new (· = .waiting false)
    have notifies := countP_set here new (· = .notifying)
    have counted : old.isCounted.toNat ≤ gate.activeResourceCreators := by
      rw [counter]
      cases isCounted : old.isCounted with
      | false => exact Nat.zero_le _
      | true => exact List.countP_pos_iff.mpr ⟨old, List.mem_of_getElem? here, isCounted⟩
    constructor
    · have := turn.counter counted
      change n = (gate.threads.set move.1 new).countP Stage.isCounted
      omega
    · intro waiting zero
      change 0 < (gate.threads.set move.1 new).countP (· = .waiting false) at waiting
      change n = 0 at zero
      change 0 < (gate.threads.set move.1 new).countP (· = .notifying)
      have notNew : new ≠ .waiting false := fun same => turn.awaits same zero
      simp only [notNew, turn.not_notifying, decide_false, Bool.toNat_false] at waits notifies
      rcases turn.reaches_zero zero with before | rfl
      · have pending := h.woken (by omega) before
        omega
      · simp only [decide_true, Bool.toNat_true] at notifies
        omega

/-- The cleanup and the permits keep apart, as long as nobody cancels the cleanup of another. -/
structure Fenced (gate : Gate) : Prop extends Counted gate where
  exclusive : gate.threads.countP Stage.isCleaner ≤ 1
  closed : gate.phase = .idle → gate.threads.countP Stage.isCleaner = 0
  drained : 0 < gate.threads.countP (· = .cleaned) → gate.threads.countP (· = .permit) = 0

theorem fenced_start (n : Nat) : (start n).Fenced where
  toCounted := counted_start n
  exclusive := by
    rw [start, countP_replicate_ready n rfl]
    omega
  closed _ := countP_replicate_ready n rfl
  drained _ := countP_replicate_ready n rfl

theorem countP_cleaned_le (l : List Stage) :
    l.countP (· = .cleaned) ≤ l.countP Stage.isCleaner := by
  apply List.countP_mono_left
  intro stage _ same
  rw [of_decide_eq_true same]
  rfl

theorem countP_permit_le (l : List Stage) : l.countP (· = .permit) ≤ l.countP Stage.isCounted := by
  apply List.countP_mono_left
  intro stage _ same
  rw [of_decide_eq_true same]
  rfl

theorem Fenced.notify {i : Nat} (h : gate.Fenced) (notifying : gate.threads[i]? = some .notifying)
    (counted : Counted { gate with threads := (gate.threads.set i .ready).map Stage.notify }) :
    Fenced { gate with threads := (gate.threads.set i .ready).map Stage.notify } := by
  have same (p : Stage → Bool) (notified : ∀ stage : Stage, p stage.notify = p stage)
      (old : p .notifying = false) (new : p .ready = false) :
      ((gate.threads.set i .ready).map Stage.notify).countP p = gate.threads.countP p := by
    have counts := countP_set notifying .ready p
    rw [countP_map_notify notified]
    simpa [old, new] using counts
  have cleaners := same Stage.isCleaner (fun stage => by cases stage <;> rfl) rfl rfl
  have cleaned := same (· = .cleaned) (fun stage => by cases stage <;> simp [Stage.notify]) rfl rfl
  have permits := same (· = .permit) (fun stage => by cases stage <;> simp [Stage.notify]) rfl rfl
  refine { toCounted := counted, exclusive := ?_, closed := fun idle => ?_, drained := ?_ }
  · rw [cleaners]
    exact h.exclusive
  · rw [cleaners]
    exact h.closed idle
  · rw [cleaned, permits]
    exact h.drained

theorem Fenced.turn {action : Action} {i : Nat} {old new : Stage} {n : Nat} {phase : Phase}
    (h : gate.Fenced) (here : gate.threads[i]? = some old)
    (turn : gate.Turn action old new n phase) (own : action = .cancelCleanup → old = .cleaned)
    (counted : Counted ⟨phase, n, gate.threads.set i new⟩) :
    Fenced ⟨phase, n, gate.threads.set i new⟩ := by
  have cleaners := countP_set here new Stage.isCleaner
  have exclusive := h.exclusive
  refine { toCounted := counted, exclusive := ?_, closed := fun idle => ?_, drained := ?_ }
  · change (gate.threads.set i new).countP Stage.isCleaner ≤ 1
    cases begins : new.isCleaner with
    | false =>
      simp only [begins, Bool.toNat_false] at cleaners
      omega
    | true =>
      simp only [begins, Bool.toNat_true] at cleaners
      rcases turn.begins begins with already | ⟨idle, -⟩
      · simp only [already, Bool.toNat_true] at cleaners
        omega
      · have none := h.closed idle
        omega
  · change (gate.threads.set i new).countP Stage.isCleaner = 0
    rcases turn.opens own idle with before | ⟨-, cleaner, ends⟩
    · have none := h.closed before
      cases begins : new.isCleaner with
      | false =>
        simp only [begins, Bool.toNat_false] at cleaners
        omega
      | true =>
        rcases turn.begins begins with already | ⟨-, closes⟩
        · simp only [already, begins, Bool.toNat_true] at cleaners
          omega
        · exact absurd idle closes
    · simp only [cleaner, ends, Bool.toNat_true, Bool.toNat_false] at cleaners
      omega
  · have cleaned := countP_set here new (· = .cleaned)
    have permits := countP_set here new (· = .permit)
    intro some_
    change 0 < (gate.threads.set i new).countP (· = .cleaned) at some_
    change (gate.threads.set i new).countP (· = .permit) = 0
    by_cases cleans : new = .cleaned
    · have none := h.counter
      have few := countP_permit_le gate.threads
      rw [turn.cleans cleans] at none
      simp only [cleans, reduceCtorEq, decide_false, Bool.toNat_false] at permits
      rw [cleans]
      omega
    · simp only [cleans, decide_false, Bool.toNat_false] at cleaned
      have drained := h.drained (by omega)
      by_cases grants : new = .permit
      · have none := h.closed (turn.grants grants)
        have few := countP_cleaned_le gate.threads
        omega
      · simp only [grants, decide_false, Bool.toNat_false] at permits
        omega

theorem Fenced.step (h : gate.Fenced) {move : Nat × Action} (own : gate.OwnsCancel move) :
    (gate.step move).Fenced := by
  have counted := h.toCounted.step move
  obtain same | ⟨notifying, same⟩ | ⟨old, new, n, phase, here, turn, same⟩ :=
    gate.step_cases move <;> rw [same] at counted ⊢
  · exact h
  · exact h.notify notifying counted
  · refine h.turn here turn (fun cancels => ?_) counted
    exact Option.some.inj (here.symm.trans (own cancels))

def Sealed (gate : Gate) : Prop := gate.phase ≠ .idle ∧ .permit ∉ gate.threads

theorem Fenced.sealed (h : gate.Fenced) (cleaned : .cleaned ∈ gate.threads) : gate.Sealed := by
  have pos := countP_pos_iff.mpr cleaned
  have few := countP_cleaned_le gate.threads
  refine ⟨fun idle => ?_, countP_eq_zero_iff.mp (h.drained pos)⟩
  have none := h.closed idle
  omega

theorem Sealed.step (h : gate.Sealed) {move : Nat × Action} (keeps : move.2 ≠ .cancelCleanup) :
    (gate.step move).Sealed := by
  obtain same | ⟨notifying, same⟩ | ⟨old, new, n, phase, here, turn, same⟩ :=
    gate.step_cases move <;> rw [same]
  · exact h
  · refine ⟨h.1, fun mem => ?_⟩
    obtain ⟨stage, mem, same⟩ := List.mem_map.mp mem
    obtain rfl : stage = .permit := by
      cases stage <;> simp [Stage.notify] at same
      rfl
    rcases List.mem_or_eq_of_mem_set mem with mem | same
    · exact h.2 mem
    · cases same
  · refine ⟨fun idle => ?_, fun mem => ?_⟩
    · rcases turn.opens (fun cancels => absurd cancels keeps) idle with before | ⟨cancels, -⟩
      · exact h.1 before
      · exact keeps cancels
    · rcases List.mem_or_eq_of_mem_set mem with mem | same
      · exact h.2 mem
      · exact h.1 (turn.grants same.symm)

section

variable (schedule : List (Nat × Action))

theorem Counted.run (h : gate.Counted) : (gate.run schedule).Counted := by
  induction schedule generalizing gate with
  | nil => exact h
  | cons move schedule ih => exact ih (h.step move)

variable {schedule}

theorem Fenced.run (h : gate.Fenced) (own : gate.OwnsCancels schedule) :
    (gate.run schedule).Fenced := by
  induction schedule generalizing gate with
  | nil => exact h
  | cons move schedule ih => exact ih (h.step own.1) own.2

theorem Sealed.run (h : gate.Sealed) (keeps : ∀ move ∈ schedule, move.2 ≠ .cancelCleanup) :
    (gate.run schedule).Sealed := by
  induction schedule generalizing gate with
  | nil => exact h
  | cons move schedule ih =>
    rw [List.forall_mem_cons] at keeps
    exact ih (h.step keeps.1) keeps.2

end

/-- The counter, the lost wakeups, and the exclusion of permits and of other cleanups from a
cleanup.  After a return of true nothing opens the gate but a cancellation. -/
theorem cleanup_excludes_creation (threads : Nat) (schedule : List (Nat × Action)) :
    ((start threads).run schedule).activeResourceCreators =
        ((start threads).run schedule).threads.countP Stage.isCounted ∧
      (.waiting false ∈ ((start threads).run schedule).threads →
        ((start threads).run schedule).activeResourceCreators = 0 →
        .notifying ∈ ((start threads).run schedule).threads) ∧
      ((start threads).OwnsCancels schedule →
        ((start threads).run schedule).threads.countP Stage.isCleaner ≤ 1 ∧
        (.cleaned ∈ ((start threads).run schedule).threads →
          ∀ more, (∀ move ∈ more, move.2 ≠ .cancelCleanup) →
            .permit ∉ (((start threads).run schedule).run more).threads)) := by
  have counted := (counted_start threads).run schedule
  refine ⟨counted.counter, fun waiting zero => ?_, fun own => ?_⟩
  · exact countP_pos_iff.mp (counted.woken (countP_pos_iff.mpr waiting) zero)
  · have fenced := (fenced_start threads).run own
    exact ⟨fenced.exclusive, fun cleaned more keeps => ((fenced.sealed cleaned).run keeps).2⟩

def orderly : List (Nat × Action) :=
  [(0, .loadPhase), (0, .increment), (0, .reloadPhase), (1, .beginCleanup), (1, .register),
    (1, .loadCount), (0, .decrement), (0, .notifyWaiters), (1, .wake), (1, .register),
    (1, .loadCount)]

instance decidableOwnsCancels : (gate : Gate) → (schedule : List (Nat × Action)) →
    Decidable (gate.OwnsCancels schedule)
  | _, [] => .isTrue trivial
  | gate, move :: schedule =>
    have := decidableOwnsCancels (gate.step move) schedule
    inferInstanceAs (Decidable ((move.2 = .cancelCleanup → gate.threads[move.1]? = some .cleaned) ∧
      (gate.step move).OwnsCancels schedule))

theorem cleanup_excludes_creation_orderly : .cleaned ∈ ((start 2).run orderly).threads ∧
      ((start 2).run orderly).threads.countP Stage.isCleaner ≤ 1 ∧
      .permit ∉ (((start 2).run orderly).run [(0, .loadPhase), (1, .authorizeExit)]).threads := by
  have cleaned : .cleaned ∈ ((start 2).run orderly).threads := by decide
  obtain ⟨-, -, fenced⟩ := cleanup_excludes_creation 2 orderly
  obtain ⟨exclusive, kept⟩ := fenced (by decide)
  exact ⟨cleaned, exclusive, kept cleaned _ (by decide)⟩

/-- Another caller cancels while `begin_cleanup` waits: it returns true all the same, and then a
permit is granted and a second cleanup begins. -/
theorem foreign_cancel_breaks_exclusion :
    let before := (start 4).run
      [(0, .loadPhase), (0, .increment), (0, .reloadPhase), (1, .beginCleanup), (1, .register),
        (1, .loadCount), (2, .cancelCleanup), (0, .decrement), (0, .notifyWaiters), (1, .wake),
        (1, .register), (1, .loadCount)]
    let after := before.run
      [(0, .loadPhase), (0, .increment), (0, .reloadPhase), (3, .beginCleanup)]
    .cleaned ∈ before.threads ∧ .permit ∈ after.threads ∧
      after.threads.countP Stage.isCleaner = 2 := by
  decide

end Gate

end NoriShell.Lifecycle

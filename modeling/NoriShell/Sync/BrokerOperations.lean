import Mathlib

/-! The registry of the sync operations of plugins, and how it is stopped for a plugin.  Every call
of the registry and every acquisition of a lock is one step. -/

namespace NoriShell.Sync.Broker

abbrev Text := List Char

def namespaceOf (pluginId signerFingerprintSha256 profileId : Text) : Text :=
  pluginId ++ '\x00' :: (signerFingerprintSha256 ++ '\x00' :: profileId)

structure BrokerOperations where
  locks : List Text := []
  epochs : Text → Nat := fun _ => 0
  stopping : Text → Bool := fun _ => false

namespace BrokerOperations

def register (operations : BrokerOperations) (pluginId key : Text) :
    Option (BrokerOperations × Nat) :=
  if operations.stopping pluginId then none
  else some ({ operations with locks := operations.locks.insert key }, operations.epochs pluginId)

def beginStop (operations : BrokerOperations) (pluginId : Text) : BrokerOperations :=
  { operations with
    stopping := Function.update operations.stopping pluginId true
    epochs := Function.update operations.epochs pluginId
      (min (operations.epochs pluginId + 1) (2 ^ 64 - 1)) }

def locksOf (operations : BrokerOperations) (pluginId : Text) : List Text :=
  operations.locks.filter fun key => (pluginId ++ ['\x00']).isPrefixOf key

def finishStop (operations : BrokerOperations) (pluginId : Text) : BrokerOperations :=
  { operations with stopping := Function.update operations.stopping pluginId false }

def epochCurrent (operations : BrokerOperations) (pluginId : Text) (expected : Nat) : Bool :=
  !operations.stopping pluginId && operations.epochs pluginId == expected

end BrokerOperations

/-- Where a call stands.  An operation holds its lock once it is `locked`; a stop clears the state
of the plugin when no lock is left to wait for. -/
inductive Stage
  | idle
  | registered (pluginId key : Text) (epoch : Nat)
  | locked (pluginId key : Text) (epoch : Nat)
  | admitted (pluginId key : Text) (epoch : Nat)
  | stopping (pluginId : Text) (waiting held : List Text)
  | ended
  deriving DecidableEq

def Stage.holds : Stage → Text → Bool
  | .locked _ key _, other | .admitted _ key _, other => key == other
  | .stopping _ _ held, other => held.contains other
  | _, _ => false

structure World where
  operations : BrokerOperations := {}
  stage : Nat → Stage := fun _ => .idle

inductive Event
  | register (pluginId signerFingerprintSha256 profileId : Text)
  | lock
  | check (fence : Bool)
  | finish
  | beginStop (pluginId : Text)
  | acquire (key : Text)
  | finishStop

def World.put (w : World) (i : Nat) (stage : Stage) : World :=
  { w with stage := Function.update w.stage i stage }

inductive Step (w : World) (i : Nat) : Event → World → Prop
  | refuse {p s q : Text} (before : w.stage i = .idle)
      (no : w.operations.register p (namespaceOf p s q) = none) :
      Step w i (.register p s q) (w.put i .ended)
  | register {p s q : Text} {operations : BrokerOperations} {e : Nat} (before : w.stage i = .idle)
      (yes : w.operations.register p (namespaceOf p s q) = some (operations, e)) :
      Step w i (.register p s q)
        ({ w with operations }.put i (.registered p (namespaceOf p s q) e))
  | lock {p key : Text} {e : Nat} (before : w.stage i = .registered p key e)
      (free : ∀ j, (w.stage j).holds key = false) : Step w i .lock (w.put i (.locked p key e))
  | check {p key : Text} {e : Nat} {fence : Bool} (before : w.stage i = .locked p key e) :
      Step w i (.check fence) (w.put i
        (if fence && w.operations.epochCurrent p e then .admitted p key e else .ended))
  | finish {p key : Text} {e : Nat} (before : w.stage i = .admitted p key e) :
      Step w i .finish (w.put i .ended)
  | beginStop {p : Text} (before : w.stage i = .idle) :
      Step w i (.beginStop p) ({ w with operations := w.operations.beginStop p }.put i
        (.stopping p (w.operations.locksOf p) []))
  | acquire {p key : Text} {waiting held : List Text}
      (before : w.stage i = .stopping p waiting held) (mem : key ∈ waiting)
      (free : ∀ j, (w.stage j).holds key = false) :
      Step w i (.acquire key) (w.put i (.stopping p (waiting.erase key) (key :: held)))
  | finishStop {p : Text} {held : List Text} (before : w.stage i = .stopping p [] held) :
      Step w i .finishStop ({ w with operations := w.operations.finishStop p }.put i .ended)

/-- A stop begins only while no other stop of the plugin is under way, and not at the last
epoch. -/
def Alone (w : World) (event : Event) : Prop :=
  ∀ p, event = .beginStop p → w.operations.epochs p < 2 ^ 64 - 1 ∧
    ∀ i waiting held, w.stage i ≠ .stopping p waiting held

def Runs (allowed : World → Event → Prop) : World → World → Prop :=
  Relation.ReflTransGen fun w w' => ∃ i event, allowed w event ∧ Step w i event w'

def Stage.operation : Stage → Option (Text × Text × Nat)
  | .registered p key e | .locked p key e | .admitted p key e => some (p, key, e)
  | _ => none

/-- A stop under way is marked and alone, and waits for the operations that are admitted. -/
structure Kept (w : World) : Prop where
  marked : ∀ {i p waiting held}, w.stage i = .stopping p waiting held →
    w.operations.stopping p = true
  alone : ∀ {i j p waiting held waiting' held'}, w.stage i = .stopping p waiting held →
    w.stage j = .stopping p waiting' held' → i = j
  known : ∀ {i p key e}, (w.stage i).operation = some (p, key, e) →
    key ∈ w.operations.locksOf p ∧ e ≤ w.operations.epochs p
  waits : ∀ {i j p waiting held key e}, w.stage i = .stopping p waiting held →
    w.stage j = .admitted p key e → key ∈ waiting

variable {w w' : World} {i j : Nat} {event : Event} {p : Text}

@[simp] theorem put_stage (w : World) (i j : Nat) (stage : Stage) :
    (w.put i stage).stage j = if j = i then stage else w.stage j := by
  simp [World.put, Function.update_apply]

@[simp] theorem put_operations (w : World) (i : Nat) (stage : Stage) :
    (w.put i stage).operations = w.operations := rfl

theorem stopping_beginStop (operations : BrokerOperations) (p q : Text) :
    (operations.beginStop p).stopping q = if q = p then true else operations.stopping q := by
  simp [BrokerOperations.beginStop, Function.update_apply]

theorem stopping_finishStop (operations : BrokerOperations) (p q : Text) :
    (operations.finishStop p).stopping q = if q = p then false else operations.stopping q := by
  simp [BrokerOperations.finishStop, Function.update_apply]

theorem register_eq {operations operations' : BrokerOperations} {p key : Text} {e : Nat}
    (h : operations.register p key = some (operations', e)) :
    operations' = { operations with locks := operations.locks.insert key } ∧
      operations.stopping p = false ∧ e = operations.epochs p := by
  simp only [BrokerOperations.register, Option.ite_none_left_eq_some, Option.some.injEq,
    Prod.mk.injEq, Bool.not_eq_true] at h
  exact ⟨h.2.1.symm, h.1, h.2.2.symm⟩

theorem Step.grows (ok : Alone w event) (step : Step w i event w') (p : Text) :
    w.operations.locksOf p ⊆ w'.operations.locksOf p ∧
      w.operations.epochs p ≤ w'.operations.epochs p := by
  cases step with
  | register before yes =>
    obtain ⟨rfl, -⟩ := register_eq yes
    exact ⟨fun key mem => by simp_all [BrokerOperations.locksOf], le_rfl⟩
  | @beginStop p' before =>
    refine ⟨List.Subset.refl _, ?_⟩
    have room := (ok p' rfl).1
    by_cases same : p = p'
    · subst same
      simp [BrokerOperations.beginStop]
      omega
    · simp [BrokerOperations.beginStop, same]
  | _ => exact ⟨List.Subset.refl _, le_rfl⟩

theorem mem_locksOf_register {operations : BrokerOperations} {p s q : Text} :
    namespaceOf p s q ∈ ({ operations with
      locks := operations.locks.insert (namespaceOf p s q) } : BrokerOperations).locksOf p := by
  simp [BrokerOperations.locksOf, namespaceOf]

theorem Kept.step (h : Kept w) (ok : Alone w event) (step : Step w i event w') : Kept w' := by
  have grows := step.grows ok
  have admitted {j p key e} (now : w.stage j = .admitted p key e) :=
    (h.known (by rw [now]; rfl : (w.stage j).operation = some (p, key, e))).1
  obtain ⟨marked, alone, known, waits⟩ := h
  constructor
  · intro k p waiting held now
    cases step with
    | register before yes =>
      obtain ⟨rfl, -⟩ := register_eq yes
      grind [put_stage, put_operations]
    | _ => grind [put_stage, put_operations, stopping_beginStop, stopping_finishStop]
  · intro k l p waiting held waiting' held' now other
    cases step <;> grind [put_stage, Alone]
  · intro k p key e now
    cases step with
    | register before yes =>
      obtain ⟨rfl, -, rfl⟩ := register_eq yes
      have := @mem_locksOf_register
      grind [put_stage, put_operations, Stage.operation]
    | _ => grind [put_stage, put_operations, Stage.operation]
  · intro k l p waiting held key e now other
    cases step <;> grind [put_stage, Alone, Stage.holds, BrokerOperations.epochCurrent]

theorem Runs.kept (run : Runs Alone {} w) : Kept w := by
  induction run with
  | refl => exact ⟨nofun, nofun, nofun, nofun⟩
  | tail _ next ih =>
    obtain ⟨i, event, ok, step⟩ := next
    exact ih.step ok step

end NoriShell.Sync.Broker

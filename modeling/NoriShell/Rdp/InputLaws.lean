import NoriShell.Justified
import NoriShell.Rdp.Input

namespace NoriShell.Rdp

open Collections Desktop

section

variable {db : Database} {down : Finset Held}

def Database.Keeps (db : Database) (batch : Database × List FastPathInputEvent) : Prop :=
  ∀ ⦃down⦄, db.Covers down → batch.1.Covers (batch.2.foldl receive down)

theorem Database.Keeps.nothing {db' : Database} (same : ∀ held, db.Records held → db'.Records held)
    {events : List FastPathInputEvent} (idle : ∀ event ∈ events, event.effect = none) :
    db.Keeps (db', events) := by
  intro down covers held mem
  induction events generalizing down with
  | nil => exact same held (covers held mem)
  | cons event events ih =>
    refine ih (fun event mem => idle event (List.mem_cons_of_mem _ mem)) (fun held mem => ?_) mem
    rw [mem_receive, idle event List.mem_cons_self] at mem
    simpa using covers held (by simpa using mem)

section

variable {α : Type} {press release : α → FastPathInputEvent} {toHeld : α → Held} {db' : Database}
  (xs : List α)

end

section

variable {held : Held}

end

end

namespace Session

variable (session : Session)

def Tracked : Prop := session.database.Covers session.down

/-- A batch is recorded and then abandoned as stale, and the rest of it has the release of
something that is still down and no longer recorded. -/
def Strands : Turn → Prop
  | .command command received sending size moments =>
    received.accepts command = true ∧ command.input.validate = .ok () ∧
      ∃ database sent dropped held,
        session.batch size command.input = .ok (database, sent ++ dropped) ∧
        session.sendInput command sending size moments =
          (⟨database, sent.foldl receive session.down⟩, .error .staleInput) ∧
        held ∈ sent.foldl receive session.down ∧ ¬database.Records held ∧
        ∃ event ∈ dropped, event.effect = some (held, false)
  | .focusChanged _ => False

end Session

section

variable {session s : Session} {turn : Turn} {size : ImageSize} {input : DesktopInput}
  {command : EngineCommand} {control : EngineControl} {moments : Nat → Moment}

variable {received sending : EngineControl}

end

def runTurns (turns : List Turn) : Option Session := turns.foldlM Session.step {}

theorem runTurns_concat (turns : List Turn) (turn : Turn) :
    runTurns (turns ++ [turn]) = (runTurns turns).bind (·.step turn) := by
  rw [runTurns, List.foldlM_append]
  exact bind_congr fun s => bind_pure _

end NoriShell.Rdp

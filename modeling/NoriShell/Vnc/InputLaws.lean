import NoriShell.Justified
import NoriShell.Vnc.Input

namespace NoriShell.Vnc

open Collections Collections.Check Desktop

namespace Server

def Idle (server : Server) : Prop := server.keys = ∅ ∧ server.buttons = 0

structure Within (after before : Server) : Prop where
  keys : after.keys ⊆ before.keys
  buttons : after.buttons = before.buttons ∨ after.buttons = 0

variable {server after last : Server}

theorem Within.refl : server.Within server := ⟨Finset.Subset.refl _, .inl rfl⟩

theorem Within.trans (first : after.Within server) (rest : last.Within after) :
    last.Within server where
  keys := rest.keys.trans first.keys
  buttons := by
    rcases rest.buttons with same | zero
    · exact same ▸ first.buttons
    · exact .inr zero

theorem Within.idle (h : after.Within server) (idle : server.Idle) : after.Idle :=
  ⟨Finset.subset_empty.mp (idle.1 ▸ h.keys), h.buttons.elim (·.trans idle.2) id⟩

theorem within_flatten {parts : List (List X11Event)}
    (h : ∀ part ∈ parts, ∀ server, (part.foldl receive server).Within server) (server : Server) :
    (parts.flatten.foldl receive server).Within server := by
  induction parts generalizing server with
  | nil => exact .refl
  | cons part parts ih =>
    rw [List.flatten_cons, List.foldl_append]
    exact (h part List.mem_cons_self server).trans
      (ih (fun part mem => h part (List.mem_cons_of_mem _ mem)) _)

theorem within_press_release (k : Keysym) :
    ([X11Event.keyEvent k true, .keyEvent k false].foldl receive server).Within server where
  keys := by
    change (insert k server.keys).erase k ⊆ server.keys
    rw [Finset.erase_insert_eq_erase]
    exact Finset.erase_subset _ _
  buttons := .inl rfl

theorem within_click (x y : UInt16) (button : UInt8) :
    ([X11Event.pointerEvent x y button, .pointerEvent x y 0].foldl receive server).Within server :=
  ⟨Finset.Subset.refl _, .inr rfl⟩

theorem within_appendWheel {events out : List X11Event} {x y : UInt16} {delta : Int16}
    {negativeButton positiveButton : UInt8}
    (h : appendWheel events x y delta negativeButton positiveButton = .ok out)
    (before : ∀ server, (events.foldl receive server).Within server) (server : Server) :
    (out.foldl receive server).Within server := by
  simp only [appendWheel, Check.bind_eq_ok] at h
  obtain ⟨_, -, same⟩ := h
  cases same
  rw [List.foldl_append]
  refine (before server).trans (within_flatten (fun part mem server => ?_) _)
  rw [List.eq_of_mem_replicate mem]
  exact within_click x y _

theorem mem_keys_release {keys : List Keysym} {k : Keysym} :
    k ∈ ((keys.map (.keyEvent · false)).foldl receive server).keys ↔
      k ∈ server.keys ∧ k ∉ keys := by
  induction keys generalizing server with
  | nil => simp
  | cons first keys ih =>
    rw [List.map_cons, List.foldl_cons, ih]
    simp only [receive, Finset.mem_erase, List.mem_cons, not_or]
    tauto

theorem buttons_release {keys : List Keysym} :
    ((keys.map (.keyEvent · false)).foldl receive server).buttons = server.buttons := by
  induction keys generalizing server with
  | nil => rfl
  | cons first keys ih => exact ih

theorem within_releaseEvents (state : InputState) :
    (state.releaseEvents.foldl receive server).Within server := by
  have keys : ((state.pressed.toList.map (.keyEvent · false)).foldl receive server).Within server :=
    ⟨fun k mem => (mem_keys_release.mp mem).1, .inl buttons_release⟩
  rw [InputState.releaseEvents, List.foldl_append]
  refine keys.trans ?_
  split
  · exact ⟨Finset.Subset.refl _, .inr rfl⟩
  · exact .refl

end Server

structure Session.Tracked (session : Session) : Prop where
  keys : ∀ k ∈ session.server.keys, k ∈ session.input.pressed
  buttons : session.server.buttons ≠ 0 → session.input.pointer.buttons ≠ 0

section

variable {clipboardEnabled : Bool} {session : Session} {server : Server} {input : DesktopInput}

theorem Session.Tracked.within (h : session.Tracked) (within : server.Within session.server) :
    Session.Tracked ⟨session.input, server⟩ where
  keys k mem := h.keys k (within.keys mem)
  buttons down := by
    rcases within.buttons with same | zero
    · exact h.buttons (same ▸ down)
    · exact absurd zero down

theorem Session.Tracked.released (h : session.Tracked) :
    (session.input.releaseEvents.foldl Server.receive session.server).Idle := by
  have keys {k : Keysym} : k ∉ ((session.input.pressed.toList.map
      (X11Event.keyEvent · false)).foldl Server.receive session.server).keys := fun mem => by
    rw [Server.mem_keys_release, BTreeSet.mem_toList] at mem
    exact mem.2 (h.keys k mem.1)
  rw [InputState.releaseEvents, List.foldl_append]
  split
  · exact ⟨Finset.eq_empty_of_forall_notMem fun k => keys, rfl⟩
  · next zero =>
    refine ⟨Finset.eq_empty_of_forall_notMem fun k => keys, ?_⟩
    rw [List.foldl_nil, Server.buttons_release]
    by_contra down
    exact h.buttons down (not_not.mp zero)

theorem Session.Tracked.idle (idle : server.Idle) (input : InputState) :
    Session.Tracked ⟨input, server⟩ where
  keys k mem := by simp [idle.1] at mem
  buttons down := absurd idle.2 down

theorem Server.within_receiveIf {events : List X11Event}
    (h : (events.foldl Server.receive server).Within server) (delivered : Bool) :
    (server.receiveIf delivered events).Within server := by
  cases delivered with
  | false => exact .refl
  | true => exact h

theorem plan_tracked (h : session.Tracked) {state : InputState} {planned : PlannedInput}
    (made : session.input.plan clipboardEnabled input = (state, .ok planned)) (delivered : Bool) :
    Session.Tracked ⟨state, session.server.receiveIf delivered planned.events⟩ := by
  cases input with
  | key scanCode keysym down =>
    cases made
    cases delivered with
    | false =>
      cases down with
      | false => exact h
      | true => exact ⟨fun k mem => BTreeSet.mem_insert.mpr (.inr (h.keys k mem)), h.buttons⟩
    | true =>
      cases down with
      | false => exact ⟨fun k mem => h.keys k (Finset.mem_of_mem_erase mem), h.buttons⟩
      | true =>
        refine ⟨fun k mem => BTreeSet.mem_insert.mpr ?_, h.buttons⟩
        exact (Finset.mem_insert.mp mem).imp_right (h.keys k)
  | pointer x y buttons =>
    cases made
    refine ⟨by cases delivered <;> exact h.keys, fun down both => ?_⟩
    obtain ⟨old, new⟩ := UInt8.or_eq_zero_iff.mp both
    cases delivered with
    | false => exact h.buttons down old
    | true => exact down new
  | wheel x y deltaX deltaY =>
    simp only [InputState.plan, Prod.mk.injEq, Check.bind_eq_ok] at made
    obtain ⟨rfl, horizontal, first, both, second, same⟩ := made
    cases same
    have within := Server.within_appendWheel second (Server.within_appendWheel first fun _ => .refl)
    have tracked := h.within (Server.within_receiveIf (within session.server) delivered)
    exact ⟨tracked.keys, tracked.buttons⟩
  | text content =>
    cases made
    refine h.within (Server.within_receiveIf ?_ delivered)
    rw [List.flatMap_def]
    refine Server.within_flatten (fun part mem server => ?_) _
    obtain ⟨character, -, rfl⟩ := List.mem_map.mp mem
    exact Server.within_press_release _
  | clipboard content =>
    rw [InputState.plan] at made
    split at made
    · cases made
    · cases made
      exact h.within (Server.within_receiveIf .refl delivered)
  | resize width height scalePercent => cases made
  | releaseAll =>
    cases made
    exact h.within (Server.within_receiveIf (Server.within_releaseEvents _) delivered)

theorem plan_error_tracked (h : session.Tracked) {state : InputState} {e : EngineError}
    (made : session.input.plan clipboardEnabled input = (state, .error e)) :
    Session.Tracked ⟨state, session.server⟩ := by
  cases input with
  | wheel x y deltaX deltaY =>
    cases (Prod.mk.inj made).1
    exact ⟨h.keys, h.buttons⟩
  | clipboard content =>
    cases (Prod.mk.inj made).1
    exact h
  | resize width height scalePercent =>
    cases made
    exact h
  | key scanCode keysym down => cases made
  | pointer x y buttons => cases made
  | text content => cases made
  | releaseAll => cases made

theorem written_tracked (h : session.Tracked) {state : InputState} {planned : PlannedInput}
    (made : session.input.plan clipboardEnabled input = (state, .ok planned)) :
    Session.Tracked ⟨state.settleSuccess input,
      planned.events.foldl Server.receive session.server⟩ := by
  have planTracked := plan_tracked h made true
  cases input with
  | key scanCode keysym down =>
    cases made
    cases down with
    | true => exact planTracked
    | false =>
      refine ⟨fun k mem => BTreeSet.mem_erase.mpr ?_, h.buttons⟩
      obtain ⟨other, mem⟩ := Finset.mem_erase.mp mem
      exact ⟨other, h.keys k mem⟩
  | pointer x y buttons =>
    cases made
    exact ⟨h.keys, id⟩
  | releaseAll =>
    cases made
    exact .idle h.released _
  | wheel x y deltaX deltaY => exact planTracked
  | text content => exact planTracked
  | clipboard content => exact planTracked
  | resize width height scalePercent => exact planTracked

end

def Outcome.delivered : Outcome → Bool
  | .written => true
  | .failed delivered | .stopped delivered _ | .focusChanged delivered _ => delivered

namespace Session

variable (clipboardEnabled : Bool) (session : Session)

def write? (input : DesktopInput) (before after : Bool) : Option (Session × List X11Event) :=
  if before then
    match input.validate, session.input.plan clipboardEnabled input with
    | .ok (), (state, .ok planned) =>
      if after then some ({ session with input := state }, planned.events) else none
    | _, _ => none
  else none

@[simp] def releasing : Turn → Option (Session × Bool)
  | .release released => some (session, released)
  | .command input before after outcome => do
    let (session, events) ← session.write? clipboardEnabled input before after
    match outcome with
    | .stopped delivered released | .focusChanged delivered released =>
      some (session.dispatch events delivered, released)
    | .written | .failed _ => none

/-- The turn forgets what is held, and the releases do not reach a server that holds
something. -/
def Strands (turn : Turn) : Prop :=
  ∃ s, session.releasing clipboardEnabled turn = some (s, false) ∧ ¬s.server.Idle

/-- A release batch, of `release_all` or of a `ReleaseAll` input, is delivered. -/
def ReleaseArrives (turn : Turn) : Prop :=
  (∃ s, session.releasing clipboardEnabled turn = some (s, true)) ∨
    ∃ before after outcome, turn = .command .releaseAll before after outcome ∧
      session.write? clipboardEnabled .releaseAll before after ≠ none ∧ outcome.delivered = true

end Session

section

variable {clipboardEnabled : Bool} {session s : Session} {input : DesktopInput}
  {before after : Bool} {outcome : Outcome} {turn : Turn}

theorem Session.Tracked.releaseAll_iff (h : session.Tracked) (released : Bool) :
    (session.releaseAll released).Tracked ↔ released = true ∨ session.server.Idle := by
  cases released with
  | true => exact ⟨fun _ => .inl rfl, fun _ => .idle h.released _⟩
  | false =>
    refine ⟨fun tracked => .inr ⟨?_, ?_⟩, fun idle => .idle (idle.resolve_left nofun) _⟩
    · refine Finset.eq_empty_of_forall_notMem fun k mem => ?_
      exact BTreeSet.notMem_empty k (tracked.keys k mem)
    · by_contra down
      exact tracked.buttons down rfl

theorem handleCommand_cases (h : session.Tracked) (clipboardEnabled : Bool)
    (input : DesktopInput) (before after : Bool) (outcome : Outcome) :
    session.write? clipboardEnabled input before after = none ∧
      (session.handleCommand clipboardEnabled input before after outcome).Tracked ∨
    ∃ state planned, session.input.plan clipboardEnabled input = (state, .ok planned) ∧
      session.write? clipboardEnabled input before after =
        some (⟨state, session.server⟩, planned.events) ∧
      session.handleCommand clipboardEnabled input before after outcome =
        Session.settle ⟨state, session.server⟩ input planned.events outcome := by
  unfold Session.write? Session.handleCommand
  cases before with
  | false => exact .inl ⟨rfl, h⟩
  | true =>
    cases valid : input.validate with
    | error e => exact .inl ⟨rfl, h⟩
    | ok u =>
      rcases made : session.input.plan clipboardEnabled input with ⟨state, e | planned⟩
      · exact .inl ⟨rfl, plan_error_tracked h made⟩
      · cases after with
        | false => exact .inl ⟨rfl, plan_tracked h made false⟩
        | true => exact .inr ⟨state, planned, rfl, rfl, rfl⟩

theorem step_tracked_iff (h : session.Tracked) :
    (session.step clipboardEnabled turn).Tracked ↔ ¬session.Strands clipboardEnabled turn := by
  have released {t : Session} {released : Bool} (tracked : t.Tracked)
      (here : session.releasing clipboardEnabled turn = some (t, released)) :
      (t.releaseAll released).Tracked ↔ ¬session.Strands clipboardEnabled turn := by
    rw [tracked.releaseAll_iff, Session.Strands, here]
    cases released with
    | true => simp
    | false => simp
  cases turn with
  | release _ => exact released h rfl
  | command input before after outcome =>
    rcases handleCommand_cases h clipboardEnabled input before after outcome with
      ⟨stopped, tracked⟩ | ⟨state, planned, made, written, settled⟩
    · refine iff_of_true tracked ?_
      rintro ⟨s, here, -⟩
      simp [stopped] at here
    · have planTracked := plan_tracked h made
      change (session.handleCommand clipboardEnabled input before after outcome).Tracked ↔ _
      rw [settled]
      cases outcome with
      | written =>
        refine iff_of_true (written_tracked h made) ?_
        rintro ⟨s, here, -⟩
        simp [written] at here
      | failed delivered =>
        refine iff_of_true (planTracked delivered) ?_
        rintro ⟨s, here, -⟩
        simp [written] at here
      | stopped delivered arrives =>
        exact released (planTracked delivered)
          (by simp [written, Session.dispatch])
      | focusChanged delivered arrives =>
        exact released (planTracked delivered)
          (by simp [written, Session.dispatch])

theorem release_arrives (h : session.Tracked)
    (arrives : session.ReleaseArrives clipboardEnabled turn) :
    (session.step clipboardEnabled turn).server.Idle := by
  rcases arrives with ⟨t, here⟩ | ⟨before, after, outcome, rfl, reached, delivered⟩
  · cases turn with
    | release released =>
      cases here
      exact h.released
    | command input before after outcome =>
      rcases handleCommand_cases h clipboardEnabled input before after outcome with
        ⟨stopped, -⟩ | ⟨state, planned, made, written, settled⟩
      · simp [stopped] at here
      · change (session.handleCommand clipboardEnabled input before after outcome).server.Idle
        rw [settled]
        simp only [Session.releasing, written, Option.bind_eq_bind, Option.bind_some] at here
        cases outcome with
        | written => cases here
        | failed delivered => cases here
        | stopped delivered released =>
          cases here
          exact (plan_tracked h made delivered).released
        | focusChanged delivered released =>
          cases here
          exact (plan_tracked h made delivered).released
  · rcases handleCommand_cases h clipboardEnabled .releaseAll before after outcome with
      ⟨stopped, -⟩ | ⟨state, planned, made, written, settled⟩
    · exact absurd stopped reached
    · change (session.handleCommand clipboardEnabled .releaseAll before after outcome).server.Idle
      rw [settled]
      cases made
      have idle := h.released
      have more (released : Bool) : ((⟨session.input, session.input.releaseEvents.foldl
          Server.receive session.server⟩ : Session).releaseAll released).server.Idle :=
        (Server.within_receiveIf (Server.within_releaseEvents _) released).idle idle
      cases outcome with
      | written => exact idle
      | failed _ =>
        cases delivered
        exact idle
      | stopped _ released =>
        cases delivered
        exact more released
      | focusChanged _ released =>
        cases delivered
        exact more released

end

section

variable (clipboardEnabled : Bool)

def runTurns (turns : List Turn) : Session := turns.foldl (Session.step clipboardEnabled) {}

theorem runTurns_concat (turns : List Turn) (turn : Turn) :
    runTurns clipboardEnabled (turns ++ [turn]) =
      (runTurns clipboardEnabled turns).step clipboardEnabled turn := by
  simp [runTurns]

theorem start_tracked : (runTurns clipboardEnabled []).Tracked := ⟨nofun, nofun⟩

theorem concat_tracked_iff (turns : List Turn) (turn : Turn)
    (here : (runTurns clipboardEnabled turns).Tracked) :
    (runTurns clipboardEnabled (turns ++ [turn])).Tracked ↔
      ¬(runTurns clipboardEnabled turns).Strands clipboardEnabled turn := by
  rw [runTurns_concat]
  exact step_tracked_iff here

/-- What the server considers down is recorded between all turns, exactly if no release batch
is lost while something is down; and then every release batch that arrives leaves nothing
down. -/
theorem tracked_iff (turns : List Turn) :
    ((∀ earlier later, turns = earlier ++ later → (runTurns clipboardEnabled earlier).Tracked) ↔
      Justified (fun earlier turn =>
        ¬(runTurns clipboardEnabled earlier).Strands clipboardEnabled turn) turns) ∧
    (Justified (fun earlier turn =>
        ¬(runTurns clipboardEnabled earlier).Strands clipboardEnabled turn) turns →
      Justified (fun earlier turn =>
        (runTurns clipboardEnabled earlier).ReleaseArrives clipboardEnabled turn →
          (runTurns clipboardEnabled (earlier ++ [turn])).server.Idle) turns) := by
  have always := Justified.always_iff turns (Q := fun turns =>
    (runTurns clipboardEnabled turns).Tracked) (start_tracked clipboardEnabled)
    (concat_tracked_iff clipboardEnabled)
  refine ⟨always, fun keeps earlier turn later shape arrives => ?_⟩
  have here := always.mpr keeps earlier (turn :: later) shape
  rw [runTurns_concat]
  exact release_arrives here arrives

end

def pressA : List Turn := [.command (.key 0 97 true) true true .written]

theorem tracked_pressA : (runTurns false pressA).server.keys = {97} ∧
      ∀ earlier later, pressA ++ [.release true] = earlier ++ later →
        (runTurns false earlier).Tracked := by
  refine ⟨by decide, (tracked_iff false _).1.mpr ?_⟩
  refine Justified.concat_iff.mpr ⟨Justified.concat_iff.mpr ⟨.nil, ?_⟩, ?_⟩
  · rintro ⟨s, here, -⟩
    cases here
  · rintro ⟨s, here, -⟩
    cases here

/-- The release of a key is lost, the key is forgotten, and the next release is empty. -/
theorem release_lost : ¬(runTurns false (pressA ++ [.release false])).Tracked ∧
      (runTurns false (pressA ++ [.release false])).ReleaseArrives false (.release true) ∧
      (runTurns false (pressA ++ [.release false, .release true])).server.keys = {97} := by
  refine ⟨fun tracked => ?_, .inl ⟨_, rfl⟩, by decide⟩
  exact BTreeSet.notMem_empty 97 (tracked.keys 97 (by decide))

end NoriShell.Vnc

import NoriShell.Restore.Recovery

/-! Histories of owned restores and collections of the vault queue. -/

namespace NoriShell.Restore

open Collections Vault Program

/-- A restore runs to the end of its schedule, in which collections may take steps of
their own; a restart ends the running collections. -/
inductive Event
  | restore (build : ReconcilePlanBuild) (changeFence : Nat) (turns : List Turn)
  | reconcile (turns : List Turn)
  | collect (step : CollectorStep)
  | restart

namespace World

def occur (w : World) : Event → World
  | .restore build changeFence turns => (RestoreOperation.owned build changeFence).run w turns
  | .reconcile turns => (reconcileRun w turns).2
  | .collect step => w.collect step
  | .restart => { w with collections := [] }

def history (w : World) (events : List Event) : World :=
  events.foldl occur w

/-- No collection ever deleted a secret that was in use, or that a restore had inserted
and could still commit. -/
def Spared (w : World) : Prop :=
  ∀ deletion ∈ w.deletions, ∀ r ∈ deletion.1,
    ¬deletion.2.metadata.Referenced r ∧ ¬deletion.2.Pending r

end World

def Cautious : World → List Event → Prop
  | _, [] => True
  | w, event :: events =>
    (∀ build changeFence turns, event = .restore build changeFence turns → build.Safe w) ∧
      Cautious (w.occur event) events

section

variable {w : World}

theorem RestoreOperation.Settled.sound {op : RestoreOperation} {start : World}
    (h : op.Settled start w) : w.Sound := by
  rcases h with h | ⟨target, -, h⟩
  · exact h.sound
  · exact h.sound

theorem World.Sound.occur (sound : w.Sound) {event : Event}
    (safe : ∀ build changeFence turns, event = .restore build changeFence turns → build.Safe w) :
    (w.occur event).Sound := by
  cases event with
  | restore build changeFence turns =>
    have safe : (RestoreOperation.owned build changeFence).Safe w :=
      safe build changeFence turns rfl
    exact (RestoreOperation.run_settled sound safe turns).sound
  | reconcile turns =>
    have kept : Unpublished w [] (reconcileRun w turns).2 :=
      reconcileRun_keeps Unpublished.undoable (.refl sound) turns
    exact kept.sound
  | collect step => exact sound.collect (w.collect_collected step)
  | restart =>
    refine ⟨sound.pending, fun r listed => sound.collectable r ?_, sound.deletions⟩
    exact listed.imp_right fun ⟨_, mem, _⟩ => absurd mem List.not_mem_nil

theorem World.Sound.history (sound : w.Sound) {events : List Event} (cautious : Cautious w events) :
    (w.history events).Sound := by
  induction events generalizing w with
  | nil => exact sound
  | cons event events ih => exact ih (sound.occur cautious.1) cautious.2

end

theorem history_spared {w : World} (sound : w.Sound) {events : List Event}
    (cautious : Cautious w events) : (w.history events).Spared :=
  (sound.history cautious).deletions

def sampleDeletion : ReconcilePlanBuild where
  delta := {
    owner := sampleOwner
    attemptId := 3
    deltaSha256 := "deletion"
    creates := some ⟨{ samplePlan 3 with identities := [], credentials := [] }, []⟩
    credentialDeletes := [⟨101, 20, 1⟩]
    secretDeletes := [⟨102, 5⟩] }
  vaultInserts := []

theorem sampleDeletion_safe (w : World) : sampleDeletion.Safe w where
  fresh := ⟨fun _ mem => absurd mem List.not_mem_nil, fun _ mem => absurd mem List.not_mem_nil⟩
  unpending _ _ _ mem := absurd mem List.not_mem_nil
  covered _ mem := absurd mem List.not_mem_nil

def promptDeletion : List Event :=
  [.restore (sampleBuild 1) 0 (smoothly 8), .restore sampleDeletion 2 (smoothly 8),
    .collect (.delete 1 .done)]

theorem promptDeletion_spared : (sampleWorld.history promptDeletion).deletions ≠ [] ∧
      (sampleWorld.history promptDeletion).Spared := by
  refine ⟨by decide, history_spared sampleWorld_sound ⟨?_, ?_, ?_, trivial⟩⟩
  · rintro build changeFence turns ⟨⟩
    exact sampleBuild_safe
  · rintro build changeFence turns ⟨⟩
    exact sampleDeletion_safe _
  · rintro build changeFence turns ⟨⟩

def sampleRecreation : ReconcilePlanBuild where
  delta := {
    owner := sampleOwner
    attemptId := 4
    deltaSha256 := "recreation"
    creates := some ⟨{ samplePlan 4 with identities := [] },
      [⟨101, .credential 20⟩, ⟨102, .secret 5⟩]⟩ }
  vaultInserts := [sampleSecret]

/-- The deletion of the secret is postponed until the credential is back. -/
def postponedDeletion : List Event :=
  [.restore (sampleBuild 1) 0 (smoothly 8), .restore sampleDeletion 2 (smoothly 8), .restart,
    .restore sampleRecreation 4 (smoothly 8), .collect (.list sampleOwner),
    .collect (.delete 1 .done)]

theorem postponedDeletion_not_spared :
    sampleWorld.Sound ∧ ¬(sampleWorld.history postponedDeletion).Spared := by
  refine ⟨sampleWorld_sound, fun spared => ?_⟩
  have deleted : ∃ deletion ∈ (sampleWorld.history postponedDeletion).deletions,
      5 ∈ deletion.1 ∧ deletion.2.metadata.Referenced 5 := by decide
  obtain ⟨deletion, mem, listed, used⟩ := deleted
  exact (spared deletion mem 5 listed).1 used

end NoriShell.Restore

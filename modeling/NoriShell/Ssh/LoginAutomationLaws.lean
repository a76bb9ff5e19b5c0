import NoriShell.Ssh.LoginAutomation
import NoriShell.Justified

namespace NoriShell.Ssh.Login

open Collections

namespace SessionRecord

variable {record : SessionRecord} {turn : Turn} {automation : ActiveLoginAutomation}
  {generation : Nat}

def progress (record : SessionRecord) : Option SshLoginAutomationProgress :=
  record.activeLoginAutomation.map (·.progress)

structure Kept (before after : SessionRecord) : Prop where
  progress : after.progress = before.progress
  events : after.progressEvents = before.progressEvents

theorem Kept.refl (record : SessionRecord) : Kept record record := ⟨rfl, rfl⟩

theorem Kept.trans {first second third : SessionRecord} (h : Kept first second)
    (h' : Kept second third) : Kept first third :=
  ⟨h'.progress.trans h.progress, h'.events.trans h.events⟩

theorem dueFailure_eq_none {first second : Nat} :
    record.dueFailure automation generation first second = none ↔
      record.ownerIsCurrent automation generation = true ∧ first < automation.totalDeadline ∧
        second < automation.stepDeadline := by
  unfold dueFailure
  split_ifs with owner total step <;> simp_all

section

variable (state : SshSessionState) (closeReason : Option SshSessionCloseReason)
  (failureReason : Option Nat)

@[simp] theorem progressEvents_transitionRecord :
    (record.transitionRecord state closeReason failureReason).progressEvents =
      record.progressEvents := by
  unfold transitionRecord
  split_ifs <;> rfl

@[simp] theorem activeLoginAutomation_transitionRecord :
    (record.transitionRecord state closeReason failureReason).activeLoginAutomation =
      record.activeLoginAutomation := by
  unfold transitionRecord
  split_ifs <;> rfl

@[simp] theorem state_transitionRecord :
    (record.transitionRecord state closeReason failureReason).state = state := by
  unfold transitionRecord
  split_ifs with same
  · exact same.1
  · rfl

theorem kept_transitionRecord :
    Kept record (record.transitionRecord state closeReason failureReason) :=
  ⟨by simp [progress], by simp⟩

end

theorem not_kept_failLoginAutomation {before : SessionRecord}
    {code : SshLoginAutomationFailureCode} (events : before.progressEvents = record.progressEvents)
    (active : record.activeLoginAutomation = some automation)
    (automating : record.automating generation = true) :
    ¬ Kept before (record.failLoginAutomation generation code) := by
  intro kept
  have longer := congrArg List.length kept.events
  simp [failLoginAutomation, automating, failLoginAutomationRecord, active, emitProgress,
    events] at longer

section

variable (active : record.activeLoginAutomation = some automation)
  (failed : automation.progress.status = .failed)
include active failed

theorem kept_driveFrom_iff (remaining : List LoginAutomationStepInput) (tick : Nat)
    (automating : record.automating generation = true) :
    Kept record (driveFrom turn generation remaining tick record) ↔
      record.dueFailure automation generation (turn.now tick) (turn.now tick) = none := by
  rw [driveFrom.eq_def]
  simp only [active]
  cases due : record.dueFailure automation generation (turn.now tick) (turn.now tick) with
  | none => simp [failed, Kept.refl]
  | some failure => simpa using not_kept_failLoginAutomation rfl active automating

theorem kept_shellOutput_iff (bytes : List UInt8) :
    Kept record (record.shellOutput turn generation bytes) ↔ (record.automating generation = true →
        record.dueFailure automation generation (turn.now 0) (turn.now 0) = none) := by
  unfold shellOutput
  split_ifs with automating
  · simp only [active, failed, reduceCtorEq, if_false, automating, forall_const]
    exact kept_driveFrom_iff active failed _ 0 automating
  · exact iff_of_true (.refl record) fun h => absurd h automating

theorem kept_writeCompleted_iff (stateRevision stepIndex : Nat) (succeeded : Bool) : Kept record
        (record.loginAutomationWriteCompleted turn generation stateRevision stepIndex succeeded) ↔
      (record.writeIsCurrent generation stateRevision stepIndex = true → succeeded = true) := by
  unfold loginAutomationWriteCompleted
  by_cases current : record.writeIsCurrent generation stateRevision stepIndex = true
  · have automating : record.automating generation = true := by
      simp only [writeIsCurrent, Bool.and_eq_true] at current
      exact current.1.1
    simp only [active, failed, current, forall_const, if_true]
    cases succeeded with
    | false => exact iff_of_false (not_kept_failLoginAutomation rfl rfl automating) (by decide)
    | true => exact iff_of_true ⟨by simp [progress, active], rfl⟩ rfl
  · rw [if_neg current]
    exact iff_of_true (.refl record) fun h => absurd h current

theorem kept_stepTimeout (stateRevision stepIndex : Nat) :
    record.loginAutomationStepTimeout turn generation stateRevision stepIndex = record := by
  simp [loginAutomationStepTimeout, active, failed]

end

theorem unchanged_removeAttachment (record : SessionRecord) {attachmentId : Nat}
    (other : ∀ removed, record.attachments.get? attachmentId = some removed →
      record.owned attachmentId removed.viewId = false) :
    (record.removeAttachment attachmentId).activeLoginAutomation = record.activeLoginAutomation ∧
      (record.removeAttachment attachmentId).progressEvents = record.progressEvents := by
  unfold removeAttachment
  cases found : record.attachments.get? attachmentId with
  | none => exact ⟨rfl, rfl⟩
  | some removed =>
    simp only [other removed found]
    exact ⟨rfl, rfl⟩

theorem kept_of_unchanged {after : SessionRecord}
    (h : after.activeLoginAutomation = record.activeLoginAutomation ∧
      after.progressEvents = record.progressEvents) : Kept record after :=
  ⟨congrArg (Option.map ActiveLoginAutomation.progress) h.1, h.2⟩

section

variable (active : record.activeLoginAutomation = some automation)

include active

theorem owned_eq_false {attachmentId viewId : Nat}
    (other : automation.ownerAttachmentId ≠ attachmentId ∨ automation.ownerViewId ≠ viewId) :
    record.owned attachmentId viewId = false := by
  rw [owned, active]
  rcases other with other | other <;> simp [other]

theorem kept_attach {request : AttachRequest} (other : automation.ownerViewId ≠ request.viewId) :
    Kept record (record.attach turn request) := by
  unfold attach
  split_ifs
  · exact .refl record
  · apply kept_of_unchanged
    cases found : record.attachments.toList.find? (·.2.viewId == request.viewId) with
    | none => exact ⟨rfl, rfl⟩
    | some old =>
      have same : old.2.viewId = request.viewId := by simpa using List.find?_some found
      have there := BTreeMap.mem_toList.1 (List.mem_of_find?_eq_some found)
      refine unchanged_removeAttachment record fun removed got => ?_
      obtain rfl := Option.some.inj (there.symm.trans got)
      exact owned_eq_false active (.inr (same ▸ other))

theorem kept_detach {request : DetachRequest}
    (other : automation.ownerAttachmentId ≠ request.attachmentId) :
    Kept record (record.detach turn request) := by
  have removed {before : SessionRecord} (same : before.activeLoginAutomation = some automation) :
      Kept before (before.removeAttachment request.attachmentId) :=
    kept_of_unchanged (unchanged_removeAttachment _ fun _ _ => owned_eq_false same (.inl other))
  unfold detach
  split
  · exact .refl record
  split
  · split
    · exact .refl record
    · exact removed active
  split
  · split
    · exact .refl record
    · exact removed active
  split
  · exact .refl record
  split
  · split
    · exact kept_transitionRecord _ _ _
    · exact .refl record
  · exact (kept_transitionRecord _ _ _).trans (removed (by simpa using active))

theorem kept_reap {stale : List Nat} (other : automation.ownerAttachmentId ∉ stale) :
    Kept record (record.reapStaleAttachments stale) := by
  induction stale generalizing record with
  | nil => exact .refl record
  | cons attachmentId stale ih =>
    rw [List.mem_cons, not_or] at other
    have first := unchanged_removeAttachment record fun _ _ =>
      owned_eq_false active (.inl other.1)
    exact (kept_of_unchanged first).trans (ih (first.1.trans active) other.2)

end

/-- The output, the write completion or the timeout finds nothing to fail over: the owner is
there and in time, and the write went through. -/
def Quiet (record : SessionRecord) (turn : Turn) : Message → Prop
  | .shellOutput generation _ => record.automating generation = true →
    ∀ automation ∈ record.activeLoginAutomation,
      record.ownerIsCurrent automation generation = true ∧
        turn.now 0 < automation.totalDeadline ∧ turn.now 0 < automation.stepDeadline
  | .loginAutomationWriteCompleted generation stateRevision stepIndex succeeded =>
    record.writeIsCurrent generation stateRevision stepIndex = true → succeeded = true
  | _ => True

/-- A takeover, a detach of the owner, a connection anew or an end of the session. -/
def Releases (record : SessionRecord) : Message → Prop
  | .attach request => ∃ automation ∈ record.activeLoginAutomation,
    automation.ownerViewId = request.viewId
  | .detach request => ∃ automation ∈ record.activeLoginAutomation,
    automation.ownerAttachmentId = request.attachmentId
  | .reapStaleAttachments stale => ∃ automation ∈ record.activeLoginAutomation,
    automation.ownerAttachmentId ∈ stale
  | .shellReady .. => record.state = .openingChannel
  | .loginAutomationTakeover _ | .reconnect _ | .disconnect _ | .beginShutdown
  | .transition .. => True
  | _ => False

end SessionRecord

def Message.FromShell : Message → Prop
  | .shellOutput .. | .loginAutomationWriteCompleted .. | .loginAutomationStepTimeout .. => True
  | _ => False

namespace SessionRecord

variable {record : SessionRecord} {turn : Turn} {automation : ActiveLoginAutomation}

theorem kept_fromShell_iff (active : record.activeLoginAutomation = some automation)
    (failed : automation.progress.status = .failed) {message : Message}
    (fromShell : message.FromShell) :
    Kept record (record.handle turn message) ↔ record.Quiet turn message := by
  cases message with
  | shellOutput generation bytes =>
    simp only [handle, kept_shellOutput_iff active failed, dueFailure_eq_none, Quiet, active,
      Option.mem_some_iff, forall_eq']
  | loginAutomationWriteCompleted generation stateRevision stepIndex succeeded =>
    exact kept_writeCompleted_iff active failed stateRevision stepIndex succeeded
  | loginAutomationStepTimeout generation stateRevision stepIndex =>
    simp only [handle, kept_stepTimeout active failed, Quiet, Kept.refl]
  | _ => exact fromShell.elim

theorem kept_handle (active : record.activeLoginAutomation = some automation)
    (failed : automation.progress.status = .failed) {message : Message}
    (quiet : record.Quiet turn message) (holds : ¬ record.Releases message) :
    Kept record (record.handle turn message) := by
  cases message with
  | shellOutput | loginAutomationWriteCompleted | loginAutomationStepTimeout =>
    refine (kept_fromShell_iff active failed ?_).2 quiet
    trivial
  | attach request =>
    exact kept_attach active fun same => holds ⟨automation, active, same⟩
  | detach request =>
    exact kept_detach active fun same => holds ⟨automation, active, same⟩
  | reapStaleAttachments stale =>
    exact kept_reap active fun member => holds ⟨automation, active, member⟩
  | shellReady =>
    have closed : (record.state != .openingChannel) = true := bne_iff_ne.2 holds
    simp only [handle, shellReady, closed, Bool.or_true, if_true, Kept.refl]
  | _ => exact (holds trivial).elim

theorem kept_run {later : List (Turn × Message)} {progress : SshLoginAutomationProgress}
    (active : record.progress = some progress) (failed : progress.status = .failed)
    (quiet : Justified (fun before entry => (record.run before).Quiet entry.1 entry.2 ∧
      ¬ (record.run before).Releases entry.2) later) :
    Kept record (record.run later) := by
  induction later generalizing record with
  | nil => exact .refl record
  | cons entry later ih =>
    obtain ⟨first, rest⟩ := Justified.cons_iff.1 quiet
    obtain ⟨automation, found, same⟩ := Option.map_eq_some_iff.1 active
    have kept := kept_handle found (same ▸ failed) first.1 first.2
    exact kept.trans (ih (kept.progress.trans active) rest)

/-- A failure survives the output, a write completion or a timeout without an event exactly if
that is quiet; through such messages it is final for all but what releases the automation. -/
theorem automation_failure_final_iff {record : SessionRecord} {automation : ActiveLoginAutomation}
    (active : record.activeLoginAutomation = some automation)
    (failed : automation.progress.status = .failed) :
    (∀ turn message, message.FromShell →
      (Kept record (record.handle turn message) ↔ record.Quiet turn message)) ∧
    ∀ later : List (Turn × Message),
      Justified (fun before entry => (record.run before).Quiet entry.1 entry.2 ∧
        ¬ (record.run before).Releases entry.2) later →
      Kept record (record.run later) :=
  ⟨fun _ _ fromShell => kept_fromShell_iff active failed fromShell,
    fun _ quiet => kept_run (congrArg (Option.map ActiveLoginAutomation.progress) active) failed
      quiet⟩

def opening : SessionRecord where
  generation := 1
  state := .openingChannel
  stateRevision := 5
  closeReason := none
  failureReason := none
  channelId := none
  attachmentRevision := 1
  attachments := BTreeMap.ofList
    [(7, { viewId := 8, attachAttemptId := 9, generation := 1, channelId := none })]
  activeLoginAutomation := none
  shell := false
  progressEvents := []

def lockedTurn (now : Nat) : Turn where
  now := fun _ => now
  unixTimeMs := now
  readSecret := fun _ => .error .notUnlocked
  mailboxAccepts := true
  stopAccepted := true
  focusEpoch := 0
  focusChanges := true
  replayed := false
  drawn := id

/-- The plan's only step needs the Vault, so that the automation fails at once. -/
def lockedOut : SessionRecord :=
  opening.handle (lockedTurn 0)
    (.shellReady 1 (some ⟨2, .sendSecret 3 ['p'] true 30, []⟩) 7 8)

theorem automation_failure_final_iff_lockedOut :
    Kept lockedOut (lockedOut.handle (lockedTurn 29999) (.shellOutput 1 [36])) :=
  have active : lockedOut.activeLoginAutomation = some _ := rfl
  ((automation_failure_final_iff active rfl).1 _ (.shellOutput 1 [36]) trivial).2
    fun _ automation found => by
      obtain rfl := Option.some.inj (active.symm.trans found)
      decide

/-- After the deadline of the step the next output makes it a timeout. -/
theorem failure_code_overwritten : (lockedOut.progress.bind (·.failureCode) = some .vaultLocked ∧
      lockedOut.progressEvents.length = 2) ∧
    let late := lockedOut.handle (lockedTurn 30000) (.shellOutput 1 [36])
    late.progress.bind (·.failureCode) = some .stepTimeout ∧ late.progressEvents.length = 3 := by
  decide

end SessionRecord

end NoriShell.Ssh.Login

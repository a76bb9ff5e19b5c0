import NoriShell.Collections.BTreeMap
import NoriShell.Collections.Widths

/-! The login automation of one SSH session record.  Shell output, write completions
and timeouts drive the steps of its plan; requests of the views and the session's own
transitions end it.  What a message finds outside of the record is its `Turn`. -/

namespace NoriShell.Ssh.Login

open Collections

inductive SshSessionState
  | resolving
  | connecting
  | verifyingHostKey
  | awaitingHostKeyDecision
  | authenticating
  | openingChannel
  | automatingLogin
  | running
  | disconnecting
  | closed
  | failed
deriving DecidableEq

inductive SshSessionCloseReason
  | userRequested
  | lastAttachmentConfirmed
  | applicationExit
  | remoteEof
  | remoteExitStatus (exitStatus : Nat)
  | remoteExitSignal (signalName : List Char)
deriving DecidableEq

inductive SshLoginAutomationStatus
  | running
  | failed
deriving DecidableEq

inductive SshLoginAutomationFailureCode
  | stepTimeout
  | totalTimeout
  | matchBufferExceeded
  | attachmentUnavailable
  | vaultLocked
  | secretUnavailable
  | channelUnavailable
deriving DecidableEq

inductive SshLoginAutomationStepKind
  | expect
  | sendText
  | sendSecret
deriving DecidableEq

inductive LoginAutomationStepInput
  | expect (literalText : List UInt8) (timeoutSeconds : Nat)
  | sendText (text : List UInt8) (appendEnter : Bool) (timeoutSeconds : Nat)
  | sendSecret (secretRefId : Nat) (secretLabel : List Char) (appendEnter : Bool)
    (timeoutSeconds : Nat)
  | preserveExistingSecret (existingOrdinal : Nat) (appendEnter : Bool) (timeoutSeconds : Nat)

namespace LoginAutomationStepInput

def stepKind : LoginAutomationStepInput → SshLoginAutomationStepKind
  | expect .. => .expect
  | sendText .. => .sendText
  | sendSecret .. => .sendSecret
  | preserveExistingSecret .. => .sendSecret

def secretLabel : LoginAutomationStepInput → Option (List Char)
  | sendSecret _ label _ _ => some label
  | _ => none

def timeoutSeconds : LoginAutomationStepInput → Nat
  | expect _ seconds => seconds
  | sendText _ _ seconds => seconds
  | sendSecret _ _ _ seconds => seconds
  | preserveExistingSecret _ _ seconds => seconds

end LoginAutomationStepInput

structure SshLoginAutomationProgress where
  policyRevision : Nat
  currentStepIndex : Nat
  totalSteps : Nat
  stepKind : SshLoginAutomationStepKind
  secretLabel : Option (List Char)
  status : SshLoginAutomationStatus
  failureCode : Option SshLoginAutomationFailureCode
  startedAtUnixMs : Nat
  stepDeadlineUnixMs : Nat
deriving DecidableEq

structure SshLoginAutomationTakeoverRequest where
  idempotencyKeyBlank : Bool
  expectedFocusEpoch : Nat
  expectedGeneration : Nat
  expectedStateRevision : Nat
  channelId : Nat
  attachmentId : Nat
  viewId : Nat

/-- Times are readings of the clock in milliseconds. -/
structure ActiveLoginAutomation where
  policyRevision : Nat
  steps : List LoginAutomationStepInput
  currentStepIndex : Nat
  matcherBuffer : List UInt8
  timeoutScheduledFor : Option Nat
  totalDeadlineUnixMs : Nat
  totalDeadline : Nat
  stepDeadline : Nat
  ownerAttachmentId : Nat
  ownerViewId : Nat
  writeInFlight : Option Nat
  pendingTakeover : Option SshLoginAutomationTakeoverRequest
  progress : SshLoginAutomationProgress

structure SshSessionAttachment where
  viewId : Nat
  attachAttemptId : Nat
  generation : Nat
  channelId : Option Nat

structure SessionRecord where
  generation : Nat
  state : SshSessionState
  stateRevision : Nat
  closeReason : Option SshSessionCloseReason
  failureReason : Option Nat
  channelId : Option Nat
  attachmentRevision : Nat
  attachments : BTreeMap Nat SshSessionAttachment
  activeLoginAutomation : Option ActiveLoginAutomation
  shell : Bool
  /-- The payloads of the progress events that were emitted. -/
  progressEvents : List (Option SshLoginAutomationProgress)

inductive VaultServiceError
  | notUnlocked
  | other

/-- What one message finds around it: the clock at each of its readings, the Vault, the shell's
mailbox, the focus, the ledgers of operations and the identities it draws. -/
structure Turn where
  now : Nat → Nat
  unixTimeMs : Nat
  readSecret : Nat → Except VaultServiceError Unit
  mailboxAccepts : Bool
  stopAccepted : Bool
  focusEpoch : Nat
  focusChanges : Bool
  replayed : Bool
  drawn : Nat → Nat

def loginAutomationProgress (turn : Turn) (policyRevision : Nat)
    (steps : List LoginAutomationStepInput) (step : LoginAutomationStepInput)
    (stepIndex startedAtUnixMs totalDeadlineUnixMs : Nat) : SshLoginAutomationProgress where
  policyRevision
  currentStepIndex := stepIndex
  totalSteps := steps.length
  stepKind := step.stepKind
  secretLabel := step.secretLabel
  status := .running
  failureCode := none
  startedAtUnixMs
  stepDeadlineUnixMs := min (turn.unixTimeMs + step.timeoutSeconds * 1000) totalDeadlineUnixMs

def loginAutomationMatchBufferMaxBytes : Nat := 64 * 1024

def appendLoginAutomationMatcher (buffer bytes : List UInt8) : Option (List UInt8) :=
  if buffer.length + bytes.length > loginAutomationMatchBufferMaxBytes then none
  else some (buffer ++ bytes)

def findLiteralBytes (buffer literal : List UInt8) : Option Nat :=
  if literal.isEmpty || literal.length > buffer.length then none
  else (List.range (buffer.length - literal.length + 1)).find? fun offset =>
    (buffer.drop offset).take literal.length == literal

namespace SessionRecord

variable (record : SessionRecord) (turn : Turn)

def emitProgress (progress : Option SshLoginAutomationProgress) : SessionRecord :=
  { record with progressEvents := record.progressEvents ++ [progress] }

def transitionRecord (state : SshSessionState) (closeReason : Option SshSessionCloseReason)
    (failureReason : Option Nat) : SessionRecord :=
  if record.state = state ∧ record.closeReason = closeReason ∧
      record.failureReason = failureReason then record
  else { record with
    state, closeReason, failureReason, stateRevision := saturatingSucc record.stateRevision }

def failLoginAutomationRecord (failureCode : SshLoginAutomationFailureCode) : SessionRecord :=
  match record.activeLoginAutomation with
  | none => record
  | some automation =>
    let progress := { automation.progress with
      status := .failed, failureCode := some failureCode }
    { record with activeLoginAutomation := some { automation with
        progress, matcherBuffer := [], steps := [], timeoutScheduledFor := none } }
      |>.emitProgress (some progress)

def clearLoginAutomation : SessionRecord :=
  match record.activeLoginAutomation with
  | none => record
  | some _ => { record with activeLoginAutomation := none }.emitProgress none

def automating (generation : Nat) : Bool :=
  record.generation == generation && record.state == .automatingLogin

def failLoginAutomation (generation : Nat) (failureCode : SshLoginAutomationFailureCode) :
    SessionRecord :=
  if record.automating generation then
    let failed := record.failLoginAutomationRecord failureCode
    { failed with activeLoginAutomation := failed.activeLoginAutomation.map fun automation =>
        { automation with pendingTakeover := none } }
  else record

def endLoginAutomation : SessionRecord :=
  { record with activeLoginAutomation := none }.emitProgress none
    |>.transitionRecord .running none none

def finishLoginAutomation (generation : Nat) : SessionRecord :=
  if record.automating generation then record.endLoginAutomation else record

/-- Whether the last step is behind; `tick` is the reading of the clock. -/
def advanceLoginAutomation (generation tick : Nat) : SessionRecord × Bool :=
  if record.automating generation then
    match record.activeLoginAutomation with
    | none => (record, false)
    | some automation =>
      let currentStepIndex := automation.currentStepIndex + 1
      match automation.steps[currentStepIndex]? with
      | none => ({ record with activeLoginAutomation := some { automation with
          currentStepIndex, timeoutScheduledFor := none } }, true)
      | some step =>
        let progress := loginAutomationProgress turn automation.policyRevision automation.steps
          step currentStepIndex automation.progress.startedAtUnixMs automation.totalDeadlineUnixMs
        ({ record with activeLoginAutomation := some { automation with
            currentStepIndex, progress
            timeoutScheduledFor := none
            stepDeadline := min (turn.now tick + step.timeoutSeconds * 1000)
              automation.totalDeadline } }.emitProgress (some progress), false)
  else (record, false)

def scheduleLoginAutomationTimeout (generation : Nat) : SessionRecord :=
  if record.automating generation then
    { record with activeLoginAutomation := record.activeLoginAutomation.map fun automation =>
        if automation.progress.status = .running then
          { automation with timeoutScheduledFor := some automation.currentStepIndex }
        else automation }
  else record

def queueLoginAutomationWrite (generation tick : Nat) :
    Except SshLoginAutomationFailureCode SessionRecord :=
  if !record.shell || !record.automating generation then .error .channelUnavailable
  else match record.activeLoginAutomation with
    | none => .error .channelUnavailable
    | some automation =>
      if turn.now tick ≥ automation.totalDeadline then .error .totalTimeout
      else if turn.now tick ≥ automation.stepDeadline then .error .stepTimeout
      else if automation.writeInFlight.isSome || automation.progress.status ≠ .running then
        .error .channelUnavailable
      else if turn.mailboxAccepts then
        .ok { record with activeLoginAutomation := some { automation with
          writeInFlight := some automation.currentStepIndex } }
      else .error .channelUnavailable

def ownerIsCurrent (automation : ActiveLoginAutomation) (generation : Nat) : Bool :=
  (record.attachments.get? automation.ownerAttachmentId).any fun attachment =>
    attachment.viewId == automation.ownerViewId && attachment.generation == generation &&
      attachment.channelId == record.channelId

def dueFailure (automation : ActiveLoginAutomation) (generation first second : Nat) :
    Option SshLoginAutomationFailureCode :=
  if !record.ownerIsCurrent automation generation then some .attachmentUnavailable
  else if first ≥ automation.totalDeadline then some .totalTimeout
  else if second ≥ automation.stepDeadline then some .stepTimeout
  else none

def sendStep (generation tick : Nat) : SessionRecord :=
  match record.queueLoginAutomationWrite turn generation tick with
  | .ok queued => queued
  | .error failure => record.failLoginAutomation generation failure

def driveFrom (turn : Turn) (generation : Nat) :
    List LoginAutomationStepInput → Nat → SessionRecord → SessionRecord
  | remaining, tick, record =>
    match record.activeLoginAutomation with
    | none => record
    | some automation =>
      match record.dueFailure automation generation (turn.now tick) (turn.now tick) with
      | some failure => record.failLoginAutomation generation failure
      | none =>
        if automation.writeInFlight.isSome || automation.pendingTakeover.isSome ||
            !record.automating generation || automation.progress.status ≠ .running then record
        else match remaining with
          | [] => record
          | .expect literalText _ :: rest =>
            match findLiteralBytes automation.matcherBuffer literalText with
            | none => record.scheduleLoginAutomationTimeout generation
            | some offset =>
              let matched := { record with activeLoginAutomation := some { automation with
                matcherBuffer := automation.matcherBuffer.drop (offset + literalText.length) } }
              let (advanced, finished) := matched.advanceLoginAutomation turn generation (tick + 1)
              if finished then advanced.finishLoginAutomation generation
              else driveFrom turn generation rest (tick + 2) advanced
          | .sendText .. :: _ => record.sendStep turn generation (tick + 1)
          | .sendSecret secretRefId .. :: _ =>
            match turn.readSecret secretRefId with
            | .ok () => record.sendStep turn generation (tick + 1)
            | .error .notUnlocked => record.failLoginAutomation generation .vaultLocked
            | .error .other => record.failLoginAutomation generation .secretUnavailable
          | .preserveExistingSecret .. :: _ =>
            record.failLoginAutomation generation .secretUnavailable

def driveLoginAutomation (generation tick : Nat) : SessionRecord :=
  let remaining := record.activeLoginAutomation.elim [] fun automation =>
    automation.steps.drop automation.currentStepIndex
  driveFrom turn generation remaining tick record

def continueLoginAutomation (generation tick : Nat) : SessionRecord :=
  let (advanced, finished) := record.advanceLoginAutomation turn generation tick
  if finished then advanced.finishLoginAutomation generation
  else advanced.driveLoginAutomation turn generation (tick + 1)

def shellOutput (generation : Nat) (bytes : List UInt8) : SessionRecord :=
  if record.automating generation then
    match record.activeLoginAutomation with
    | none => record
    | some automation =>
      if automation.progress.status = .running then
        match appendLoginAutomationMatcher automation.matcherBuffer bytes with
        | none => record.failLoginAutomation generation .matchBufferExceeded
        | some matcherBuffer =>
          { record with activeLoginAutomation := some { automation with matcherBuffer } }
            |>.driveLoginAutomation turn generation 0
      else record.driveLoginAutomation turn generation 0
  else record

def validateAttachment (generation attachmentId viewId : Nat) : Bool :=
  record.generation == generation &&
    (record.attachments.get? attachmentId).any fun attachment =>
      attachment.generation == generation && attachment.viewId == viewId

def validateLoginAutomationTakeover (request : SshLoginAutomationTakeoverRequest) : Bool :=
  !request.idempotencyKeyBlank && request.expectedFocusEpoch == turn.focusEpoch &&
    record.validateAttachment request.expectedGeneration request.attachmentId request.viewId &&
    record.automating request.expectedGeneration &&
    record.stateRevision == request.expectedStateRevision &&
    record.channelId == some request.channelId && record.activeLoginAutomation.isSome

/-- Whether the takeover succeeded; the automation is gone even where the focus change fails. -/
def finishLoginAutomationTakeover (request : SshLoginAutomationTakeoverRequest) :
    SessionRecord × Bool :=
  if record.validateLoginAutomationTakeover turn request then
    (record.endLoginAutomation, turn.focusChanges)
  else (record, false)

def writeIsCurrent (generation stateRevision stepIndex : Nat) : Bool :=
  record.automating generation && record.stateRevision == stateRevision &&
    record.activeLoginAutomation.any fun automation =>
      automation.currentStepIndex == stepIndex && automation.writeInFlight == some stepIndex

def loginAutomationWriteCompleted (generation stateRevision stepIndex : Nat) (succeeded : Bool) :
    SessionRecord :=
  if record.writeIsCurrent generation stateRevision stepIndex then
    match record.activeLoginAutomation with
    | none => record
    | some automation =>
      let idle := { record with activeLoginAutomation := some { automation with
        writeInFlight := none, pendingTakeover := none } }
      if !succeeded then idle.failLoginAutomation generation .channelUnavailable
      else if automation.progress.status = .failed then idle
      else match automation.pendingTakeover with
        | none => idle.continueLoginAutomation turn generation 0
        | some request =>
          let (taken, done) := idle.finishLoginAutomationTakeover turn request
          if done then taken else taken.continueLoginAutomation turn generation 0
  else record

def loginAutomationStepTimeout (generation stateRevision stepIndex : Nat) : SessionRecord :=
  if record.automating generation && record.stateRevision == stateRevision then
    match record.activeLoginAutomation with
    | none => record
    | some automation =>
      if automation.currentStepIndex ≠ stepIndex ∨ automation.progress.status ≠ .running then record
      else match record.dueFailure automation generation (turn.now 0) (turn.now 1) with
        | some failure => record.failLoginAutomation generation failure
        | none => record
  else record

def loginAutomationTakeover (request : SshLoginAutomationTakeoverRequest) : SessionRecord :=
  if request.idempotencyKeyBlank || turn.replayed then record
  else match record.activeLoginAutomation with
    | none => record
    | some automation =>
      if automation.pendingTakeover.isSome then record
      else if !record.validateLoginAutomationTakeover turn request then record
      else if automation.writeInFlight.isSome then
        { record with activeLoginAutomation := some { automation with
          pendingTakeover := some request } }
      else (record.finishLoginAutomationTakeover turn request).1

def owned (attachmentId viewId : Nat) : Bool :=
  record.activeLoginAutomation.any fun automation =>
    automation.ownerAttachmentId == attachmentId && automation.ownerViewId == viewId

def removeAttachment (attachmentId : Nat) : SessionRecord :=
  match record.attachments.get? attachmentId with
  | none => record
  | some removed =>
    let without := { record with
      attachments := record.attachments.erase attachmentId
      attachmentRevision := saturatingSucc record.attachmentRevision }
    if record.owned attachmentId removed.viewId then
      without.failLoginAutomationRecord .attachmentUnavailable
    else without

structure AttachRequest where
  expectedGeneration : Nat
  expectedStateRevision : Nat
  attachAttemptId : Nat
  viewId : Nat

def attach (request : AttachRequest) : SessionRecord :=
  if turn.replayed || record.generation != request.expectedGeneration ||
      record.stateRevision != request.expectedStateRevision ||
      record.attachments.toList.any (·.2.attachAttemptId == request.attachAttemptId) then record
  else
    let replaced := record.attachments.toList.find? (·.2.viewId == request.viewId)
    let vacant := replaced.elim record fun old => record.removeAttachment old.1
    { vacant with
      attachments := vacant.attachments.insert (turn.drawn 0) {
        viewId := request.viewId, attachAttemptId := request.attachAttemptId
        generation := record.generation, channelId := record.channelId }
      attachmentRevision := saturatingSucc vacant.attachmentRevision }

inductive SshSessionDetachIntent
  | userClose
  | rendererUnavailable
deriving DecidableEq

inductive SshSessionLastDetachAction
  | keepAttached
  | disconnectAndDetach
deriving DecidableEq

structure DetachConfirmation where
  action : SshSessionLastDetachAction
  expectedStateRevision : Nat
  expectedAttachmentRevision : Nat

structure DetachRequest where
  expectedGeneration : Nat
  expectedStateRevision : Nat
  attachmentId : Nat
  viewId : Nat
  intent : SshSessionDetachIntent
  confirmation : Option DetachConfirmation

def detach (request : DetachRequest) : SessionRecord :=
  if turn.replayed ||
      !record.validateAttachment request.expectedGeneration request.attachmentId request.viewId ||
      record.stateRevision != request.expectedStateRevision ||
      request.confirmation.any (fun confirmation =>
        confirmation.expectedStateRevision != record.stateRevision ||
          confirmation.expectedAttachmentRevision != record.attachmentRevision) then record
  else if request.intent = .rendererUnavailable then
    if request.confirmation.isSome then record else record.removeAttachment request.attachmentId
  else match request.confirmation with
    | none =>
      if record.attachments.size = 1 ∧ record.state ≠ .closed ∧ record.state ≠ .failed then record
      else record.removeAttachment request.attachmentId
    | some confirmation =>
      if confirmation.action = .keepAttached then record
      else if record.shell then
        if turn.stopAccepted then record.transitionRecord .disconnecting none none else record
      else
        record.transitionRecord .closed (some .lastAttachmentConfirmed) none
          |>.removeAttachment request.attachmentId

def reapStaleAttachments (stale : List Nat) : SessionRecord :=
  stale.foldl removeAttachment record

def transition (state : SshSessionState) (closeReason : Option SshSessionCloseReason)
    (failureReason : Option Nat) : SessionRecord :=
  (if state = .automatingLogin then record else record.clearLoginAutomation)
    |>.transitionRecord state closeReason failureReason

/-- A disconnect on request or at the application's exit. -/
def stop (closeReason : SshSessionCloseReason) : SessionRecord :=
  let cleared := record.clearLoginAutomation
  if !record.shell then cleared.transition .closed (some closeReason) none
  else if turn.stopAccepted then cleared.transitionRecord .disconnecting none none
  else cleared

structure FenceRequest where
  expectedGeneration : Nat
  expectedStateRevision : Nat

def disconnect (request : FenceRequest) : SessionRecord :=
  if turn.replayed || record.generation != request.expectedGeneration ||
      record.stateRevision != request.expectedStateRevision ||
      record.state == .closed || record.state == .failed then record
  else record.stop turn .userRequested

structure ReconnectRequest extends FenceRequest where
  attachmentId : Nat
  viewId : Nat

def reconnect (request : ReconnectRequest) : SessionRecord :=
  if !record.validateAttachment request.expectedGeneration request.attachmentId request.viewId ||
      record.stateRevision != request.expectedStateRevision ||
      !(record.state == .closed || record.state == .failed) ||
      request.expectedGeneration == u64Max then record
  else
    let generation := request.expectedGeneration + 1
    let rotated := record.attachments.toList.zipIdx.map fun (entry, i) =>
      (turn.drawn (2 * i), { entry.2 with
        attachAttemptId := turn.drawn (2 * i + 1), generation, channelId := none })
    { record.clearLoginAutomation with
      generation, shell := false, channelId := none
      attachmentRevision := saturatingSucc record.attachmentRevision
      attachments := BTreeMap.ofList rotated }.transitionRecord .resolving none none

structure ResolvedLoginAutomation where
  revision : Nat
  first : LoginAutomationStepInput
  later : List LoginAutomationStepInput

def activate (plan : ResolvedLoginAutomation) (attachmentId viewId : Nat) : SessionRecord :=
  let steps := plan.first :: plan.later
  let totalDeadlineUnixMs := turn.unixTimeMs + 300000
  let totalDeadline := turn.now 0 + 300000
  let progress := loginAutomationProgress turn plan.revision steps plan.first 0 turn.unixTimeMs
    totalDeadlineUnixMs
  { record with activeLoginAutomation := some {
      policyRevision := plan.revision
      steps
      currentStepIndex := 0
      matcherBuffer := []
      timeoutScheduledFor := none
      totalDeadlineUnixMs
      totalDeadline
      stepDeadline := min (turn.now 0 + plan.first.timeoutSeconds * 1000) totalDeadline
      ownerAttachmentId := attachmentId
      ownerViewId := viewId
      writeInFlight := none
      pendingTakeover := none
      progress } }.emitProgress (some progress)

def shellReady (generation : Nat) (loginAutomation : Option ResolvedLoginAutomation)
    (attachmentId viewId : Nat) : SessionRecord :=
  if record.generation != generation || record.state != .openingChannel then record
  else
    let channelId := some (turn.drawn 0)
    let opened := { record with
      shell := true, channelId
      attachmentRevision := saturatingSucc record.attachmentRevision
      attachments := record.attachments.mapValues
        fun attachment : SshSessionAttachment => { attachment with channelId } }
    match loginAutomation with
    | none => opened.transitionRecord .running none none
    | some plan =>
      opened.transitionRecord .automatingLogin none none
        |>.activate turn plan attachmentId viewId
        |>.driveLoginAutomation turn generation 1

end SessionRecord

inductive Message
  | shellOutput (generation : Nat) (bytes : List UInt8)
  | loginAutomationWriteCompleted (generation stateRevision stepIndex : Nat) (succeeded : Bool)
  | loginAutomationStepTimeout (generation stateRevision stepIndex : Nat)
  | loginAutomationTakeover (request : SshLoginAutomationTakeoverRequest)
  | attach (request : SessionRecord.AttachRequest)
  | detach (request : SessionRecord.DetachRequest)
  | reapStaleAttachments (stale : List Nat)
  | reconnect (request : SessionRecord.ReconnectRequest)
  | disconnect (request : SessionRecord.FenceRequest)
  | beginShutdown
  | transition (state : SshSessionState) (closeReason : Option SshSessionCloseReason)
    (failureReason : Option Nat)
  | shellReady (generation : Nat) (loginAutomation : Option SessionRecord.ResolvedLoginAutomation)
    (attachmentId viewId : Nat)

def SessionRecord.handle (record : SessionRecord) (turn : Turn) : Message → SessionRecord
  | .shellOutput generation bytes => record.shellOutput turn generation bytes
  | .loginAutomationWriteCompleted generation stateRevision stepIndex succeeded =>
    record.loginAutomationWriteCompleted turn generation stateRevision stepIndex succeeded
  | .loginAutomationStepTimeout generation stateRevision stepIndex =>
    record.loginAutomationStepTimeout turn generation stateRevision stepIndex
  | .loginAutomationTakeover request => record.loginAutomationTakeover turn request
  | .attach request => record.attach turn request
  | .detach request => record.detach turn request
  | .reapStaleAttachments stale => record.reapStaleAttachments stale
  | .reconnect request => record.reconnect turn request
  | .disconnect request => record.disconnect turn request
  | .beginShutdown => record.stop turn .applicationExit
  | .transition state closeReason failureReason =>
    record.transition state closeReason failureReason
  | .shellReady generation loginAutomation attachmentId viewId =>
    record.shellReady turn generation loginAutomation attachmentId viewId

def SessionRecord.run (record : SessionRecord) (log : List (Turn × Message)) : SessionRecord :=
  log.foldl (fun record entry => record.handle entry.1 entry.2) record

end NoriShell.Ssh.Login

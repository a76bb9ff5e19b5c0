import NoriShell.Collections.BTreeMap
import NoriShell.Collections.Text
import NoriShell.Collections.Widths
import NoriShell.Sftp.RemotePath

/-! The transfers of an SFTP session.  Each operation returns its result beside the record it
leaves, for a refusal may come after a change. -/

namespace NoriShell.Sftp

open Collections

abbrev Outcome (α : Type) : Type := Except SftpRuntimeError Unit × α

def maxLocalBoundaryTokenBytes : Nat := 512

def maxLabelBytes : Nat := 4096

/-- The bytes before the last slash, of an absolute path. -/
def RemotePath.parent (path : RemotePath) : List UInt8 :=
  let split := (path.bytes.reverse.dropWhile (· ≠ slash)).tail.reverse
  if split.isEmpty then [slash] else split

inductive TransferDirection
  | upload
  | download
deriving DecidableEq

inductive ConflictPolicy
  | failIfExists
  | replaceSafely
deriving DecidableEq

inductive TransferEndpoint
  | localBoundaryToken (token : String)
  | remote (path : RemotePath)
deriving DecidableEq

def TransferEndpoint.isValid : TransferEndpoint → Bool
  | localBoundaryToken token => !(Text.trim token.toList).isEmpty &&
    token.utf8ByteSize ≤ maxLocalBoundaryTokenBytes && !token.toList.contains '\x00'
  | remote _ => true

inductive TemporaryTarget
  | localBoundaryToken (token : String)
  | remote (path : RemotePath)
deriving DecidableEq

def TemporaryTarget.isValidFor : TemporaryTarget → TransferEndpoint → Bool
  | remote temp, .remote target => temp ≠ target && temp.parent == target.parent
  | localBoundaryToken temp, .localBoundaryToken target => !(Text.trim temp.toList).isEmpty &&
    temp.utf8ByteSize ≤ maxLocalBoundaryTokenBytes && temp ≠ target
  | _, _ => false

inductive TransferState
  | queued
  | preparing
  | transferring
  | verifying
  | committing
  | completed
  | pausedByDisconnect
  | cancelling
  | cancelled
  | failed
deriving DecidableEq

inductive TransferFailureCode
  | targetExists
  | unsafeReplaceUnsupported
  | commitOutcomeUncertain
  | permissionDenied
  | transportLost
  | lengthMismatch
  | cleanupIncomplete
  | unsupportedPathEncoding
  | protocol
deriving DecidableEq

inductive SftpTransferCommitOutcome
  | notCommitted
  | committed
  | uncertain
deriving DecidableEq

inductive CleanupOutcome
  | cleaned
  | residual (opaqueLocation : String)

/-- The text that is kept of a residual: a location, or that the outcome is unknown for a target. -/
inductive CleanupResidual
  | located (opaqueLocation : String)
  | unknownFor (target : TemporaryTarget)

structure ResumeEvidence where
  temporaryTarget : TemporaryTarget
  verifiedLength : Nat
  prefixChecksumVerified : Bool

structure CommitFacts where
  finalLength : Nat
  atomicNoReplace : Bool
  atomicReplace : Bool

structure TransferRecord where
  generation : Nat
  target : TransferEndpoint
  expectedBytes : Nat
  transferredBytes : Nat
  conflictPolicy : ConflictPolicy
  state : TransferState
  stateRevision : Nat
  commitOutcome : SftpTransferCommitOutcome
  temporaryTarget : Option TemporaryTarget
  targetExisted : Bool
  safeCommitSupported : Bool
  failureCode : Option TransferFailureCode
  cleanupResidual : Option CleanupResidual
  /-- The revisions, both included, that progress alone has produced. -/
  progressWindow : Option (Nat × Nat)
  publishCancellable : Bool

def revisionWithinProgress (expected current : Nat) (window : Option (Nat × Nat)) : Bool :=
  expected == current ||
    window.any fun (first, last) => last == current && first ≤ expected && expected ≤ last

def extendProgressWindow (window : Option (Nat × Nat)) (before after : Nat) : Option (Nat × Nat) :=
  match window with
  | some (first, last) => if last = before then some (first, after) else some (before, after)
  | none => some (before, after)

def isBoundedLabel (value : String) : Bool :=
  value.utf8ByteSize ≤ maxLabelBytes && !value.toList.contains '\x00'

namespace TransferRecord

variable (record : TransferRecord)

def acceptsRevision (expected : Nat) : Bool :=
  revisionWithinProgress expected record.stateRevision record.progressWindow

def transition (state : TransferState) (failureCode : Option TransferFailureCode) :
    TransferRecord :=
  { record with state, failureCode, stateRevision := saturatingSucc record.stateRevision }

def ended : Bool :=
  record.state = .completed || record.state = .cancelled || record.state = .failed

def leaving (label : String) (result : Except SftpRuntimeError Unit) : Outcome TransferRecord :=
  if isBoundedLabel label then
    (result, { record with cleanupResidual := some (.located label) }.transition .failed
      (some .cleanupIncomplete))
  else (.error .invalidInput, record)

def cleaned : TransferRecord :=
  { record with temporaryTarget := none, cleanupResidual := none }

def failing (failure : TransferFailureCode) : TransferRecord :=
  record.transition (if failure = .transportLost then .pausedByDisconnect else .failed)
    (some failure)

/-- The outcome is set before anything else of the failure. -/
def withOutcomeOf (failure : TransferFailureCode) : TransferRecord :=
  { record with commitOutcome :=
      if failure = .commitOutcomeUncertain then .uncertain else .notCommitted }

def pause : TransferRecord :=
  match record.state with
  | .preparing | .transferring | .verifying =>
    record.transition .pausedByDisconnect (some .transportLost)
  | .committing =>
    { record with commitOutcome := .uncertain }.transition .failed (some .commitOutcomeUncertain)
  | .cancelling =>
    { record with cleanupResidual := record.temporaryTarget.map .unknownFor }.transition .failed
      (some .cleanupIncomplete)
  | _ => record

end TransferRecord

inductive TransferOperation
  | beginTransfer
  | rebindQueuedTransfer
  | transferPrepared (temporaryTarget : TemporaryTarget) (targetExisted safeCommitSupported : Bool)
  | recordProgress (transferredBytes : Nat)
  | markPublishCancellable
  | beginVerification (observedLength : Nat)
  | beginCommit
  | completeTransfer (facts : CommitFacts)
  | beginCancel
  | failTransfer (failure : TransferFailureCode)
  | failTransferAfterCleanup (failure : TransferFailureCode) (cleanup : CleanupOutcome)
  | finishCancel (cleanup : CleanupOutcome)
  | resolveCleanupResidual
  | resumeTransfer (evidence : ResumeEvidence)
  | resumeVerificationFailed (cleanup : CleanupOutcome)
  | restartTransfer (cleanup : CleanupOutcome)

namespace TransferOperation

/-- Whether the session has to be ready in the generation of the call. -/
def needsReady : TransferOperation → Bool
  | beginTransfer | rebindQueuedTransfer | resumeTransfer _ | restartTransfer _ => true
  | _ => false

/-- Whether the record has to be of the generation of the call. -/
def isFenced : TransferOperation → Bool
  | rebindQueuedTransfer | resumeTransfer _ | resumeVerificationFailed _ | restartTransfer _ =>
    false
  | _ => true

def perform (generation : Nat) (record : TransferRecord) :
    TransferOperation → Outcome TransferRecord
  | beginTransfer =>
    if record.state ≠ .queued then (.error .invalidState, record)
    else (.ok (), record.transition .preparing none)
  | rebindQueuedTransfer =>
    if record.state ≠ .queued then (.error .invalidState, record)
    else if record.generation = generation then (.ok (), record)
    else (.ok (), { record with
      generation, stateRevision := saturatingSucc record.stateRevision })
  | transferPrepared temporaryTarget targetExisted safeCommitSupported =>
    if record.state ≠ .preparing then (.error .invalidState, record)
    else if !temporaryTarget.isValidFor record.target then (.error .invalidInput, record)
    else
      let prepared := { record with
        temporaryTarget := some temporaryTarget, targetExisted, safeCommitSupported }
      if targetExisted && record.conflictPolicy = .failIfExists then
        (.error .conflict, prepared.transition .failed (some .targetExists))
      else if targetExisted && record.conflictPolicy = .replaceSafely && !safeCommitSupported then
        (.error .unsafeReplaceUnsupported,
          prepared.transition .failed (some .unsafeReplaceUnsupported))
      else (.ok (), prepared.transition .transferring none)
  | recordProgress transferredBytes =>
    if record.state ≠ .transferring || transferredBytes < record.transferredBytes ||
        transferredBytes > record.expectedBytes then (.error .progressRegression, record)
    else
      let stateRevision := saturatingSucc record.stateRevision
      (.ok (), { record with
        transferredBytes, stateRevision
        progressWindow := extendProgressWindow record.progressWindow record.stateRevision
          stateRevision })
  | markPublishCancellable =>
    if record.state ≠ .committing then (.error .invalidState, record)
    else (.ok (), { record with publishCancellable := true })
  | beginVerification observedLength =>
    if record.state ≠ .transferring then (.error .invalidState, record)
    else if record.transferredBytes ≠ record.expectedBytes ||
        observedLength ≠ record.expectedBytes then
      (.error .lengthMismatch, record.transition .failed (some .lengthMismatch))
    else (.ok (), record.transition .verifying none)
  | beginCommit =>
    if record.state ≠ .verifying || record.temporaryTarget.isNone then
      (.error .invalidState, record)
    else (.ok (), record.transition .committing none)
  | completeTransfer facts =>
    if record.state ≠ .committing then (.error .invalidState, record)
    else if facts.finalLength ≠ record.expectedBytes then
      (.error .lengthMismatch, record.transition .failed (some .lengthMismatch))
    else if !(if record.targetExisted then
        record.conflictPolicy = .replaceSafely && facts.atomicReplace
      else facts.atomicNoReplace) then
      (.error .unsafeReplaceUnsupported, record.transition .failed (some .unsafeReplaceUnsupported))
    else (.ok (), { record with temporaryTarget := none, commitOutcome := .committed }.transition
      .completed none)
  | beginCancel =>
    if (record.state = .committing && !record.publishCancellable) || record.state = .completed ||
        record.state = .cancelled || record.state = .cancelling then (.error .invalidState, record)
    else (.ok (), record.transition .cancelling none)
  | failTransfer failure =>
    if record.ended then (.error .invalidState, record)
    else (.ok (), (record.withOutcomeOf failure).failing failure)
  | failTransferAfterCleanup failure cleanup =>
    if record.ended then (.error .invalidState, record)
    else match cleanup with
      | .cleaned => (.ok (), (record.withOutcomeOf failure).cleaned.failing failure)
      | .residual label => (record.withOutcomeOf failure).leaving label (.ok ())
  | finishCancel cleanup =>
    if record.state ≠ .cancelling then (.error .invalidState, record)
    else match cleanup with
      | .cleaned => (.ok (), record.cleaned.transition .cancelled none)
      | .residual label => record.leaving label (.error .cleanupIncomplete)
  | resolveCleanupResidual =>
    if record.state ≠ .failed || record.failureCode ≠ some .cleanupIncomplete ||
        record.cleanupResidual.isNone || record.commitOutcome = .uncertain then
      (.error .invalidState, record)
    else (.ok (), record.cleaned.transition .cancelled none)
  | resumeTransfer evidence =>
    if record.state ≠ .pausedByDisconnect ||
        record.temporaryTarget ≠ some evidence.temporaryTarget ||
        !evidence.prefixChecksumVerified || evidence.verifiedLength ≠ record.transferredBytes ||
        evidence.verifiedLength > record.expectedBytes then (.error .resumeEvidenceMismatch, record)
    else (.ok (), { record with generation }.transition .transferring none)
  | resumeVerificationFailed cleanup =>
    if record.state ≠ .pausedByDisconnect then (.error .invalidState, record)
    else match cleanup with
      | .cleaned => (.ok (), record.cleaned.transition .failed (some .lengthMismatch))
      | .residual label => record.leaving label (.ok ())
  | restartTransfer cleanup =>
    if !(record.state = .failed || record.state = .pausedByDisconnect) ||
        record.commitOutcome = .uncertain then (.error .invalidState, record)
    else match cleanup with
      | .residual label => record.leaving label (.error .cleanupIncomplete)
      | .cleaned => (.ok (), { record.cleaned with
          generation, transferredBytes := 0, targetExisted := false, safeCommitSupported := false
          commitOutcome := .notCommitted }.transition .queued none)

end TransferOperation

inductive SftpSessionState
  | idle
  | connecting
  | verifyingHostKey
  | authenticating
  | needsAuthentication
  | openingSubsystem
  | ready
  | disconnecting
  | closed
  | failed
deriving DecidableEq

structure SftpSessionSummary where
  generation : Option Nat
  state : SftpSessionState
  subsystem : Bool

structure SftpActor where
  summary : SftpSessionSummary
  transfers : BTreeMap Nat TransferRecord

/-- An operation of the actor; `session` stands for those that do not touch a transfer. -/
inductive ActorOperation
  | enqueueTransfer (transferId generation : Nat) (direction : TransferDirection)
    (source target : TransferEndpoint) (expectedBytes : Nat) (conflictPolicy : ConflictPolicy)
  | transfer (transferId generation : Nat) (operation : TransferOperation)
  | disconnect (generation : Nat)
  | transportLost (generation : Nat)
  | connectionFailed (generation : Nat)
  | session (summary : SftpSessionSummary)

namespace SftpActor

variable (actor : SftpActor)

def requireGeneration (generation : Nat) : Except SftpRuntimeError Unit :=
  reject (actor.summary.generation ≠ some generation) .staleGeneration

def requireReady (generation : Nat) : Except SftpRuntimeError Unit := do
  actor.requireGeneration generation
  reject (actor.summary.state ≠ .ready ∨ actor.summary.subsystem = false) .invalidState

def checked (check : Except SftpRuntimeError Unit) (change : Outcome SftpActor) :
    Outcome SftpActor :=
  match check with
  | .ok () => change
  | .error e => (.error e, actor)

def endpointsFit : TransferDirection → TransferEndpoint → TransferEndpoint → Bool
  | .upload, .localBoundaryToken _, .remote _ => true
  | .download, .remote _, .localBoundaryToken _ => true
  | _, _, _ => false

def updateTransfer (transferId generation : Nat) (operation : TransferOperation) :
    Outcome SftpActor :=
  match actor.transfers.get? transferId with
  | none => (.error .invalidInput, actor)
  | some record =>
    if operation.isFenced && record.generation ≠ generation then (.error .staleGeneration, actor)
    else
      let (result, updated) := operation.perform generation record
      (result, { actor with transfers := actor.transfers.insert transferId updated })

def leave (state : SftpSessionState) (subsystem : Bool) : Outcome SftpActor :=
  (.ok (), {
    summary := { actor.summary with state, subsystem }
    transfers := actor.transfers.mapValues TransferRecord.pause })

def perform : ActorOperation → Outcome SftpActor
  | .enqueueTransfer transferId generation direction source target expectedBytes conflictPolicy =>
    actor.checked (do
      actor.requireReady generation
      reject (source.isValid = false) .invalidInput
      reject (target.isValid = false) .invalidInput
      reject (actor.transfers.contains transferId = true ∨
        endpointsFit direction source target = false) .invalidInput)
      (.ok (), { actor with transfers := actor.transfers.insert transferId {
        generation, target, expectedBytes, conflictPolicy
        transferredBytes := 0
        state := .queued
        stateRevision := 1
        commitOutcome := .notCommitted
        temporaryTarget := none
        targetExisted := false
        safeCommitSupported := false
        failureCode := none
        cleanupResidual := none
        progressWindow := none
        publishCancellable := false } })
  | .transfer transferId generation operation =>
    actor.checked (if operation.needsReady then actor.requireReady generation else .ok ())
      (actor.updateTransfer transferId generation operation)
  | .disconnect generation =>
    actor.checked (actor.requireGeneration generation)
      (actor.leave .disconnecting actor.summary.subsystem)
  | .transportLost generation =>
    actor.checked (actor.requireGeneration generation) (actor.leave .failed false)
  | .connectionFailed generation =>
    actor.checked (do
      actor.requireGeneration generation
      reject (actor.summary.state ∉ [.connecting, .verifyingHostKey, .authenticating,
        .needsAuthentication, .openingSubsystem]) .invalidState)
      (actor.leave .failed false)
  | .session summary => (.ok (), { actor with summary })

def run (operations : List ActorOperation) : SftpActor :=
  operations.foldl (fun actor operation => (actor.perform operation).2) actor

def transferAfter (summary : SftpSessionSummary) (operations : List ActorOperation)
    (transferId : Nat) : Option TransferRecord :=
  ((⟨summary, .empty⟩ : SftpActor).run operations).transfers.get? transferId

end SftpActor

end NoriShell.Sftp

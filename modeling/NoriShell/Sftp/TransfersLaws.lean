import NoriShell.Justified
import NoriShell.Sftp.Transfers

namespace NoriShell.Sftp

open Collections

namespace TransferRecord

def lifecycle (record : TransferRecord) : TransferState × Option TransferFailureCode × Nat ×
    Option TemporaryTarget × SftpTransferCommitOutcome :=
  (record.state, record.failureCode, record.generation, record.temporaryTarget,
    record.commitOutcome)

/-- What one operation does to a record; a slip changes the lifecycle under one revision. -/
inductive Moves (before after : TransferRecord) (progress slip : Prop) : Prop
  | still (revision : after.stateRevision = before.stateRevision)
    (window : after.progressWindow = before.progressWindow)
    (lifecycle : after.lifecycle = before.lifecycle ↔ ¬ slip)
  | raised (revision : after.stateRevision = saturatingSucc before.stateRevision)
    (window : after.progressWindow = before.progressWindow) (other : ¬ progress) (clean : ¬ slip)
  | progressed (revision : after.stateRevision = saturatingSucc before.stateRevision)
    (window : after.progressWindow =
      extendProgressWindow before.progressWindow before.stateRevision after.stateRevision)
    (lifecycle : after.lifecycle = before.lifecycle) (own : progress) (clean : ¬ slip)

variable {before after record : TransferRecord} {progress slip : Prop}

theorem Moves.refl (record : TransferRecord) (clean : ¬ slip) : Moves record record progress slip :=
  .still rfl rfl (iff_of_true rfl clean)

theorem moves_transition {changed : TransferRecord} (state : TransferState)
    (failureCode : Option TransferFailureCode) (other : ¬ progress) (clean : ¬ slip)
    (revision : changed.stateRevision = record.stateRevision)
    (window : changed.progressWindow = record.progressWindow) :
    Moves record (changed.transition state failureCode) progress slip :=
  .raised (congrArg saturatingSucc revision) window other clean

theorem moves_leaving (label : String) (result : Except SftpRuntimeError Unit)
    (other : ¬ progress) (clean : ¬ slip) :
    Moves record (record.leaving label result).2 progress slip := by
  unfold leaving
  split
  · exact moves_transition _ _ other clean rfl rfl
  · exact .refl record clean

theorem moves_pause (record : TransferRecord) (other : ¬ progress) (clean : ¬ slip) :
    Moves record record.pause progress slip := by
  unfold pause
  split
  case h_6 => exact .refl record clean
  all_goals exact moves_transition _ _ other clean rfl rfl

end TransferRecord

namespace TransferOperation

open TransferRecord

def IsProgress : TransferOperation → Prop
  | recordProgress _ => True
  | _ => False

/-- A failure whose label is refused after the commit outcome was changed. -/
def Slips (record : TransferRecord) : TransferOperation → Prop
  | failTransferAfterCleanup failure (.residual label) => record.ended = false ∧
    isBoundedLabel label = false ∧
    (record.withOutcomeOf failure).commitOutcome ≠ record.commitOutcome
  | _ => False

theorem Slips.fenced {record : TransferRecord} {operation : TransferOperation}
    (slips : operation.Slips record) : operation.isFenced = true ∧ operation.needsReady = false := by
  cases operation with
  | failTransferAfterCleanup => exact ⟨rfl, rfl⟩
  | _ => exact slips.elim

theorem moves_failAfterCleanup (generation : Nat) (record : TransferRecord)
    (failure : TransferFailureCode) (cleanup : CleanupOutcome) :
    Moves record ((failTransferAfterCleanup failure cleanup).perform generation record).2 False
      ((failTransferAfterCleanup failure cleanup).Slips record) := by
  simp only [perform]
  split
  · next ended =>
    refine .refl record ?_
    cases cleanup with
    | cleaned => exact id
    | residual label => exact fun slips => absurd ended (by simp [slips.1])
  · next running =>
    cases cleanup with
    | cleaned => exact moves_transition _ _ id id rfl rfl
    | residual label =>
      by_cases bounded : isBoundedLabel label = true
      · simp only [leaving, bounded, if_true]
        exact moves_transition _ _ id (fun slips => absurd bounded (by simp [slips.2.1])) rfl rfl
      · refine .still (by simp [leaving, bounded, withOutcomeOf])
          (by simp [leaving, bounded, withOutcomeOf]) ?_
        simp [leaving, bounded, Slips, running, lifecycle, withOutcomeOf]

theorem moves_perform (generation : Nat) (record : TransferRecord) (operation : TransferOperation) :
    Moves record (operation.perform generation record).2 operation.IsProgress
      (operation.Slips record) := by
  cases operation with
  | failTransferAfterCleanup failure cleanup =>
    exact moves_failAfterCleanup generation record failure cleanup
  | recordProgress transferredBytes =>
    simp only [perform]
    split
    · exact .refl record id
    · exact .progressed rfl rfl rfl trivial id
  | rebindQueuedTransfer =>
    simp only [perform]
    split_ifs
    · exact .refl record id
    · exact .refl record id
    · exact .raised rfl rfl id id
  | markPublishCancellable =>
    simp only [perform]
    split
    · exact .refl record id
    · exact .still rfl rfl (iff_of_true rfl id)
  | finishCancel cleanup | resumeVerificationFailed cleanup | restartTransfer cleanup =>
    simp only [perform]
    split
    · exact .refl record id
    · cases cleanup with
      | cleaned => exact moves_transition _ _ id id rfl rfl
      | residual label => exact moves_leaving label _ id id
  | transferPrepared | beginVerification | completeTransfer | beginTransfer | beginCommit
  | beginCancel | failTransfer | resolveCleanupResidual | resumeTransfer =>
    simp only [perform]
    split_ifs
    all_goals first
      | exact .refl record id
      | exact moves_transition _ _ id id rfl rfl

end TransferOperation

def ActorOperation.IsProgress (transferId : Nat) : ActorOperation → Prop
  | .transfer id _ operation => id = transferId ∧ operation.IsProgress
  | _ => False

def ActorOperation.Slips (actor : SftpActor) (transferId : Nat) : ActorOperation → Prop
  | .transfer id generation operation => id = transferId ∧
    ∃ record, actor.transfers.get? id = some record ∧ record.generation = generation ∧
      operation.Slips record
  | _ => False

/-- The record of a transfer says nothing that contradicts its state. -/
@[mk_iff]
structure TransferRecord.Consistent (record : TransferRecord) : Prop where
  bounded : record.transferredBytes ≤ record.expectedBytes
  whole : record.state = .verifying ∨ record.state = .committing ∨ record.state = .completed →
    record.transferredBytes = record.expectedBytes
  staged : record.state = .transferring ∨ record.state = .verifying ∨ record.state = .committing →
    record.temporaryTarget.isSome
  placed : ∀ target ∈ record.temporaryTarget, target.isValidFor record.target
  committed : record.commitOutcome = .committed ↔ record.state = .completed
  reported : record.failureCode.isSome ↔
    record.state = .failed ∨ record.state = .pausedByDisconnect

namespace TransferRecord

/-- What an operation of the actor makes of the record of a transfer that it knows. -/
inductive Becomes (record : TransferRecord) : TransferRecord → Prop
  | same : Becomes record record
  | paused : Becomes record record.pause
  | performed (generation : Nat) (operation : TransferOperation) :
    Becomes record (operation.perform generation record).2

variable {record after : TransferRecord}

theorem Consistent.becomes (h : record.Consistent) (becomes : record.Becomes after) :
    after.Consistent := by
  rw [consistent_iff] at h ⊢
  cases becomes with
  | same => exact h
  | paused =>
    unfold pause
    split <;> grind [transition]
  | performed generation operation =>
    cases operation <;>
    · simp only [TransferOperation.perform, leaving, cleaned, failing, withOutcomeOf]
      repeat' split
      all_goals grind [transition, ended]

theorem Becomes.final (becomes : record.Becomes after)
    (final : record.state = .completed ∨ record.state = .cancelled) : after = record := by
  cases becomes with
  | same => rfl
  | paused => rcases final with final | final <;> simp [pause, final]
  | performed generation operation =>
    rcases final with final | final <;> cases operation <;>
      simp [TransferOperation.perform, final, ended]

end TransferRecord

namespace SftpActor

open TransferRecord

variable {actor : SftpActor} {transferId : Nat} {record : TransferRecord}

section

variable (found : actor.transfers.get? transferId = some record)

include found

theorem moves_checked {check : Except SftpRuntimeError Unit} {change : Outcome SftpActor}
    {progress slip : Prop}
    (passes : check = .ok () → ∃ after, change.2.transfers.get? transferId = some after ∧
      Moves record after progress slip)
    (clean : check ≠ .ok () → ¬ slip) :
    ∃ after, (actor.checked check change).2.transfers.get? transferId = some after ∧
      Moves record after progress slip := by
  cases check with
  | ok => exact passes rfl
  | error e => exact ⟨record, found, .refl record (clean (by simp))⟩

theorem moves_updateTransfer (id generation : Nat) (operation : TransferOperation) :
    ∃ after, (actor.updateTransfer id generation operation).2.transfers.get? transferId =
        some after ∧
      Moves record after ((ActorOperation.transfer id generation operation).IsProgress transferId)
        ((ActorOperation.transfer id generation operation).Slips actor transferId) := by
  by_cases same : id = transferId
  · subst same
    simp only [updateTransfer, found]
    split
    · next fenced =>
      refine ⟨record, found, .refl record fun slips => ?_⟩
      obtain ⟨-, _, got, current, -⟩ := slips
      obtain rfl := Option.some.inj (found.symm.trans got)
      simp [current] at fenced
    · next passed =>
      refine ⟨_, (BTreeMap.get?_insert ..).trans (if_pos rfl), ?_⟩
      have own : (ActorOperation.transfer id generation operation).IsProgress id =
          operation.IsProgress := by simp [ActorOperation.IsProgress]
      have slips : (ActorOperation.transfer id generation operation).Slips actor id =
          operation.Slips record := by
        refine propext ⟨?_, fun slip => ⟨rfl, record, found, ?_, slip⟩⟩
        · rintro ⟨-, _, got, -, slip⟩
          obtain rfl := Option.some.inj (found.symm.trans got)
          exact slip
        · simpa [slip.fenced.1] using passed
      rw [own, slips]
      exact operation.moves_perform generation record
  · refine ⟨record, ?_, .refl record fun slips => same slips.1⟩
    simp only [updateTransfer]
    split
    · exact found
    · split
      · exact found
      · exact (BTreeMap.get?_insert ..).trans ((if_neg (Ne.symm same)).trans found)

theorem moves_perform (operation : ActorOperation) :
    ∃ after, (actor.perform operation).2.transfers.get? transferId = some after ∧
      Moves record after (operation.IsProgress transferId) (operation.Slips actor transferId) := by
  have leaves (state : SftpSessionState) (subsystem : Bool) :
      ∃ after, (actor.leave state subsystem).2.transfers.get? transferId = some after ∧
        Moves record after False False :=
    ⟨record.pause, by simp [leave, found], moves_pause record id id⟩
  cases operation with
  | enqueueTransfer id =>
    refine moves_checked found (fun passes => ⟨record, ?_, .refl record not_false⟩) fun _ =>
      not_false
    simp only [Check.bind_unit_eq_ok, Check.reject_eq_ok, not_or] at passes
    have other : transferId ≠ id := by
      rintro rfl
      exact passes.2.2.2.1 (by simp [BTreeMap.contains, found])
    exact (BTreeMap.get?_insert ..).trans ((if_neg other).trans found)
  | transfer id generation operation =>
    refine moves_checked found (fun _ => moves_updateTransfer found id generation operation) ?_
    rintro refused ⟨-, _, -, -, slip⟩
    exact refused (by simp [slip.fenced.2])
  | disconnect generation | transportLost generation | connectionFailed generation =>
    exact moves_checked found (fun _ => leaves _ _) fun _ => id
  | session summary => exact ⟨record, found, .refl record id⟩

end

theorem becomes_of_perform {operation : ActorOperation}
    (found : (actor.perform operation).2.transfers.get? transferId = some record) :
    actor.transfers.get? transferId = none ∧ record.Consistent ∨
      ∃ old, actor.transfers.get? transferId = some old ∧ old.Becomes record := by
  have still (found : actor.transfers.get? transferId = some record) :
      ∃ old, actor.transfers.get? transferId = some old ∧ old.Becomes record :=
    ⟨record, found, .same⟩
  have leaves {check : Except SftpRuntimeError Unit} {state : SftpSessionState} {subsystem : Bool}
      (found : (actor.checked check (actor.leave state subsystem)).2.transfers.get? transferId =
        some record) :
      ∃ old, actor.transfers.get? transferId = some old ∧ old.Becomes record := by
    cases check with
    | error e => exact still found
    | ok =>
      simp only [checked, leave, BTreeMap.get?_mapValues, Option.map_eq_some_iff] at found
      obtain ⟨old, there, rfl⟩ := found
      exact ⟨old, there, .paused⟩
  cases operation with
  | enqueueTransfer id =>
    simp only [perform, checked] at found
    split at found
    · next passes =>
      simp only [Check.bind_unit_eq_ok, Check.reject_eq_ok, not_or, BTreeMap.contains,
        Option.isSome_iff_ne_none, ne_eq, not_not] at passes
      rw [BTreeMap.get?_insert] at found
      split at found
      · next same =>
        cases found
        exact .inl ⟨same ▸ passes.2.2.2.1, by constructor <;> simp⟩
      · exact .inr (still found)
    · exact .inr (still found)
  | transfer id generation operation =>
    refine .inr ?_
    simp only [perform, checked, updateTransfer] at found
    split at found
    · split at found
      · exact still found
      · next there =>
        split at found
        · exact still found
        · rw [BTreeMap.get?_insert] at found
          split at found
          · next same =>
            cases found
            exact ⟨_, same ▸ there, .performed generation operation⟩
          · exact still found
    · exact still found
  | disconnect generation | transportLost generation | connectionFailed generation =>
    exact .inr (leaves found)
  | session summary => exact .inr (still found)

theorem first_of_absent (absent : actor.transfers.get? transferId = none)
    {operation : ActorOperation}
    (found : (actor.perform operation).2.transfers.get? transferId = some record) :
    record.stateRevision = 1 ∧ record.progressWindow = none := by
  have unchecked {check : Except SftpRuntimeError Unit} {change : Outcome SftpActor}
      (found : (actor.checked check change).2.transfers.get? transferId = some record) :
      change.2.transfers.get? transferId = some record := by
    cases check with
    | ok => exact found
    | error e => exact absurd (absent.symm.trans found) (by simp)
  cases operation with
  | enqueueTransfer id =>
    have inserted := unchecked found
    rw [BTreeMap.get?_insert] at inserted
    split at inserted
    · obtain rfl := Option.some.inj inserted
      exact ⟨rfl, rfl⟩
    · exact absurd (absent.symm.trans inserted) (by simp)
  | transfer id generation operation =>
    have updated := unchecked found
    unfold updateTransfer at updated
    split at updated
    · exact absurd (absent.symm.trans updated) (by simp)
    · next there =>
      split at updated
      · exact absurd (absent.symm.trans updated) (by simp)
      · rw [BTreeMap.get?_insert] at updated
        split at updated
        · next same => exact absurd (absent.symm.trans (same ▸ there)) (by simp)
        · exact absurd (absent.symm.trans updated) (by simp)
  | disconnect generation | transportLost generation | connectionFailed generation =>
    have left := unchecked found
    simp [leave, absent] at left
  | session summary => exact absurd (absent.symm.trans found) (by simp)

end SftpActor

namespace TransferRecord

variable {before after record : TransferRecord} {progress slip : Prop}

def floor (record : TransferRecord) : Nat :=
  match record.progressWindow with
  | some (first, last) => if last = record.stateRevision then first else record.stateRevision
  | none => record.stateRevision

structure Counted (record : TransferRecord) : Prop where
  positive : 1 ≤ record.floor
  le : record.floor ≤ record.stateRevision
  window : ∀ first last, record.progressWindow = some (first, last) → last ≤ record.stateRevision

theorem acceptsRevision_iff (counted : record.Counted) (r : Nat) :
    record.acceptsRevision r = true ↔ record.floor ≤ r ∧ r ≤ record.stateRevision := by
  have le := counted.le
  unfold floor at le ⊢
  unfold acceptsRevision revisionWithinProgress
  cases shape : record.progressWindow with
  | none =>
    rw [shape] at le
    simp
    omega
  | some window =>
    rw [shape] at le
    simp only [Option.any_some, Bool.or_eq_true, beq_iff_eq, Bool.and_eq_true, decide_eq_true_eq]
    by_cases last : window.2 = record.stateRevision
    · simp only [last, if_true, true_and] at le ⊢
      omega
    · simp only [last, if_false, false_and, or_false]
      omega

theorem Moves.floor (moves : Moves before after progress slip) (counted : before.Counted)
    (bounded : after.stateRevision < u64Max) :
    (after.stateRevision = before.stateRevision ∧ after.floor = before.floor ∧
      (after.lifecycle = before.lifecycle ↔ ¬ slip)) ∨
    (after.stateRevision = before.stateRevision + 1 ∧ after.floor = after.stateRevision ∧
      ¬ progress ∧ ¬ slip) ∨
    (after.stateRevision = before.stateRevision + 1 ∧ after.floor = before.floor ∧ progress ∧
      after.lifecycle = before.lifecycle ∧ ¬ slip) := by
  cases moves with
  | still revision window lifecycle =>
    exact .inl ⟨revision, by simp only [TransferRecord.floor, revision, window], lifecycle⟩
  | raised revision window other clean =>
    have next : after.stateRevision = before.stateRevision + 1 :=
      revision.trans (saturatingSucc_eq (revision ▸ bounded))
    refine .inr (.inl ⟨next, ?_, other, clean⟩)
    unfold TransferRecord.floor
    rw [window]
    cases shape : before.progressWindow with
    | none => rfl
    | some window =>
      have within := counted.window _ _ shape
      exact if_neg (by omega)
  | progressed revision window lifecycle own clean =>
    have next : after.stateRevision = before.stateRevision + 1 :=
      revision.trans (saturatingSucc_eq (revision ▸ bounded))
    refine .inr (.inr ⟨next, ?_, own, lifecycle, clean⟩)
    unfold TransferRecord.floor
    rw [window]
    unfold extendProgressWindow
    cases shape : before.progressWindow with
    | none => simp
    | some window =>
      dsimp only
      split_ifs <;> simp

theorem last_of_extend {window : Option (Nat × Nat)} {r r' first last : Nat}
    (h : extendProgressWindow window r r' = some (first, last)) : last = r' := by
  unfold extendProgressWindow at h
  split at h
  · split at h <;> simp_all
  · simp_all

theorem Moves.counted (moves : Moves before after progress slip) (counted : before.Counted)
    (bounded : after.stateRevision < u64Max) : after.Counted := by
  have positive := counted.positive
  have le := counted.le
  have floors := moves.floor counted bounded
  refine ⟨by omega, by omega, fun first last shape => ?_⟩
  cases moves with
  | still revision window | raised revision window =>
    have within := counted.window first last (window ▸ shape)
    omega
  | progressed revision window =>
    exact (last_of_extend (window ▸ shape)).le

theorem Moves.le (moves : Moves before after progress slip)
    (bounded : after.stateRevision < u64Max) : before.stateRevision ≤ after.stateRevision := by
  cases moves with
  | still revision => omega
  | raised revision | progressed revision =>
    have next := saturatingSucc_eq (revision ▸ bounded)
    omega

theorem counted_first (first : record.stateRevision = 1 ∧ record.progressWindow = none) :
    record.Counted := by
  refine ⟨?_, ?_, fun first' last shape => ?_⟩
  · simp [TransferRecord.floor, first.1, first.2]
  · simp [TransferRecord.floor, first.1, first.2]
  · simp [first.2] at shape

end TransferRecord

section

open SftpActor TransferRecord

variable {summary : SftpSessionSummary} {transferId : Nat} {operations : List ActorOperation}
  {operation : ActorOperation}

variable (summary transferId) in
def Raises (operations : List ActorOperation) (operation : ActorOperation) : Prop :=
  ∃ before after, transferAfter summary operations transferId = some before ∧
    transferAfter summary (operations ++ [operation]) transferId = some after ∧
    before.stateRevision < after.stateRevision

variable (summary transferId) in
def SlipsAfter (operations : List ActorOperation) (operation : ActorOperation) : Prop :=
  operation.Slips ((⟨summary, .empty⟩ : SftpActor).run operations) transferId

theorem transferAfter_concat {record : TransferRecord}
    (found : transferAfter summary operations transferId = some record)
    (operation : ActorOperation) :
    ∃ after, transferAfter summary (operations ++ [operation]) transferId = some after ∧
      Moves record after (operation.IsProgress transferId)
        (SlipsAfter summary transferId operations operation) := by
  unfold transferAfter run
  rw [List.foldl_append]
  exact moves_perform found operation

theorem transferAfter_counted {record : TransferRecord}
    (found : transferAfter summary operations transferId = some record)
    (bounded : record.stateRevision < u64Max) :
    record.Counted ∧ ∀ r, 1 ≤ r → r ≤ record.stateRevision → ∃ before after old,
      operations = before ++ after ∧ transferAfter summary before transferId = some old ∧
        old.stateRevision = r := by
  induction operations using List.reverseRecOn generalizing record with
  | nil => simp [transferAfter, run] at found
  | append_singleton operations operation ih =>
    cases earlier : transferAfter summary operations transferId with
    | none =>
      have there : ((run ⟨summary, .empty⟩ operations).perform operation).2.transfers.get?
          transferId = some record := by simpa [transferAfter, run] using found
      have first := first_of_absent earlier there
      refine ⟨counted_first first, fun r low high => ?_⟩
      exact ⟨operations ++ [operation], [], record, by simp, found, by omega⟩
    | some old =>
      obtain ⟨after, there, moves⟩ := transferAfter_concat earlier operation
      obtain rfl := Option.some.inj (found.symm.trans there)
      obtain ⟨counted, revisions⟩ := ih earlier ((moves.le bounded).trans_lt bounded)
      refine ⟨moves.counted counted bounded, fun r low high => ?_⟩
      have floors := moves.floor counted bounded
      by_cases inside : r ≤ old.stateRevision
      · obtain ⟨before, after, seen, shape, at_, same⟩ := revisions r low inside
        exact ⟨before, after ++ [operation], seen, by simp [shape], at_, same⟩
      · exact ⟨operations ++ [operation], [], record, by simp, found, by omega⟩

variable {old record : TransferRecord} {before after : List ActorOperation}

theorem transferAfter_append (earlier : transferAfter summary before transferId = some old)
    (after : List ActorOperation) :
    ∃ record, transferAfter summary (before ++ after) transferId = some record := by
  induction after using List.reverseRecOn with
  | nil => exact ⟨old, by rw [List.append_nil]; exact earlier⟩
  | append_singleton after operation ih =>
    obtain ⟨record, found⟩ := ih
    obtain ⟨next, there, -⟩ := transferAfter_concat found operation
    exact ⟨next, by rw [← List.append_assoc]; exact there⟩

theorem floor_le_iff (earlier : transferAfter summary before transferId = some old)
    (found : transferAfter summary (before ++ after) transferId = some record)
    (bounded : record.stateRevision < u64Max) :
    (record.floor ≤ old.stateRevision ↔ Justified (fun middle operation =>
      Raises summary transferId (before ++ middle) operation → operation.IsProgress transferId)
        after) ∧
    old.stateRevision ≤ record.stateRevision ∧
    (Justified (fun middle operation =>
        ¬ SlipsAfter summary transferId (before ++ middle) operation) after →
      record.floor ≤ old.stateRevision → record.lifecycle = old.lifecycle) := by
  induction after using List.reverseRecOn generalizing record with
  | nil =>
    rw [List.append_nil] at found
    obtain rfl := Option.some.inj (earlier.symm.trans found)
    have counted := (transferAfter_counted found bounded).1
    exact ⟨iff_of_true counted.le .nil, le_rfl, fun _ _ => rfl⟩
  | append_singleton after operation ih =>
    obtain ⟨last, there⟩ := transferAfter_append earlier after
    obtain ⟨next, here, moves⟩ := transferAfter_concat there operation
    rw [List.append_assoc] at here
    obtain rfl := Option.some.inj (found.symm.trans here)
    have below := moves.le bounded
    obtain ⟨progress, le, kept⟩ := ih there (below.trans_lt bounded)
    have counted := (transferAfter_counted there (below.trans_lt bounded)).1
    rw [Justified.concat_iff, Justified.concat_iff, ← progress]
    have raises : Raises summary transferId (before ++ after) operation ↔
        last.stateRevision < record.stateRevision := by
      refine ⟨fun ⟨_, _, atLast, atNext, lt⟩ => ?_, fun lt => ⟨last, record, there, ?_, lt⟩⟩
      · rw [List.append_assoc] at atNext
        obtain rfl := Option.some.inj (there.symm.trans atLast)
        obtain rfl := Option.some.inj (found.symm.trans atNext)
        exact lt
      · rw [List.append_assoc]
        exact found
    rw [raises]
    refine ⟨?_, le.trans below, ?_⟩
    · rcases moves.floor counted bounded with ⟨same, floor, -⟩ | ⟨next, floor, other, -⟩ |
        ⟨next, floor, own, -⟩
      · rw [floor, and_iff_left fun lt => absurd lt (by omega)]
      · exact iff_of_false (by omega) fun h => other (h.2 (by omega))
      · rw [floor, and_iff_left fun _ => own]
    · rintro ⟨clean, now⟩ accepted
      rcases moves.floor counted bounded with ⟨same, floor, still⟩ | ⟨next, floor, -⟩ |
        ⟨next, floor, -, still, -⟩
      · exact (still.2 now).trans (kept clean (floor ▸ accepted))
      · omega
      · exact still.trans (kept clean (floor ▸ accepted))

/-- A revision is accepted exactly if it is the current one, or an earlier one from which progress
alone has led here.  In a history without a slip the lifecycle is then the one of that revision;
and the next operation keeps that if and only if it is no slip. -/
theorem acceptsRevision_only_progress_iff
    (found : transferAfter summary operations transferId = some record)
    (bounded : record.stateRevision < u64Max) :
    (∀ r, record.acceptsRevision r = true ↔ r = record.stateRevision ∨
      ∃ before after old, operations = before ++ after ∧
        transferAfter summary before transferId = some old ∧ old.stateRevision = r ∧
        r < record.stateRevision ∧ Justified (fun middle operation =>
          Raises summary transferId (before ++ middle) operation →
            operation.IsProgress transferId) after) ∧
    (∀ before after old, operations = before ++ after →
      transferAfter summary before transferId = some old →
      Justified (fun middle operation =>
        ¬ SlipsAfter summary transferId (before ++ middle) operation) after →
      record.acceptsRevision old.stateRevision = true → record.lifecycle = old.lifecycle) ∧
    ∀ operation next, transferAfter summary (operations ++ [operation]) transferId = some next →
      next.stateRevision < u64Max →
      ((next.acceptsRevision record.stateRevision = true → next.lifecycle = record.lifecycle) ↔
        ¬ SlipsAfter summary transferId operations operation) := by
  obtain ⟨counted, revisions⟩ := transferAfter_counted found bounded
  have le := counted.le
  refine ⟨fun r => ?_, ?_, ?_⟩
  · rw [acceptsRevision_iff counted]
    constructor
    · rintro ⟨low, high⟩
      rcases high.eq_or_lt with same | lt
      · exact .inl same
      · obtain ⟨before, after, old, rfl, earlier, rfl⟩ :=
          revisions r (counted.positive.trans low) high
        exact .inr ⟨before, after, old, rfl, earlier, rfl, lt,
          (floor_le_iff earlier found bounded).1.1 low⟩
    · rintro (rfl | ⟨before, after, old, rfl, earlier, rfl, lt, only⟩)
      · exact ⟨le, le_rfl⟩
      · exact ⟨(floor_le_iff earlier found bounded).1.2 only, lt.le⟩
  · rintro before after old rfl earlier clean accepted
    exact (floor_le_iff earlier found bounded).2.2 clean
      ((acceptsRevision_iff counted _).1 accepted).1
  · intro operation next there next_bounded
    obtain ⟨after, here, moves⟩ := transferAfter_concat found operation
    obtain rfl := Option.some.inj (there.symm.trans here)
    rw [acceptsRevision_iff (moves.counted counted next_bounded)]
    rcases moves.floor counted next_bounded with ⟨same, floor, still⟩ | ⟨up, floor, -, clean⟩ |
      ⟨up, floor, -, still, clean⟩
    · rw [← still]
      exact ⟨fun h => h (by omega), fun h _ => h⟩
    · exact iff_of_true (fun h => absurd h (by omega)) clean
    · exact iff_of_true (fun _ => still) clean

def readySummary : SftpSessionSummary := ⟨some 1, .ready, true⟩

def uploadPath : RemotePath := ⟨[47, 97], by decide⟩
def uploadPart : RemotePath := ⟨[47, 98], by decide⟩

def uploading : List ActorOperation :=
  [.enqueueTransfer 7 1 .upload (.localBoundaryToken "t") (.remote uploadPath) 10 .failIfExists,
    .transfer 7 1 .beginTransfer,
    .transfer 7 1 (.transferPrepared (.remote uploadPart) false true),
    .transfer 7 1 (.recordProgress 4), .transfer 7 1 (.recordProgress 10)]

/-- The revision before the progress is still accepted after it. -/
theorem acceptsRevision_only_progress_iff_uploading :
    ∃ record, transferAfter readySummary uploading 7 = some record ∧
      record.acceptsRevision 3 = true ∧ record.stateRevision = 5 := by
  have found : transferAfter readySummary uploading 7 = some _ := rfl
  have earlier : transferAfter readySummary (uploading.take 3) 7 = some _ := rfl
  refine ⟨_, found, ((acceptsRevision_only_progress_iff found (by decide)).1 3).2 (.inr ?_), rfl⟩
  refine ⟨uploading.take 3, uploading.drop 3, _, rfl, earlier, rfl, by decide, ?_⟩
  exact Justified.cons_iff.2 ⟨fun _ => ⟨rfl, trivial⟩, Justified.cons_iff.2
    ⟨fun _ => ⟨rfl, trivial⟩, .nil⟩⟩

/-- A label with a zero byte is refused after the commit outcome became uncertain. -/
theorem outcome_changed_under_revision : ∃ before after,
      transferAfter readySummary uploading 7 = some before ∧
      transferAfter readySummary (uploading ++ [.transfer 7 1
        (.failTransferAfterCleanup .commitOutcomeUncertain (.residual "\x00"))]) 7 = some after ∧
      after.acceptsRevision before.stateRevision = true ∧
      before.commitOutcome = .notCommitted ∧ after.commitOutcome = .uncertain :=
  ⟨_, _, rfl, rfl, by decide, rfl, rfl⟩

theorem transferAfter_consistent
    (found : transferAfter summary operations transferId = some record) : record.Consistent := by
  induction operations using List.reverseRecOn generalizing record with
  | nil => simp [transferAfter, run] at found
  | append_singleton operations operation ih =>
    rw [transferAfter, run, List.foldl_concat] at found
    rcases becomes_of_perform found with ⟨-, fresh⟩ | ⟨old, there, becomes⟩
    · exact fresh
    · exact (ih there).becomes becomes

theorem transferAfter_final (found : transferAfter summary operations transferId = some record)
    (final : record.state = .completed ∨ record.state = .cancelled) (later : List ActorOperation) :
    transferAfter summary (operations ++ later) transferId = some record := by
  induction later using List.reverseRecOn with
  | nil => rwa [List.append_nil]
  | append_singleton later operation ih =>
    obtain ⟨after, there, -⟩ := transferAfter_concat ih operation
    rw [← List.append_assoc, there]
    rw [transferAfter, run, List.foldl_concat] at there
    rcases becomes_of_perform there with ⟨absent, -⟩ | ⟨old, earlier, becomes⟩
    · exact absurd (absent.symm.trans ih) (by simp)
    · obtain rfl := Option.some.inj (earlier.symm.trans ih)
      rw [becomes.final final]

/-- Whatever operations the actor has seen, the record of a transfer is consistent, and that of a
completed or cancelled one stays as it is. -/
theorem transfer_record_consistent
    (found : transferAfter summary operations transferId = some record) :
    record.Consistent ∧ (record.state = .completed ∨ record.state = .cancelled →
      ∀ later, transferAfter summary (operations ++ later) transferId = some record) :=
  ⟨transferAfter_consistent found, transferAfter_final found⟩

theorem transfer_record_consistent_cancelled :
    ∃ record, transferAfter readySummary (uploading ++ [.transfer 7 1 .beginCancel,
        .transfer 7 1 (.finishCancel .cleaned)]) 7 = some record ∧ record.state = .cancelled ∧
      ∀ later, transferAfter readySummary (uploading ++ [.transfer 7 1 .beginCancel,
        .transfer 7 1 (.finishCancel .cleaned)] ++ later) 7 = some record :=
  have found := rfl
  ⟨_, found, rfl, (transfer_record_consistent found).2 (.inr rfl)⟩

end

section

variable {q n : List UInt8} {target temporary : RemotePath} {id : String}

theorem ne_slash_of_free (free : slash ∉ n) :
    ∀ byte ∈ n.reverse, (!decide (byte = slash)) = true := by
  simpa using fun byte mem (same : byte = slash) => free (same ▸ mem)

theorem fileName_of_split (free : slash ∉ n) : fileName (q ++ slash :: n) = n := by
  simp [fileName, List.takeWhile_append_of_pos (ne_slash_of_free free)]

theorem RemotePath.parent_of_split (split : target.bytes = q ++ slash :: n) (free : slash ∉ n) :
    target.parent = if q = [] then [slash] else q := by
  simp [RemotePath.parent, split, List.dropWhile_append_of_pos (ne_slash_of_free free)]

theorem remoteTemporaryTarget_eq_ok (ok : remoteTemporaryTarget target id = .ok temporary) :
    ∃ q n, slash ∉ n ∧ target.bytes = q ++ slash :: n ∧
      temporary.bytes = (if q = [slash] then [] else q) ++
        slash :: dot :: n ++ utf8 ".norishell-" ++ utf8 id ++ utf8 ".part" := by
  obtain ⟨n, q, split, free⟩ := List.eq_append_cons_of_mem
    (List.mem_reverse.2 (List.mem_of_head? target.isRemotePath.absolute))
  rw [List.reverse_eq_iff, List.reverse_append, List.reverse_cons, List.append_assoc,
    List.singleton_append] at split
  rw [← List.mem_reverse] at free
  generalize q.reverse = q, n.reverse = n at split free
  have name : fileName target.bytes = n := split ▸ fileName_of_split free
  have before : beforeName target.bytes = q := by
    rw [beforeName, name, split, List.length_append, List.length_cons,
      show q.length + (n.length + 1) - n.length - 1 = q.length by omega, List.take_left]
  simp only [remoteTemporaryTarget, Check.bind_unit_eq_ok, before, name, RemotePath.parse] at ok
  refine ⟨q, n, free, split, ?_⟩
  replace ok := ok.2.2
  split_ifs at ok <;> first | contradiction | simp_all [← Except.ok.inj ok]

/-- The temporary target of a transfer lies beside its target, so that the actor accepts it, and
is that of no other transfer. -/
theorem temporary_target_own (free : slash ∉ utf8 id)
    (ok : remoteTemporaryTarget target id = .ok temporary) :
    (TemporaryTarget.remote temporary).isValidFor (.remote target) = true ∧
    ∀ target' id', (utf8 id').length = (utf8 id).length →
      remoteTemporaryTarget target' id' = .ok temporary → id' = id := by
  obtain ⟨q, n, plain, split, made⟩ := remoteTemporaryTarget_eq_ok ok
  refine ⟨?_, fun target' id' length ok' => ?_⟩
  · have fixed : slash ∉ utf8 ".norishell-" ++ utf8 ".part" := by decide
    have hidden : slash ∉ dot :: (n ++ utf8 ".norishell-" ++ utf8 id ++ utf8 ".part") := by
      simp_all [slash, dot]
    simp only [List.append_assoc, List.cons_append] at made hidden
    have parent := RemotePath.parent_of_split made hidden
    have name := congrArg List.length (fileName_of_split (q := q) plain)
    simp only [TemporaryTarget.isValidFor, Bool.and_eq_true, decide_eq_true_eq, beq_iff_eq, parent,
      RemotePath.parent_of_split split plain]
    refine ⟨?_, by split_ifs <;> simp_all⟩
    rintro rfl
    rw [← split, made, fileName_of_split hidden] at name
    simp at name
    omega
  · obtain ⟨q', n', -, -, made'⟩ := remoteTemporaryTarget_eq_ok ok'
    have same := List.append_inj_left' (made'.symm.trans made) rfl
    have same := List.append_inj_right' same length
    exact String.toByteArray_inj.1 (ByteArray.ext (Array.toList_inj.1 same))

theorem temporary_target_own_upload :
    ∃ temporary, remoteTemporaryTarget uploadPath "7" = .ok temporary ∧
      (TemporaryTarget.remote temporary).isValidFor (.remote uploadPath) = true :=
  have ok : remoteTemporaryTarget uploadPath "7" = .ok ⟨[47, 46, 97] ++ utf8 ".norishell-7.part",
      by decide +kernel⟩ := by decide +kernel
  ⟨_, ok, (temporary_target_own (by decide +kernel) ok).1⟩

end

end NoriShell.Sftp

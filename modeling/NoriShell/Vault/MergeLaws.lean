import NoriShell.Justified
import NoriShell.Vault.Histories

namespace NoriShell.Vault

open Collections Stateful

/-- A copy of an entry, possibly under another identifier. -/
def SameCommand (entry copy : CommandHistoryEntry) : Prop :=
  copy = { entry with entryId := copy.entryId }

structure HistoryMerge.Tracks (merge : HistoryMerge) : Prop where
  mem_ids : ∀ id, id ∈ merge.historyIds ↔ id ∈ merge.entries.map (·.entryId)
  nodup : (merge.entries.map (·.entryId)).Nodup

inductive HistoryMerge.Step (merge : HistoryMerge) (entry : CommandHistoryEntry) :
    HistoryMerge → Prop
  | skipped (old : entry ∈ merge.entries) : Step merge entry
      { merge with summary.skippedHistoryEntries := merge.summary.skippedHistoryEntries + 1 }
  | appended (copy : CommandHistoryEntry) (ids : List Uuid) (new : entry ∉ merge.entries)
      (same : SameCommand entry copy) (fresh : copy.entryId ∉ merge.entries.map (·.entryId)) :
      Step merge entry
      { entries := merge.entries ++ [copy]
        historyIds := merge.historyIds.insert copy.entryId
        ids
        summary := {
          importedSecrets := merge.summary.importedSecrets
          importedHistoryEntries := merge.summary.importedHistoryEntries + 1
          skippedHistoryEntries := merge.summary.skippedHistoryEntries
          renamedHistoryEntries :=
            merge.summary.renamedHistoryEntries + if copy = entry then 0 else 1 } }

section

variable {merge next final : HistoryMerge} {entry : CommandHistoryEntry}
  {target source : List CommandHistoryEntry}

theorem mergeHistoryEntry_cases (tracks : merge.Tracks)
    (merged : mergeHistoryEntry merge entry = some next) : merge.Step entry next := by
  unfold mergeHistoryEntry at merged
  split at merged
  · next existing found =>
    have member := List.mem_of_find?_eq_some found
    have sameId : existing.entryId = entry.entryId := by
      simpa using List.find?_some found
    split at merged
    · next same =>
      cases merged
      exact .skipped (same ▸ member)
    · next other =>
      simp only [Option.bind_eq_bind, Option.bind_eq_some_iff, Option.some.injEq] at merged
      obtain ⟨⟨replacement, ids⟩, drawn, rfl⟩ := merged
      have unused : replacement ∉ merge.entries.map (·.entryId) :=
        fun used => drawUnused_notMem drawn ((tracks.mem_ids _).2 used)
      have new : entry ∉ merge.entries := fun old =>
        other (List.inj_on_of_nodup_map tracks.nodup member old sameId)
      have differs : ({ entry with entryId := replacement } : CommandHistoryEntry) ≠ entry := by
        intro same
        have sameId : existing.entryId = replacement :=
          sameId.trans (congrArg CommandHistoryEntry.entryId same).symm
        exact unused (sameId ▸ List.mem_map_of_mem member)
      have step := HistoryMerge.Step.appended { entry with entryId := replacement } ids new rfl
        unused
      rwa [if_neg differs] at step
  · next missing =>
    cases merged
    have absent : entry.entryId ∉ merge.entries.map (·.entryId) := by
      intro used
      obtain ⟨existing, member, sameId⟩ := List.mem_map.1 used
      exact List.find?_eq_none.1 missing existing member (by simpa using sameId)
    have step := HistoryMerge.Step.appended entry merge.ids
      (fun old => absent (List.mem_map_of_mem old)) rfl absent
    rwa [if_pos rfl] at step

theorem HistoryMerge.Tracks.step (tracks : merge.Tracks) (step : merge.Step entry next) :
    next.Tracks := by
  cases step with
  | skipped old => exact ⟨tracks.mem_ids, tracks.nodup⟩
  | appended copy ids new same fresh =>
    constructor
    · intro id
      rw [BTreeSet.mem_insert, tracks.mem_ids, List.map_append, List.mem_append, or_comm]
      simp
    · rw [List.map_append]
      exact List.nodup_append.2 ⟨tracks.nodup, by simp, by simpa using fresh⟩

theorem mergeHistoryEntry_extends (merged : mergeHistoryEntry merge entry = some next) :
    merge.entries <+: next.entries := by
  unfold mergeHistoryEntry at merged
  split at merged
  · split at merged
    · cases merged
      exact List.prefix_refl _
    · simp only [Option.bind_eq_bind, Option.bind_eq_some_iff, Option.some.injEq] at merged
      obtain ⟨_, -, rfl⟩ := merged
      exact List.prefix_append _ _
  · cases merged
    exact List.prefix_append _ _

theorem mergeHistory_extends (merged : source.foldlM mergeHistoryEntry merge = some final) :
    merge.entries <+: final.entries := by
  induction source generalizing merge with
  | nil =>
    cases merged
    exact List.prefix_refl _
  | cons entry source ih =>
    rw [List.foldlM_cons, Option.bind_eq_bind, Option.bind_eq_some_iff] at merged
    obtain ⟨next, first, rest⟩ := merged
    exact (mergeHistoryEntry_extends first).trans (ih rest)

structure HistoryMerge.Takes (merge final : HistoryMerge)
    (source taken appended : List CommandHistoryEntry) : Prop where
  entries : final.entries = merge.entries ++ appended
  copies : List.Forall₂ SameCommand taken appended
  imported : final.summary.importedHistoryEntries =
    merge.summary.importedHistoryEntries + appended.length
  skipped : final.summary.skippedHistoryEntries + taken.length =
    merge.summary.skippedHistoryEntries + source.length
  renamed : final.summary.renamedHistoryEntries = merge.summary.renamedHistoryEntries +
    (taken.zip appended).countP fun pair => pair.2 ≠ pair.1

def NoneRedrawn (target : List CommandHistoryEntry) (merge : HistoryMerge)
    (source : List CommandHistoryEntry) : Prop :=
  Justified (fun before entry => ∀ reached,
    before.foldlM mergeHistoryEntry merge = some reached → entry ∈ reached.entries →
      entry ∈ target) source

theorem noneRedrawn_cons (first : mergeHistoryEntry merge entry = some next) :
    NoneRedrawn target merge (entry :: source) ↔
      (entry ∈ merge.entries → entry ∈ target) ∧ NoneRedrawn target next source := by
  rw [NoneRedrawn, Justified.cons_iff]
  simp only [List.foldlM_nil, List.foldlM_cons, first, Option.bind_eq_bind, Option.bind_some,
    NoneRedrawn]
  refine and_congr_left fun _ => ⟨fun h => h merge rfl, fun h reached same => ?_⟩
  cases same
  exact h

theorem mergeHistory_takes (tracks : merge.Tracks) (kept : target ⊆ merge.entries)
    (merged : source.foldlM mergeHistoryEntry merge = some final) :
    ∃ taken appended, merge.Takes final source taken appended ∧
      taken.Sublist (source.filter (· ∉ target)) ∧
      (taken = source.filter (· ∉ target) ↔ NoneRedrawn target merge source) := by
  induction source generalizing merge with
  | nil =>
    cases merged
    exact ⟨[], [], ⟨by simp, .nil, rfl, rfl, rfl⟩, List.Sublist.refl _, iff_of_true rfl .nil⟩
  | cons entry source ih =>
    rw [List.foldlM_cons, Option.bind_eq_bind, Option.bind_eq_some_iff] at merged
    obtain ⟨next, first, rest⟩ := merged
    rw [noneRedrawn_cons first]
    have step := mergeHistoryEntry_cases tracks first
    have tracked := tracks.step step
    cases step with
    | skipped old =>
      obtain ⟨taken, appended, takes, sub, exact_⟩ := ih tracked kept rest
      refine ⟨taken, appended, ⟨takes.entries, takes.copies, takes.imported, ?_, takes.renamed⟩,
        ?_, ?_⟩
      · have skipped := takes.skipped
        simp only [List.length_cons] at skipped ⊢
        omega
      · exact sub.trans (List.Sublist.filter _ (List.sublist_cons_self entry source))
      · by_cases member : entry ∈ target
        · rw [List.filter_cons_of_neg (by simpa using member), exact_]
          exact (and_iff_right fun _ => member).symm
        · rw [List.filter_cons_of_pos (by simpa using member)]
          refine iff_of_false (fun same => ?_) fun h => member (h.1 old)
          have short := sub.length_le
          rw [same, List.length_cons] at short
          omega
    | appended copy ids new same fresh =>
      obtain ⟨taken, appended, takes, sub, exact_⟩ := ih tracked
        (fun _ member => List.mem_append_left _ (kept member)) rest
      have outside : entry ∉ target := fun member => new (kept member)
      rw [List.filter_cons_of_pos (by simpa using outside)]
      refine ⟨entry :: taken, copy :: appended, ⟨?_, .cons same takes.copies, ?_, ?_, ?_⟩,
        sub.cons_cons entry, ?_⟩
      · rw [takes.entries, List.append_assoc, List.singleton_append]
      · have imported := takes.imported
        simp only [List.length_cons] at imported ⊢
        omega
      · have skipped := takes.skipped
        simp only [List.length_cons] at skipped ⊢
        omega
      · rw [takes.renamed, List.zip_cons_cons, List.countP_cons]
        by_cases renamed : copy = entry
        · simp [renamed]
        · simp only [renamed, if_false, ne_eq, not_false_eq_true, decide_true, if_true]
          omega
      · rw [List.cons.injEq, and_iff_right rfl, exact_]
        exact (and_iff_right fun old => absurd old new).symm

end

theorem admitHistory_nodup {seen next : BTreeSet Uuid × Nat} {entries : List CommandHistoryEntry}
    (admitted : entries.foldlM admitHistoryEntry seen = .ok next) :
    (entries.map (·.entryId)).Nodup ∧ ∀ id ∈ entries.map (·.entryId), id ∉ seen.1 := by
  induction entries generalizing seen with
  | nil => simp
  | cons entry entries ih =>
    rw [List.foldlM_cons, Check.bind_eq_ok] at admitted
    obtain ⟨later, first, rest⟩ := admitted
    simp only [admitHistoryEntry, Check.bind_unit_eq_ok, Check.reject_eq_ok, not_or] at first
    obtain ⟨⟨-, unseen⟩, -, -, -, same⟩ := first
    cases same
    obtain ⟨nodup, apart⟩ := ih rest
    simp only [BTreeSet.mem_insert, not_or] at apart
    rw [List.map_cons]
    refine ⟨List.nodup_cons.2 ⟨fun again => (apart _ again).1 rfl, nodup⟩, ?_⟩
    intro id member
    rcases List.mem_cons.1 member with rfl | member
    · exact unseen
    · exact (apart id member).2

theorem validateCommandHistory_nodup {history : CommandHistoryPayload}
    (valid : validateCommandHistory history = .ok ()) :
    (history.entries.map (·.entryId)).Nodup := by
  simp only [validateCommandHistory, Check.bind_eq_ok] at valid
  obtain ⟨_, -, _, -, _, admitted, -⟩ := valid
  exact (admitHistory_nodup admitted).1

structure ImportsSecrets (target source after : SecretEntries) (reservedRefs : List SecretRefId)
    (imported : List (SecretRefId × SecretEntry)) : Prop where
  secrets : imported.map Prod.snd = source.toList.map Prod.snd
  distinct : (imported.map Prod.fst).Nodup
  fresh : ∀ ref ∈ imported.map Prod.fst, ref ∉ target.keys ∧ ref ∉ reservedRefs ∧ ref ∉ source.keys
  get?_eq : ∀ ref entry, after.get? ref = some entry ↔
    (ref, entry) ∈ imported ∨ target.get? ref = some entry

theorem importSecrets_imports {payload source : VaultPayloadV1} {reservedRefs : List SecretRefId}
    {ids : List Uuid} {imported : List (SecretRefId × SecretEntry)}
    (made : importSecrets (usedRefs payload source reservedRefs) ids
      (source.entries.toList.map (·.2)) = some imported) :
    ImportsSecrets payload.entries source.entries (payload.entries.extend imported) reservedRefs
      imported := by
  obtain ⟨same, distinct, new⟩ := importSecrets_eq_some made
  refine ⟨same, distinct, fun ref member => ?_, fun ref entry => ?_⟩
  · have unused := new ref member
    simp only [usedRefs, BTreeSet.mem_extend, BTreeSet.mem_ofList, not_or] at unused
    exact ⟨unused.1.1, unused.1.2, unused.2⟩
  · by_cases member : ref ∈ imported.map Prod.fst
    · have absent := importSecrets_fresh made ref member
      obtain ⟨⟨_, added⟩, among, rfl⟩ := List.mem_map.1 member
      rw [BTreeMap.get?_extend_of_mem distinct among, absent]
      constructor
      · rintro ⟨⟩
        exact .inl among
      · rintro (again | impossible)
        · exact congrArg some
            (congrArg Prod.snd (List.inj_on_of_nodup_map distinct among again rfl))
        · cases impossible
    · rw [BTreeMap.get?_extend_of_notMem member]
      exact (or_iff_right fun again => member (List.mem_map_of_mem again)).symm

structure MergeAdds (target source : VaultPayloadV1) (reservedRefs : List SecretRefId)
    (summary : VaultMergeSummary) (after : VaultPayloadV1) : Prop where
  secrets : ∃ imported,
    ImportsSecrets target.entries source.entries after.entries reservedRefs imported ∧
      summary.importedSecrets = imported.length
  history : ∃ taken appended, taken.Sublist source.commandHistory.entries ∧
    List.Forall₂ SameCommand taken appended ∧
    after.commandHistory.entries = target.commandHistory.entries ++ appended ∧
    summary.importedHistoryEntries = appended.length ∧
    summary.renamedHistoryEntries = (taken.zip appended).countP (fun pair => pair.2 ≠ pair.1) ∧
    summary.importedHistoryEntries + summary.skippedHistoryEntries =
      source.commandHistory.entries.length
  distinct : (after.commandHistory.entries.map (·.entryId)).Nodup

/-- The entries of the source that the target does not have are appended, and no others. -/
def AppendsNew (target source after : List CommandHistoryEntry) : Prop :=
  ∃ appended, after = target ++ appended ∧
    List.Forall₂ SameCommand (source.filter (· ∉ target)) appended

def historyStart (turn : Turn) (target : VaultPayloadV1) : HistoryMerge where
  entries := target.commandHistory.entries
  historyIds := .ofList (target.commandHistory.entries.map (·.entryId))
  ids := turn.ids
  summary := {}

section

variable {lib : Primitives} {turn : Turn} {w after : World} {target source : VaultPayloadV1}

theorem transact_ok {proposal : Option (Except VaultFailure Proposal)} {reply : Reply}
    (made : transact (persist lib turn) proposal w = some (.ok reply, after)) :
    (proposal = some (.ok (reply, none)) ∧ after = w) ∨
      ∃ next, proposal = some (.ok (reply, some next)) ∧
        persist lib turn { w with vault := next } = some (.ok (), after) := by
  unfold transact at made
  split at made
  · cases made
  · cases made
  · cases made
    exact .inl ⟨rfl, rfl⟩
  · split at made
    · cases made
    · next saved =>
      cases made
      exact .inr ⟨_, rfl, saved⟩
    · cases made

theorem mergedHistory_takes {merge : HistoryMerge}
    (merged : mergedHistory turn target source = some merge)
    (distinct : (merge.entries.map (·.entryId)).Nodup) :
    ∃ taken appended,
      (historyStart turn target).Takes merge source.commandHistory.entries taken appended ∧
      taken.Sublist source.commandHistory.entries ∧
      (AppendsNew target.commandHistory.entries source.commandHistory.entries merge.entries ↔
        NoneRedrawn target.commandHistory.entries (historyStart turn target)
          source.commandHistory.entries) := by
  have kept : (historyStart turn target).entries <+: merge.entries := mergeHistory_extends merged
  have tracks : (historyStart turn target).Tracks :=
    ⟨fun id => BTreeSet.mem_ofList, distinct.sublist (kept.sublist.map _)⟩
  have old : target.commandHistory.entries ⊆ (historyStart turn target).entries :=
    List.Subset.refl _
  obtain ⟨taken, appended, takes, sub, exact_⟩ := mergeHistory_takes tracks old merged
  refine ⟨taken, appended, takes, sub.trans List.filter_sublist, ?_⟩
  rw [← exact_]
  constructor
  · rintro ⟨others, same, copies⟩
    have alike : others = appended := List.append_cancel_left (same.symm.trans takes.entries)
    refine sub.eq_of_length ?_
    rw [takes.copies.length_eq, ← alike, copies.length_eq]
  · rintro same
    exact ⟨appended, takes.entries, same ▸ takes.copies⟩

variable {reservedRefs : List SecretRefId}

theorem mergeAdds_of_takes {merge : HistoryMerge}
    {taken appended : List CommandHistoryEntry} {imported : List (SecretRefId × SecretEntry)}
    {result : VaultPayloadV1}
    (takes : (historyStart turn target).Takes merge source.commandHistory.entries taken appended)
    (sub : taken.Sublist source.commandHistory.entries)
    (distinct : (merge.entries.map (·.entryId)).Nodup)
    (imports : ImportsSecrets target.entries source.entries result.entries reservedRefs imported)
    (same : result.commandHistory.entries = merge.entries) :
    MergeAdds target source reservedRefs { merge.summary with importedSecrets := imported.length }
      result := by
  have importedCount := takes.imported
  have skippedCount := takes.skipped
  have length := takes.copies.length_eq
  have renamedCount := takes.renamed
  simp only [historyStart, Nat.zero_add] at importedCount skippedCount renamedCount
  refine ⟨⟨imported, imports, rfl⟩, ⟨taken, appended, sub, takes.copies, ?_, importedCount,
    renamedCount, ?_⟩, same ▸ distinct⟩
  · rw [same, takes.entries]
    rfl
  · simp only
    omega

theorem draftSource_ok {summary : VaultMergeSummary}
    {vault : UnlockedVault} {proposed : Option UnlockedVault}
    (made : draftSource turn vault source reservedRefs = some (.ok (.merged summary, proposed))) :
    ∃ merge imported, mergedHistory turn vault.payload source = some merge ∧
      (merge.entries.map (·.entryId)).Nodup ∧
      ImportsSecrets vault.payload.entries source.entries (vault.payload.entries.extend imported)
        reservedRefs imported ∧
      summary = { merge.summary with importedSecrets := imported.length } ∧
      ((proposed = none ∧ imported = [] ∧ merge.summary.importedHistoryEntries = 0) ∨
        ∃ revision, proposed = some (((vault.withEntries
          (vault.payload.entries.extend imported)).withHistory
            { vault.payload.commandHistory with entries := merge.entries }).withRevision
              revision)) := by
  simp only [draftSource, Option.bind_eq_bind, Option.bind_eq_some_iff] at made
  obtain ⟨merge, merged, made⟩ := made
  split at made
  · cases made
  · next valid =>
    obtain ⟨imported, drawn, made⟩ := Option.bind_eq_some_iff.1 made
    refine ⟨merge, imported, merged, validateCommandHistory_nodup valid,
      importSecrets_imports drawn, ?_⟩
    split at made
    · next nothing =>
      cases made
      exact ⟨rfl, .inl ⟨rfl, List.length_eq_zero_iff.1 nothing.1, nothing.2⟩⟩
    · simp only [Option.some.injEq, Check.bind_eq_ok] at made
      obtain ⟨revision, -, same⟩ := made
      cases same
      exact ⟨rfl, .inr ⟨revision, rfl⟩⟩

theorem persist_payload {next : UnlockedVault} (usable : next.poisoned = false)
    (saved : persist lib turn { w with vault := next } = some (.ok (), after)) :
    after.vault.payload.entries = next.payload.entries ∧
      after.vault.payload.commandHistory = next.payload.commandHistory := by
  have outcome : Persisted lib turn { w with vault := next } _ := persist_cases usable
  rw [saved] at outcome
  cases outcome
  exact ⟨rfl, rfl⟩

theorem usable_of_merged {encryptedEnvelope sourcePassword : Bytes} {reply : Reply}
    (merged : perform lib turn (.mergeEncryptedEnvelope encryptedEnvelope sourcePassword
      reservedRefs) w = some (.ok reply, after)) : w.vault.poisoned = false := by
  by_contra poisoned
  rw [Bool.not_eq_false] at poisoned
  simp only [perform, mergeEncryptedEnvelopeUsing, bind_bind] at merged
  rw [ensureUsable_bind_poisoned poisoned] at merged
  cases merged

/-- A merge that returns only adds; and it appends exactly the history entries that the vault
did not have, as long as no entry of the source is one that the merge itself renamed before. -/
theorem merge_adds_iff {encryptedEnvelope sourcePassword : Bytes}
    {reservedRefs : List SecretRefId} {summary : VaultMergeSummary}
    (opened : openSource lib encryptedEnvelope sourcePassword = .ok source)
    (merged : perform lib turn (.mergeEncryptedEnvelope encryptedEnvelope sourcePassword
      reservedRefs) w = some (.ok (.merged summary), after)) :
    MergeAdds w.vault.payload source reservedRefs summary after.vault.payload ∧
      (AppendsNew w.vault.payload.commandHistory.entries source.commandHistory.entries
        after.vault.payload.commandHistory.entries ↔
        NoneRedrawn w.vault.payload.commandHistory.entries (historyStart turn w.vault.payload)
          source.commandHistory.entries) := by
  have usable := usable_of_merged merged
  rw [perform_merge lib turn usable, draft, draftMerge, opened] at merged
  rcases transact_ok merged with ⟨made, rfl⟩ | ⟨next, made, saved⟩
  · obtain ⟨merge, imported, run, distinct, imports, rfl, ⟨-, rfl, nothing⟩ | ⟨_, impossible⟩⟩ :=
      draftSource_ok made
    · obtain ⟨taken, appended, takes, sub, exact_⟩ := mergedHistory_takes run distinct
      have none_ : appended = [] := by
        have count := takes.imported
        rw [nothing] at count
        exact List.length_eq_zero_iff.1 (Nat.add_eq_zero_iff.1 count.symm).2
      have same : after.vault.payload.commandHistory.entries = merge.entries := by
        rw [takes.entries, none_, List.append_nil]
        rfl
      exact ⟨mergeAdds_of_takes takes sub distinct imports same, same ▸ exact_⟩
    · cases impossible
  · obtain ⟨merge, imported, run, distinct, imports, rfl, ⟨impossible, -⟩ | ⟨revision, same⟩⟩ :=
      draftSource_ok made
    · cases impossible
    · cases same
      obtain ⟨entries, history⟩ := persist_payload (by exact usable) saved
      obtain ⟨taken, appended, takes, sub, exact_⟩ := mergedHistory_takes run distinct
      rw [history]
      exact ⟨mergeAdds_of_takes takes sub distinct (entries ▸ imports)
        (congrArg CommandHistoryPayload.entries history), exact_⟩

end

def opening (source : VaultPayloadV1) : Primitives where
  argon2 _ _ := some blankKey
  encrypt _ _ _ message := some (0 :: message)
  decrypt _ _ _ ciphertext := some ciphertext.tail
  sha256Hex _ := ""
  keyWrapAad _ := some []
  payloadAad _ := some []
  encodePayload _ := some []
  decodePayload _ := some source
  encodeEnvelope _ := some [0]
  decodeEnvelope _ := some ((keyedPassword 0).envelope (sealedSection zeroNonce [0]))

def ran (entryId : Uuid) (command : String) : CommandHistoryEntry where
  entryId
  scope := "local"
  command
  completedAtUnixMs := 0
  elapsedMillis := 0
  exitCode := none

def withCommands (entries : List CommandHistoryEntry) : VaultPayloadV1 :=
  { (keyedPassword 0).payload with commandHistory := { entries } }

def drawing (ids : List Uuid) : Turn := { quiet with payloadNonce := some zeroNonce, ids }

def holding (entries : List CommandHistoryEntry) : World where
  vault := { keyedPassword 0 with payload := withCommands entries }
  file := none

theorem merge_adds_iff_renamed :
    ∃ summary after, perform (opening (withCommands [ran 1 "ls", ran 2 "ls"])) (drawing [5, 9])
        (.mergeEncryptedEnvelope [0] [] []) (holding [ran 1 "pwd"]) =
          some (.ok (.merged summary), after) ∧
      MergeAdds (holding [ran 1 "pwd"]).vault.payload (withCommands [ran 1 "ls", ran 2 "ls"]) []
        summary after.vault.payload ∧
      (AppendsNew [ran 1 "pwd"] [ran 1 "ls", ran 2 "ls"]
        after.vault.payload.commandHistory.entries ↔
        NoneRedrawn [ran 1 "pwd"]
          (historyStart (drawing [5, 9]) (holding [ran 1 "pwd"]).vault.payload)
          [ran 1 "ls", ran 2 "ls"]) := by
  have opened : openSource (opening (withCommands [ran 1 "ls", ran 2 "ls"])) [0] [] =
      .ok (withCommands [ran 1 "ls", ran 2 "ls"]) := by
    decide +kernel
  have returned : (perform (opening (withCommands [ran 1 "ls", ran 2 "ls"])) (drawing [5, 9])
      (.mergeEncryptedEnvelope [0] [] []) (holding [ran 1 "pwd"])).map Prod.fst = some (.ok (.merged
          { importedSecrets := 1, importedHistoryEntries := 2, renamedHistoryEntries := 1 })) := by
    decide +kernel
  obtain ⟨⟨reply, after⟩, merged, same⟩ := Option.map_eq_some_iff.1 returned
  cases same
  exact ⟨_, after, merged, merge_adds_iff opened merged⟩

/-- The drawn identifier is that of a later entry with the same command: the later one is lost,
though the target did not have it. -/
theorem redrawn_entry_lost : openSource (opening (withCommands [ran 1 "ls", ran 2 "ls"])) [0] [] =
      .ok (withCommands [ran 1 "ls", ran 2 "ls"]) ∧
    (perform (opening (withCommands [ran 1 "ls", ran 2 "ls"])) (drawing [2, 9])
      (.mergeEncryptedEnvelope [0] [] []) (holding [ran 1 "pwd"])).map
        (fun left => (left.1, left.2.vault.payload.commandHistory.entries)) =
      some (.ok (.merged
        { importedSecrets := 1, importedHistoryEntries := 1, skippedHistoryEntries := 1,
          renamedHistoryEntries := 1 }), [ran 1 "pwd", ran 2 "ls"]) := by
  decide +kernel

end NoriShell.Vault

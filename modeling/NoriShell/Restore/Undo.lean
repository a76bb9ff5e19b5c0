import NoriShell.Restore.Safety

/-! Undoing pending restores: what it keeps, and that success leaves no journal entry. -/

namespace NoriShell.Restore

open Collections Vault Program

/-- An assertion that collections keep, and that undoing keeps: deleting what a journal
lists, and then removing the journal entry. -/
structure Undoable (P : World → Prop) : Prop where
  stable : Stable P
  delete : ∀ (w : World) (refs : List SecretRefId) (vault : SecretEntries), P w →
    (∀ r ∈ refs, w.db.Pending r) →
    (∀ r, vault.get? r = if r ∈ refs then none else w.vault.get? r) → P { w with vault }
  abort : ∀ (w : World) (saga : Uuid × RestoreSaga), P w → saga ∈ w.db.restoreSagas.toList →
    (∀ r ∈ saga.2.secretRefIds, w.vault.get? r = none) →
    P { w with db := removeRestoreSaga saga.1 w.db }
  finish : ∀ (w : World) (saga : Uuid × OfflineImportSaga), P w →
    saga ∈ w.db.offlineImportSagas.toList →
    (∀ r ∈ saga.2.secretRefIds, w.vault.get? r = none) →
    P { w with db := removeOfflineImportSaga saga.1 w.db }

section

variable {α : Type} {n : Nat}

theorem chunksOf_flatten (positive : 0 < n) (fuel : Nat) (items : List α)
    (enough : items.length ≤ fuel) : (chunksOf n fuel items).flatten = items := by
  induction fuel generalizing items with
  | zero => rw [List.length_eq_zero_iff.mp (Nat.le_zero.mp enough)]; rfl
  | succ fuel ih =>
    cases items with
    | nil => rfl
    | cons item items =>
      rw [chunksOf, List.flatten_cons, ih, List.take_append_drop]
      · rw [List.length_drop]
        simp only [List.length_cons] at enough ⊢
        omega
      · exact fun h => by cases h

theorem chunks_flatten (positive : 0 < n) (items : List α) : (chunks n items).flatten = items :=
  chunksOf_flatten positive items.length items le_rfl

end

theorem absent_stable (r : SecretRefId) : Stable fun w => w.vault.get? r = none := by
  intro w w' h absent
  rcases h.vault r with eq | ⟨eq, -⟩
  · exact eq.trans absent
  · exact eq

section

variable {P J : World → Prop}

theorem deleteInChunks_meets (undo : Undoable P) (stable : Stable J)
    (free : ∀ (w : World) vault, J w → J { w with vault }) {code : String}
    {refs : List SecretRefId} (pending : ∀ w, J w → ∀ r ∈ refs, w.db.Pending r) :
    Meets perform (fun w => P w ∧ J w) (deleteInChunks code refs)
      (fun _ w => P w ∧ J w ∧ ∀ r ∈ refs, w.vault.get? r = none) P := by
  have flatten := chunks_flatten (n := maxSecretBatchEntries) (by decide) refs
  refine Meets.weaken (Meets.forM (fun rest w =>
    P w ∧ J w ∧ ∀ r ∈ refs, r ∈ rest.flatten ∨ w.vault.get? r = none) fun chunk rest mem => ?_)
    (fun w h => ⟨h.1, h.2, fun r used => .inl (flatten.symm ▸ used)⟩)
    (fun _ w h => ⟨h.1, h.2.1, fun r used => (h.2.2 r used).resolve_left List.not_mem_nil⟩)
  refine deleteSecrets_meets (fun w w' collected h => ?_) (fun _ h => h.1) (fun _ h => h.1)
    fun w vault h eq => ?_
  · refine ⟨undo.stable w w' collected h.1, stable w w' collected h.2.1, fun r used => ?_⟩
    exact (h.2.2 r used).imp_right (absent_stable r w w' collected)
  · have listed : ∀ r ∈ chunk, r ∈ refs := fun r used =>
      flatten ▸ List.mem_flatten.mpr ⟨chunk, mem, used⟩
    refine ⟨undo.delete w chunk vault h.1 (fun r used => pending w h.2.1 r (listed r used)) eq,
      free w vault h.2.1, fun r used => ?_⟩
    rw [eq r]
    split
    · exact .inr rfl
    · next kept =>
      apply (h.2.2 r used).imp_left
      intro left
      rw [List.flatten_cons, List.mem_append] at left
      exact left.resolve_left kept

theorem undoSagas_meets {σ : Type} (table : Database → BTreeMap Uuid σ)
    {refs : σ → List SecretRefId} {finish : Uuid × σ → Transaction Unit} {stage code : String}
    (undo : Undoable P)
    (stable : ∀ w w' : World, Collected w w' → table w'.db = table w.db)
    (pending : ∀ db, ∀ saga ∈ (table db).toList, ∀ r ∈ refs saga.2, db.Pending r)
    (finishes : ∀ (w : World) saga value db, P w → saga ∈ (table w.db).toList →
      (∀ r ∈ refs saga.2, w.vault.get? r = none) → finish saga w.db = .ok (value, db) →
      P { w with db } ∧ table db = (table w.db).erase saga.1)
    (sagas : List (Uuid × σ)) :
    Meets perform
      (fun w => P w ∧ (sagas.map Prod.fst).Nodup ∧ ∀ saga, saga ∈ (table w.db).toList ↔ saga ∈ sagas)
      (undoSagas stage code refs finish sagas)
      (fun _ w => P w ∧ (table w.db).toList = []) P := by
  refine Meets.weaken (Meets.forM (fun rest w => P w ∧ (rest.map Prod.fst).Nodup ∧
      ∀ saga, saga ∈ (table w.db).toList ↔ saga ∈ rest) fun saga rest mem => ?_)
    (fun w h => h)
    (fun _ w h => ⟨h.1, List.eq_nil_iff_forall_not_mem.mpr fun saga mem =>
      List.not_mem_nil ((h.2.2 saga).mp mem)⟩)
  have same : ∀ w w' : World, table w'.db = table w.db → ((saga :: rest).map Prod.fst).Nodup ∧
        (∀ other, other ∈ (table w.db).toList ↔ other ∈ saga :: rest) →
      ((saga :: rest).map Prod.fst).Nodup ∧
        ∀ other, other ∈ (table w'.db).toList ↔ other ∈ saga :: rest := by
    intro w w' eq h
    rw [eq]
    exact h
  apply Meets.bind (deleteInChunks_meets undo (fun w w' collected => same w w' (stable w w' collected))
    (fun w vault => same w { w with vault } rfl)
    fun w h => pending w.db saga ((h.2 saga).mpr List.mem_cons_self))
  intro _
  apply database_meets (fun w w' collected h => ⟨undo.stable w w' collected h.1,
    same w w' (stable w w' collected) h.2.1,
    fun r used => absent_stable r w w' collected (h.2.2 r used)⟩) (fun _ h => h.1)
    (fun _ _ h => h.1)
  intro w value db ⟨here, ⟨nodup, entries⟩, absent⟩ ok
  obtain ⟨after, erased⟩ := finishes w saga value db here
    ((entries saga).mpr List.mem_cons_self) absent ok
  rw [List.map_cons, List.nodup_cons] at nodup
  refine ⟨after, nodup.2, fun other => ?_⟩
  obtain ⟨key, entry⟩ := other
  rw [erased, BTreeMap.mem_toList, BTreeMap.get?_erase]
  by_cases eq : key = saga.1
  · rw [if_pos eq]
    refine ⟨fun h => (by cases h), fun mem => ?_⟩
    exact absurd (eq ▸ List.mem_map.mpr ⟨_, mem, rfl⟩) nodup.1
  · rw [if_neg eq, ← BTreeMap.mem_toList, entries, List.mem_cons]
    exact or_iff_right fun same => eq (congrArg Prod.fst same)

theorem listed_meets {σ : Type} (table : Database → BTreeMap Uuid σ)
    {list : Transaction (List (Uuid × σ))} {stage : String} {post : Unit → World → Prop}
    {next : List (Uuid × σ) → Operation Unit} (undo : Undoable P)
    (lists : ∀ db, list db = .ok ((table db).toList, db))
    (rest : ∀ sagas, Meets perform
      (fun w => P w ∧ (sagas.map Prod.fst).Nodup ∧ ∀ saga, saga ∈ (table w.db).toList ↔ saga ∈ sagas)
      (next sagas) post P) :
    Meets perform P (Operation.database stage list >>= next) post P := by
  refine Meets.bind (database_meets undo.stable (fun _ h => h) (fun _ _ h => h.1) ?_) rest
  intro w sagas db h ok
  cases (lists w.db).symm.trans ok
  exact ⟨h, BTreeMap.keys_nodup _, fun _ => Iff.rfl⟩

theorem reconcileRestoreSagas_meets (undo : Undoable P) : Meets perform P reconcileRestoreSagas
      (fun _ w => P w ∧ w.db.restoreSagas.toList = []) P := by
  refine listed_meets Database.restoreSagas undo (fun _ => rfl) fun sagas => ?_
  have all : (sagas.filter fun saga => (none : Option String).all (saga.2.pluginId = ·)) = sagas :=
    List.filter_eq_self.mpr fun _ _ => rfl
  rw [all]
  refine undoSagas_meets Database.restoreSagas undo (fun _ _ collected => collected.restoreSagas)
    (fun _ saga mem r used => .inl ⟨saga, mem, used⟩) ?_ sagas
  intro w saga value db h mem absent ok
  have there : w.db.restoreSagas.contains saga.1 :=
    BTreeMap.contains_iff_mem_keys.mpr (List.mem_map.mpr ⟨saga, mem, rfl⟩)
  simp only [abortRestoreSaga, there, if_true, Except.ok.injEq, Prod.mk.injEq] at ok
  rw [← ok.2]
  exact ⟨undo.abort w saga h mem absent, rfl⟩

theorem finishOfflineImportCleanup_eq_ok {db db' : Database} {saga : Uuid × OfflineImportSaga}
    {value : Unit} (mem : saga ∈ db.offlineImportSagas.toList)
    (ok : finishOfflineImportCleanup saga.1 saga.2 db = .ok (value, db')) :
    db' = removeOfflineImportSaga saga.1 db := by
  have found : db.offlineImportSagas.get? saga.1 = some saga.2 := BTreeMap.mem_toList.mp mem
  simp only [finishOfflineImportCleanup, found, ne_eq, Check.bind_unit_eq_ok] at ok
  cases ok.2
  rfl

theorem reconcileOfflineImports_meets (undo : Undoable P) : Meets perform P reconcileOfflineImports
      (fun _ w => P w ∧ w.db.offlineImportSagas.toList = []) P := by
  refine listed_meets Database.offlineImportSagas undo (fun _ => rfl) fun sagas => ?_
  refine undoSagas_meets Database.offlineImportSagas undo
    (fun _ _ collected => collected.offlineImportSagas)
    (fun _ saga mem r used => .inr ⟨saga, mem, used⟩) ?_ sagas
  intro w saga value db h mem absent ok
  cases finishOfflineImportCleanup_eq_ok mem ok
  exact ⟨undo.finish w saga h mem absent, rfl⟩

theorem Undoable.and (undo : Undoable P) (also : Undoable J) : Undoable fun w => P w ∧ J w where
  stable w w' collected h := ⟨undo.stable w w' collected h.1, also.stable w w' collected h.2⟩
  delete w refs vault h pending eq :=
    ⟨undo.delete w refs vault h.1 pending eq, also.delete w refs vault h.2 pending eq⟩
  abort w saga h mem absent := ⟨undo.abort w saga h.1 mem absent, also.abort w saga h.2 mem absent⟩
  finish w saga h mem absent :=
    ⟨undo.finish w saga h.1 mem absent, also.finish w saga h.2 mem absent⟩

def RestoresWithin (sagas : List (Uuid × RestoreSaga)) (w : World) : Prop :=
  ∀ saga ∈ w.db.restoreSagas.toList, saga ∈ sagas

def ImportsWithin (sagas : List (Uuid × OfflineImportSaga)) (w : World) : Prop :=
  ∀ saga ∈ w.db.offlineImportSagas.toList, saga ∈ sagas

theorem RestoresWithin.undoable (sagas : List (Uuid × RestoreSaga)) :
    Undoable (RestoresWithin sagas) where
  stable w w' collected h := by
    unfold RestoresWithin
    rw [collected.restoreSagas]
    exact h
  delete _ _ _ h _ _ := h
  abort _ _ h _ _ := fun saga mem => h saga (Entries.mem_of_mem_erase mem)
  finish _ _ h _ _ := h

theorem ImportsWithin.undoable (sagas : List (Uuid × OfflineImportSaga)) :
    Undoable (ImportsWithin sagas) where
  stable w w' collected h := by
    unfold ImportsWithin
    rw [collected.offlineImportSagas]
    exact h
  delete _ _ _ h _ _ := h
  abort _ _ h _ _ := h
  finish _ _ h _ _ := fun saga mem => h saga (Entries.mem_of_mem_erase mem)

theorem reconcileDurableRestores_meets (undo : Undoable P) :
    Meets perform P reconcileDurableRestores
      (fun _ w => P w ∧ w.db.restoreSagas.toList = [] ∧ w.db.offlineImportSagas.toList = [])
      P := by
  apply Meets.bind (reconcileRestoreSagas_meets undo)
  intro _
  apply Meets.stops _ fun w (h : P w ∧ RestoresWithin [] w) => h.1
  refine Meets.weaken (reconcileOfflineImports_meets (undo.and (RestoresWithin.undoable [])))
    (fun w h => ⟨h.1, fun saga mem => h.2 ▸ mem⟩) fun _ w h => ⟨h.1.1, ?_, h.2⟩
  exact List.eq_nil_iff_forall_not_mem.mpr fun saga mem => List.not_mem_nil (h.1.2 saga mem)

end

end NoriShell.Restore

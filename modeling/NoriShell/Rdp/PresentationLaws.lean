import NoriShell.Rdp.Presentation

namespace NoriShell.Rdp

open Collections Collections.Check Desktop

section

variable {p after : Presentation} {image : DecodedImage} {rect : InclusiveRectangle}
  {rects : List InclusiveRectangle} {width height : UInt16} {fuel : Nat}

theorem dirtyRect_eq_some {out : DesktopRect}
    (h : dirtyRect rect.left rect.top rect.right rect.bottom width height = some out) :
    out.fits width height = true ∧ ∀ q, rect.Holds q → q ∈ out.pixels := by
  rw [dirtyRect] at h
  split at h
  · cases h
  next inside =>
    simp only [not_or, gt_iff_lt, ge_iff_le, UInt16.lt_iff_toNat_lt, UInt16.le_iff_toNat_le,
      not_lt, not_le] at inside
    obtain ⟨columns, rows, right, bottom⟩ := inside
    dsimp only at h
    split at h
    next fits =>
      cases h
      refine ⟨fits, fun q holds => ?_⟩
      have wide := width.toNat_lt
      have tall := height.toNat_lt
      have columnCount : (rect.right - rect.left + 1).toNat =
          rect.right.toNat - rect.left.toNat + 1 := by
        rw [UInt16.toNat_add, UInt16.toNat_sub_of_le _ _ columns, UInt16.toNat_one]
        omega
      have rowCount : (rect.bottom - rect.top + 1).toNat =
          rect.bottom.toNat - rect.top.toNat + 1 := by
        rw [UInt16.toNat_add, UInt16.toNat_sub_of_le _ _ rows, UInt16.toNat_one]
        omega
      simp only [InclusiveRectangle.Holds] at holds
      simp only [DesktopRect.mem_pixels, DesktopRect.right, DesktopRect.bottom, columnCount, rowCount]
      omega
    next => cases h

structure Marks (image : DecodedImage) (p : Presentation) (rects : List InclusiveRectangle)
    (after : Presentation) : Prop where
  tidy : Tidy image.width image.height after.region.rects after.region
  covers : after.needsFull = false → p.needsFull = false ∧
    (∀ q, Covers p.region.rects q → Covers after.region.rects q) ∧
    ∀ rect ∈ rects, ∀ q, rect.Holds q → Covers after.region.rects q
  pending : p.pending = true ∨ rects ≠ [] → after.pending = true
  publishedSize : after.publishedSize = p.publishedSize

theorem markReported_marks (tidy : Tidy image.width image.height p.region.rects p.region)
    (enough : addFuel ≤ fuel) (rect : InclusiveRectangle) :
    ∃ after, Presentation.markReported fuel image p rect = .ok after ∧
      Marks image p [rect] after := by
  rw [Presentation.markReported]
  cases dirty : dirtyRect rect.left rect.top rect.right rect.bottom image.width image.height with
  | none => exact ⟨_, rfl, tidy, nofun, fun _ => rfl, rfl⟩
  | some out =>
    obtain ⟨fits, covers⟩ := dirtyRect_eq_some dirty
    obtain ⟨region, added, grown⟩ := tidy.add (.inr fits)
    have marked : p.mark fuel (some out) = .ok { p with pending := true, region } := by
      rw [Presentation.mark, added fuel enough]
      rfl
    refine ⟨_, marked, ⟨grown.kept, grown.bounded, fun rect mem _ inside => ⟨rect, mem, inside⟩⟩,
      fun partly => ⟨partly, ?_, ?_⟩, fun _ => rfl, rfl⟩
    · rintro q ⟨old, mem, inside⟩
      exact grown.covers old (List.mem_append_left _ mem) q inside
    · intro other mem q holds
      cases List.mem_singleton.mp mem
      exact grown.covers out (by simp) q (covers q holds)

theorem foldlM_markReported (tidy : Tidy image.width image.height p.region.rects p.region)
    (enough : addFuel ≤ fuel) :
    ∃ after, rects.foldlM (Presentation.markReported fuel image) p = .ok after ∧
      Marks image p rects after := by
  induction rects generalizing p with
  | nil => exact ⟨p, rfl, tidy, fun partly => ⟨partly, fun _ covers => covers, by simp⟩,
      by simp, rfl⟩
  | cons rect rects ih =>
    obtain ⟨next, first, marks⟩ := markReported_marks tidy enough rect
    obtain ⟨after, others, more⟩ := ih marks.tidy
    refine ⟨after, ?_, more.tidy, fun partly => ?_, fun _ => ?_, ?_⟩
    · rw [List.foldlM_cons, first]
      exact others
    · obtain ⟨partlyNext, kept, covered⟩ := more.covers partly
      obtain ⟨partlyBefore, keptBefore, coveredBefore⟩ := marks.covers partlyNext
      refine ⟨partlyBefore, fun q covers => kept q (keptBefore q covers), fun other mem q holds => ?_⟩
      rcases List.mem_cons.mp mem with rfl | mem
      · exact kept q (coveredBefore _ List.mem_cons_self q holds)
      · exact covered other mem q holds
    · exact more.pending (.inl (marks.pending (.inr (by simp))))
    · exact more.publishedSize.trans marks.publishedSize

end

section

variable {p : Presentation}

structure Presentation.OnlyCursor (p : Presentation) (result : Presentation × List EngineEvent) :
    Prop where
  rest : ∃ cursor cursorSource, result.1 = { p with cursor, cursorSource }
  events : ∀ viewer, result.2.foldl view viewer = viewer

theorem showCursor_onlyCursor (next : DesktopCursor) : p.OnlyCursor (p.showCursor next) := by
  simp only [Presentation.showCursor]
  split <;> split <;> exact ⟨⟨_, _, rfl⟩, fun _ => rfl⟩

theorem setCursor_onlyCursor (output : ActiveStageOutput) : p.OnlyCursor (p.setCursor output) := by
  cases output with
  | pointerDefault | pointerHidden => exact showCursor_onlyCursor _
  | graphicsUpdate | other => exact ⟨⟨_, _, rfl⟩, fun _ => rfl⟩
  | pointerBitmap pointer =>
    simp only [Presentation.setCursor]
    split
    · exact ⟨⟨_, _, rfl⟩, fun _ => rfl⟩
    · obtain ⟨⟨cursor, cursorSource, same⟩, events⟩ := showCursor_onlyCursor
        (p := { p with cursorSource := some pointer }) (cursorFromPointer pointer.pointer)
      exact ⟨⟨cursor, cursorSource, same⟩, events⟩

theorem observe_marks {image : DecodedImage} {fuel : Nat}
    (tidy : Tidy image.width image.height p.region.rects p.region) (enough : addFuel ≤ fuel)
    (outputs : List ActiveStageOutput) (damage : List InclusiveRectangle) :
    ∃ after events, p.observe fuel outputs damage image = .ok (after, events) ∧
      Marks image p (Presentation.reported outputs damage) after ∧
      ∀ viewer, events.foldl view viewer = viewer := by
  obtain ⟨next, marked, marks⟩ := foldlM_markReported tidy enough
  rw [Presentation.observe, marked]
  cases Presentation.lastPointer outputs with
  | none => exact ⟨next, [], rfl, marks, fun _ => rfl⟩
  | some output =>
    obtain ⟨⟨cursor, cursorSource, same⟩, events⟩ := setCursor_onlyCursor (p := next) output
    refine ⟨(next.setCursor output).1, (next.setCursor output).2, rfl, ?_, events⟩
    rw [same]
    exact ⟨marks.tidy, marks.covers, marks.pending, marks.publishedSize⟩

end

section

variable {p : Presentation} {image viewed : DesktopFrame}

structure Publishes (image : DecodedImage) (viewer : Option DesktopFrame)
    (events : List EngineEvent) : Prop where
  viewed : events.foldl view viewer = some image
  sized : ∀ patch, .framePatch patch ∈ events →
    ∃ v, viewer = some v ∧ v.width = patch.width ∧ v.height = patch.height
  inside : ∀ patch, .framePatch patch ∈ events →
    ∀ entry ∈ patch.rects, entry.1.fits patch.width patch.height = true

theorem publishes_frame (viewer : Option DesktopFrame) : Publishes image viewer [.frame image] :=
  ⟨rfl, by simp, by simp⟩

theorem publication_spec {viewer : Option DesktopFrame} (sound : image.Sound)
    (tidy : Tidy image.width image.height p.region.rects p.region)
    (shown : p.needsFull = false → p.publishedSize = some (image.width, image.height) →
      ∃ v, viewer = some v ∧ v.Synced image fun q => ¬Covers p.region.rects q) :
    ∃ events, p.publication image = .ok (some (image.width, image.height), events) ∧
      Publishes image viewer events := by
  have fits : p.region.fits image.width image.height = true :=
    List.all_eq_true.mpr tidy.kept.fits
  rw [Presentation.publication, publishKind, fits]
  cases force : p.needsFull || p.publishedSize ≠ some (image.width, image.height) with
  | true => exact ⟨_, rfl, publishes_frame viewer⟩
  | false =>
    simp only [Bool.or_eq_false_iff, decide_eq_false_iff_not, not_not] at force
    obtain ⟨partly, size⟩ := force
    obtain ⟨v, viewing, synced⟩ := shown partly size
    by_cases empty : p.region.rects.isEmpty = true
    · have same : v = image := by
        rw [List.isEmpty_iff] at empty
        exact (synced.mono fun q _ => by simp [empty, Covers]).eq
      simp only [empty, if_true, size, viewing, same]
      exact ⟨[], rfl, rfl, by simp, by simp⟩
    by_cases large : p.region.area * 10 ≥ image.width.toNat * image.height.toNat * 6
    · simp only [empty, large, if_true]
      exact ⟨_, rfl, publishes_frame viewer⟩
    · have rows : (p.region.rects.mapM fun rect => do
          return (rect, ← readRect image.rgba image.width rect)) =
            (.ok (p.region.rects.map fun rect =>
              (rect, (List.range rect.height.toNat).flatMap (image.packedRow rect))) :
                Except EngineError _) :=
        mapM_of_ok fun rect mem => by
          rw [DesktopFrame.readRect_eq_ok sound (tidy.kept.fits rect mem)]
          rfl
      have applied := synced.applyPacked sound tidy.kept.fits
      simp only [empty, large, if_false, rows, size, Bool.not_true, Bool.or_false,
        Bool.false_eq_true]
      refine ⟨_, rfl, ?_, fun patch mem => ?_, fun patch mem entry here => ?_⟩
      · simp [view, viewing, applied, Except.toOption]
      · cases EngineEvent.framePatch.inj (List.mem_singleton.mp mem)
        exact ⟨v, viewing, synced.width, synced.height⟩
      · cases EngineEvent.framePatch.inj (List.mem_singleton.mp mem)
        obtain ⟨rect, found, rfl⟩ := List.mem_map.mp here
        exact tidy.kept.fits rect found

theorem flush_eq_ok {now : Instant} {after : Presentation} {events : List EngineEvent} :
    p.flush now image = .ok (after, events) ↔
      image.Sound ∧ ∃ publishedSize, p.publication image = .ok (publishedSize, events) ∧
        after = { p with
          publishedSize
          region := {}
          needsFull := false
          pending := false
          lastPublish := some now } := by
  simp only [Presentation.flush, bind_eq_ok, reject_eq_ok, not_not]
  constructor
  · rintro ⟨expected, len, -, same, ⟨publishedSize, sent⟩, published, done⟩
    cases done
    exact ⟨by rw [DesktopFrame.Sound, same, len], publishedSize, published, rfl⟩
  · rintro ⟨sound, publishedSize, published, rfl⟩
    exact ⟨_, sound, (), rfl, _, published, rfl⟩

end

structure Picture.Consistent (s : Picture) : Prop where
  tidy : Tidy s.image.width s.image.height s.presentation.region.rects s.presentation.region
  shown : s.presentation.needsFull = false →
    s.presentation.publishedSize = some (s.image.width, s.image.height) → ∃ v, s.viewer = some v ∧
        v.Synced s.image fun q => ¬Covers s.presentation.region.rects q
  pending : s.changed = true → s.presentation.pending = true

namespace Picture

variable {s after : Picture} {fuel : Nat} {now : Instant} {events : List EngineEvent}

theorem Consistent.start (image : DecodedImage) : Consistent { image } :=
  ⟨Tidy.start, nofun, nofun⟩

theorem Consistent.process (h : s.Consistent) (enough : addFuel ≤ fuel)
    {outputs : List ActiveStageOutput} {damage : List InclusiveRectangle} {image : DecodedImage}
    (allowed : s.Allowed (.process outputs damage image)) :
    ∃ after events, s.step fuel now (.process outputs damage image) = .ok (after, events) ∧
      after.Consistent := by
  obtain ⟨width, height, length, covered⟩ := allowed
  have tidy := h.tidy
  rw [← width, ← height] at tidy
  obtain ⟨presentation, events, observed, marks, viewed⟩ := observe_marks tidy enough outputs damage
  refine ⟨_, events, by rw [step, observed]; rfl, marks.tidy, fun partly size => ?_,
    fun changed => ?_⟩
  · obtain ⟨partlyBefore, kept, reported⟩ := marks.covers partly
    dsimp only at size
    rw [marks.publishedSize, width, height] at size
    obtain ⟨v, viewing, synced⟩ := h.shown partlyBefore size
    refine ⟨v, (viewed _).trans viewing, synced.width.trans width.symm,
      synced.height.trans height.symm, synced.length.trans length.symm, fun i outside => ?_⟩
    have same : image.rgba[i]? = s.image.rgba[i]? := by
      by_contra differs
      obtain ⟨rect, mem, holds⟩ := covered i differs
      exact outside (reported rect mem _ holds)
    rw [same]
    refine synced.agrees i fun covers => outside (kept _ ?_)
    rwa [width]
  · refine marks.pending ?_
    rcases Bool.or_eq_true_iff.mp changed with before | here
    · exact .inl (h.pending before)
    · refine .inr fun nothing => ?_
      refine absurd ?_ (of_decide_eq_true here)
      have rgba : image.rgba = s.image.rgba := List.ext_getElem? fun i => by
        by_contra differs
        obtain ⟨rect, mem, -⟩ := covered i differs
        rw [nothing] at mem
        cases mem
      cases image
      cases same : s.image
      simp_all

theorem consistent_activate (s : Picture) (image : DecodedImage) : ({ s with
      image
      presentation := s.presentation.resetAfterActivation
      changed := true } : Picture).Consistent :=
  ⟨Tidy.start, nofun, fun _ => rfl⟩

theorem Consistent.flush (h : s.Consistent) (done : s.step fuel now .flush = .ok (after, events)) :
    after.Consistent ∧ after.image = s.image ∧ Publishes s.image s.viewer events ∧
      after.viewer = some s.image := by
  simp only [step, bind_eq_ok] at done
  obtain ⟨⟨presentation, sent⟩, flushed, same⟩ := done
  cases same
  obtain ⟨sound, publishedSize, published, rfl⟩ := flush_eq_ok.mp flushed
  obtain ⟨events', done, publishes⟩ := publication_spec sound h.tidy h.shown
  cases done.symm.trans published
  exact ⟨⟨Tidy.start, fun _ _ => ⟨_, publishes.viewed, rfl, rfl, rfl, fun _ _ => rfl⟩, nofun⟩, rfl,
    publishes, publishes.viewed⟩

theorem Reached.consistent (enough : addFuel ≤ fuel) (reached : Reached fuel s) : s.Consistent := by
  induction reached with
  | start image => exact .start image
  | @step s after now input events reached allowed done ih =>
    cases input with
    | process outputs damage image =>
      obtain ⟨next, sent, step, consistent⟩ := ih.process enough allowed
      cases step.symm.trans done
      exact consistent
    | activate image =>
      cases done
      exact consistent_activate _ image
    | flush => exact (ih.flush done).1

/-- In every reached picture: a flush that succeeds leaves the viewer with the image, after
patches of the viewer's own size whose rectangles lie inside; unpublished changes are pending and
so due; and only a buffer of the wrong size keeps a flush from succeeding. -/
theorem viewer_catches_up (enough : addFuel ≤ fuel) (reached : Reached fuel s) :
    (∀ now after events, s.step fuel now .flush = .ok (after, events) →
      after.image = s.image ∧ after.viewer = some s.image ∧ ∀ patch, .framePatch patch ∈ events →
          (∃ v, s.viewer = some v ∧ v.width = patch.width ∧ v.height = patch.height) ∧
            ∀ entry ∈ patch.rects, entry.1.fits patch.width patch.height = true) ∧
      (s.changed = true → s.presentation.pending = true ∧
        ∀ now, (s.presentation.due now).isSome = true) ∧
      (∀ now input, s.Allowed input → input ≠ .flush ∨ s.image.Sound →
        ∃ result, s.step fuel now input = .ok result) := by
  have h := reached.consistent enough
  refine ⟨fun now after events done => ?_, fun changed => ⟨h.pending changed, fun now => ?_⟩, ?_⟩
  · obtain ⟨-, image, publishes, viewed⟩ := h.flush done
    exact ⟨image, viewed, fun patch mem => ⟨publishes.sized patch mem, publishes.inside patch mem⟩⟩
  · rw [Presentation.due, h.pending changed]
    cases s.presentation.lastPublish <;> rfl
  · intro now input allowed possible
    cases input with
    | process outputs damage image =>
      obtain ⟨after, events, done, -⟩ := h.process enough allowed
      exact ⟨_, done⟩
    | activate image => exact ⟨_, rfl⟩
    | flush =>
      have sound := possible.resolve_left (by simp)
      obtain ⟨events, published, -⟩ := publication_spec sound h.tidy h.shown
      rw [step, flush_eq_ok.mpr ⟨sound, _, published, rfl⟩]
      exact ⟨_, rfl⟩

def red : Picture where
  image := ⟨1, 1, [255, 0, 0, 255]⟩
  presentation := { region := ⟨[⟨0, 0, 1, 1⟩]⟩, pending := true }
  changed := true

theorem red_reached : Reached addFuel red := by
  have allowed : Allowed { image := ⟨1, 1, [0, 0, 0, 255]⟩ }
      (.process [.graphicsUpdate ⟨0, 0, 0, 0⟩] [] red.image) := by
    refine ⟨rfl, rfl, rfl, fun i differs => ⟨⟨0, 0, 0, 0⟩, List.mem_cons_self, ?_⟩⟩
    rcases Nat.lt_or_ge i 4 with less | more
    · have corner : pixelOf red.image.width i = (0, 0) := by
        interval_cases i <;> rfl
      rw [corner]
      exact ⟨Nat.le_refl _, Nat.le_refl _, Nat.le_refl _, Nat.le_refl _⟩
    · refine absurd ?_ differs
      rw [List.getElem?_eq_none more]
      exact (List.getElem?_eq_none more).symm
  have done : step addFuel 0 { image := ⟨1, 1, [0, 0, 0, 255]⟩ }
      (.process [.graphicsUpdate ⟨0, 0, 0, 0⟩] [] red.image) = .ok (red, []) := rfl
  exact .step (.start _) allowed done

theorem viewer_catches_up_red : red.presentation.pending = true ∧
      ∃ after events, red.step addFuel 0 .flush = .ok (after, events) ∧
        after.viewer = some red.image := by
  obtain ⟨flushed, pending, total⟩ := viewer_catches_up (Nat.le_refl addFuel) red_reached
  obtain ⟨⟨after, events⟩, done⟩ := total 0 .flush trivial (.inr rfl)
  exact ⟨(pending rfl).1, after, events, done, (flushed 0 after events done).2.1⟩

end Picture

end NoriShell.Rdp

import NoriShell.Desktop.FrameLaws
import NoriShell.Vnc.Publisher

namespace NoriShell.Vnc

open Collections Collections.Check Desktop

section

variable {width height : UInt16} {added : List DesktopRect} {region : DirtyRegion}

theorem tidy_self (h : Tidy width height added region) : Tidy width height region.rects region where
  kept := h.kept
  bounded := h.bounded
  covers rect mem _ inside := ⟨rect, mem, inside⟩

theorem tidy_empty : Tidy width height [] ({} : DirtyRegion) := Tidy.start

theorem Tidy.ne_nil (h : Tidy width height added region) {rect : DesktopRect} (mem : rect ∈ added)
    (fits : rect.fits width height = true) : region.rects ≠ [] := by
  have sides := DesktopRect.fits_iff.mp fits
  have corner : (rect.x.toNat, rect.y.toNat) ∈ rect.pixels := by
    rw [DesktopRect.mem_pixels, DesktopRect.right, DesktopRect.bottom]
    omega
  obtain ⟨covering, inside, -⟩ := h.covers rect mem _ corner
  exact List.ne_nil_of_mem inside

end

/-- The frame is as the server drew it; the viewer is right outside the dirty regions, and so
is the completed surface outside the update in progress. -/
structure Screen.Showing (s : Screen) (f : DesktopFrame) : Prop where
  frame : s.publisher.frame = some f
  sound : f.Sound
  progress : Tidy f.width f.height s.publisher.inProgress.rects s.publisher.inProgress
  committed : Tidy f.width f.height s.publisher.committed.rects s.publisher.committed
  shown : s.publisher.requiresFull = false → ∃ v, s.viewer = some v ∧ v.Synced f fun p =>
    ¬Covers s.publisher.committed.rects p ∧ ¬Covers s.publisher.inProgress.rects p
  whole : s.publisher.ready = true → ∃ c, s.completed = some c ∧ c.Synced f fun p =>
    ¬Covers s.publisher.inProgress.rects p
  calm : s.underway = false → s.publisher.inProgress.rects = []
  busy : s.underway = true → s.publisher.inProgress.rects ≠ [] ∨
    s.publisher.ready = false ∧ s.publisher.requiresFull = true
  marked : s.unpublished = true → s.publisher.requiresFull = true ∨ s.publisher.committed.rects ≠ []
  owed : s.unpublished = true → s.underway = false → s.publisher.ready = true

def Screen.Consistent (s : Screen) : Prop := s = {} ∨ ∃ f, s.Showing f

structure Screen.Exact (before after : Screen) (event : EngineEvent) : Prop where
  viewer : ∃ f, after.viewer = some f ∧ after.completed = some f
  sized : ∀ patch, event = .framePatch patch →
    ∃ v, before.viewer = some v ∧ v.width = patch.width ∧ v.height = patch.height

section

variable {s : Screen} {f : DesktopFrame}

theorem Synced.refl {S : Nat × Nat → Prop} : f.Synced f S := ⟨rfl, rfl, rfl, fun _ _ => rfl⟩

theorem Screen.Showing.publish (h : s.Showing f) (now : Instant)
    (ready : s.publisher.ready = true) (idle : s.publisher.inProgress.rects = []) :
    ∃ event, s.publisher.publish now = .ok (s.publisher.published now, some event) ∧
      view s.viewer event = some f ∧ s.completed = some f ∧
      ∀ patch, event = .framePatch patch →
        ∃ v, s.viewer = some v ∧ v.width = patch.width ∧ v.height = patch.height := by
  have completed : s.completed = some f := by
    obtain ⟨c, completed, synced⟩ := h.whole ready
    have same : c = f := (synced.mono fun p _ => by simp [idle, Covers]).eq
    rw [completed, same]
  have pending : s.publisher.hasPending = true := by simp [FramePublisher.hasPending, ready, h.frame]
  have publish {event : EngineEvent} (next : s.publisher.nextEvent f = .ok event) :
      s.publisher.publish now = .ok (s.publisher.published now, some event) := by
    rw [FramePublisher.publish, if_pos pending, FramePublisher.theFrame, h.frame]
    exact Check.bind_eq_ok.mpr ⟨f, rfl, Check.bind_eq_ok.mpr ⟨event, next, rfl⟩⟩
  by_cases full : s.publisher.requiresFull = true ∨
      f.width.toNat * f.height.toNat * 6 ≤ s.publisher.committed.area * 10
  · exact ⟨.frame f, publish (if_pos full), rfl, completed, fun patch same => by cases same⟩
  · obtain ⟨partly, -⟩ := not_or.mp full
    obtain ⟨v, viewer, synced⟩ := h.shown (Bool.eq_false_of_not_eq_true partly)
    have outside : v.Synced f fun p => ¬Covers s.publisher.committed.rects p :=
      synced.mono fun p notCovered => ⟨notCovered, by simp [idle, Covers]⟩
    obtain ⟨patch, extracted, width, height, applied⟩ :=
      outside.applyPatch h.sound h.committed.kept.fits
    have next : s.publisher.nextEvent f = .ok (.framePatch patch) := by
      rw [FramePublisher.nextEvent, if_neg full, extracted]
      rfl
    refine ⟨.framePatch patch, publish next, ?_, completed, ?_⟩
    · simp [view, viewer, applied, Except.toOption]
    · intro _ same
      cases same
      exact ⟨v, viewer, outside.width.trans width.symm, outside.height.trans height.symm⟩

theorem Screen.Showing.published (h : s.Showing f) (now : Instant) (calm : s.underway = false)
    {event : EngineEvent} (viewed : view s.viewer event = some f) :
    (s.follow (s.publisher.published now) (some event)).Showing f where
  frame := h.frame
  sound := h.sound
  progress := h.progress
  committed := tidy_empty
  shown _ := ⟨f, viewed, Synced.refl⟩
  whole := nofun
  calm := h.calm
  busy underway := absurd (calm.symm.trans underway) nofun
  marked := nofun
  owed := nofun

end

section

variable {s after : Screen} {f : DesktopFrame} {fuel : Nat} {event : Option EngineEvent}
  {publisher : FramePublisher}

theorem setResolution_showing {width height : UInt16} (fresh : (s.publisher.frame.any fun frame =>
      frame.width = width && frame.height = height) = false)
    (done : s.publisher.setResolution width height = .ok publisher) :
    ∃ f, ({ s with underway := true }.follow publisher none).Showing f := by
  rw [FramePublisher.setResolution, if_neg (by simp [fresh]), Check.bind_eq_ok] at done
  obtain ⟨frame, made, same⟩ := done
  cases same
  exact ⟨frame, {
    frame := rfl
    sound := DesktopFrame.new_sound made
    progress := tidy_empty
    committed := tidy_empty
    shown := nofun
    whole := nofun
    calm := nofun
    busy := fun _ => .inr ⟨rfl, rfl⟩
    marked := fun _ => .inl rfl
    owed := nofun }⟩

theorem theFrame_eq_ok : publisher.theFrame = .ok f ↔ publisher.frame = some f := by
  unfold FramePublisher.theFrame
  split <;> simp_all

theorem Screen.Showing.draw (h : s.Showing f) (enough : addFuel ≤ fuel)
    {operation : FrameOperation} (done : draw fuel s.publisher operation = .ok publisher) :
    ∃ f, ({ s with underway := true }.follow publisher none).Showing f := by
  simp only [Vnc.draw, FramePublisher.mark, Check.bind_eq_ok, theFrame_eq_ok,
    DesktopFrame.orPanic_eq_ok] at done
  obtain ⟨old, here, drawn, performed, region, added, same⟩ := done
  cases same
  cases h.frame.symm.trans here
  obtain ⟨redraws, fits, -⟩ := FrameOperation.perform_redraws performed
  obtain ⟨out, adds, tidy⟩ := h.progress.add (.inr fits)
  cases (adds fuel enough).symm.trans added
  rw [← redraws.width, ← redraws.height] at tidy
  have outside {p : Nat × Nat} (notCovered : ¬Covers region.rects p) :
      ¬Covers s.publisher.inProgress.rects p ∧ p ∉ operation.destination.pixels := by
    refine ⟨fun ⟨rect, mem, inside⟩ => notCovered ?_, fun inside => notCovered ?_⟩
    · exact tidy.covers rect (by simp [mem]) p inside
    · exact tidy.covers operation.destination (by simp) p inside
  have committed := h.committed
  rw [← redraws.width, ← redraws.height] at committed
  rw [← redraws.width, ← redraws.height] at fits
  exact ⟨drawn, {
    frame := rfl
    sound := redraws.sound h.sound
    progress := tidy_self tidy
    committed := committed
    shown := fun partly => by
      obtain ⟨v, viewer, synced⟩ := h.shown partly
      refine ⟨v, viewer, (synced.redraw redraws).mono fun p notCovered => ?_⟩
      exact ⟨⟨notCovered.1, (outside notCovered.2).1⟩, (outside notCovered.2).2⟩
    whole := fun ready => by
      obtain ⟨c, completed, synced⟩ := h.whole ready
      exact ⟨c, completed, (synced.redraw redraws).mono fun p notCovered => outside notCovered⟩
    calm := nofun
    busy := fun _ => .inl (Tidy.ne_nil tidy (by simp) fits)
    marked := h.marked
    owed := nofun }⟩

theorem Screen.Showing.complete (h : s.Showing f) (enough : addFuel ≤ fuel) :
    ∃ committed, s.publisher.committed.extend fuel s.publisher.inProgress = some committed ∧
      Screen.Showing { s.note .framebufferUpdateComplete with
        publisher := { s.publisher with
          committed
          inProgress := {}
          ready := s.publisher.frame.isSome &&
            (s.publisher.requiresFull || !committed.rects.isEmpty) } } f := by
  obtain ⟨out, adds, tidy⟩ := h.committed.addAll fun rect mem => .inr (h.progress.kept.fits rect mem)
  have outside {p : Nat × Nat} (notCovered : ¬Covers out.rects p) :
      ¬Covers s.publisher.committed.rects p ∧ ¬Covers s.publisher.inProgress.rects p := by
    refine ⟨fun ⟨rect, mem, inside⟩ => notCovered ?_, fun ⟨rect, mem, inside⟩ => notCovered ?_⟩
    · exact tidy.covers rect (by simp [mem]) p inside
    · exact tidy.covers rect (by simp [mem]) p inside
  have grown {rect : DesktopRect}
      (mem : rect ∈ s.publisher.committed.rects ∨ rect ∈ s.publisher.inProgress.rects) :
      out.rects ≠ [] := by
    refine Tidy.ne_nil tidy (List.mem_append.mpr mem) ?_
    exact mem.elim (h.committed.kept.fits rect) (h.progress.kept.fits rect)
  have marked (pending : (s.unpublished || s.underway) = true) :
      s.publisher.requiresFull = true ∨ out.rects ≠ [] := by
    rcases Bool.or_eq_true_iff.mp pending with unpublished | underway
    · refine (h.marked unpublished).imp_right fun some_ => ?_
      obtain ⟨rect, mem⟩ := List.exists_mem_of_ne_nil _ some_
      exact grown (.inl mem)
    · rcases h.busy underway with some_ | ⟨-, full⟩
      · obtain ⟨rect, mem⟩ := List.exists_mem_of_ne_nil _ some_
        exact .inr (grown (.inr mem))
      · exact .inl full
  refine ⟨out, adds fuel enough, {
    frame := h.frame
    sound := h.sound
    progress := tidy_empty
    committed := tidy_self tidy
    shown := fun partly => ?_
    whole := fun _ => ⟨f, h.frame, Synced.refl⟩
    calm := fun _ => rfl
    busy := nofun
    marked := marked
    owed := fun pending _ => ?_ }⟩
  · obtain ⟨v, viewer, synced⟩ := h.shown partly
    exact ⟨v, viewer, synced.mono fun p notCovered => outside notCovered.1⟩
  · have := marked pending
    simp only [h.frame, Option.isSome_some, Bool.true_and, Bool.or_eq_true, Bool.not_eq_true',
      List.isEmpty_eq_false_iff]
    exact this

theorem Screen.Showing.stepComplete (h : s.Showing f) (now : Instant) (enough : addFuel ≤ fuel) :
    ∃ after event, s.step fuel now (.server .framebufferUpdateComplete) = .ok (after, event) ∧
      after.Showing f ∧ (∀ published, event = some published → Screen.Exact s after published) ∧
      ((s.unpublished || s.underway) = true → s.publisher.due now = true → event ≠ none) := by
  obtain ⟨committed, extended, showing⟩ := h.complete enough
  generalize same : ({ s.publisher with
    committed
    inProgress := {}
    ready := s.publisher.frame.isSome &&
      (s.publisher.requiresFull || !committed.rects.isEmpty) } : FramePublisher) = next at showing
  have last : next.due now = s.publisher.due now := by rw [← same]; rfl
  have idle : next.inProgress.rects = [] := by rw [← same]
  have step {publisher : FramePublisher} {event : Option EngineEvent}
      (done : (if next.due now then next.publish now else .ok (next, none)) =
        .ok (publisher, event)) :
      s.step fuel now (.server .framebufferUpdateComplete) =
        .ok ((s.note .framebufferUpdateComplete).follow publisher event, event) := by
    have complete : s.publisher.complete fuel now = .ok (publisher, event) := by
      rw [FramePublisher.complete, extended, ← done, ← same]
      rfl
    rw [Screen.step, handleServerEvent, complete]
    rfl
  cases due : next.due now with
  | false =>
    rw [due, if_neg Bool.false_ne_true] at step
    refine ⟨_, _, step rfl, showing, nofun, fun _ now_ => ?_⟩
    exact absurd (due.symm.trans (last.trans now_)) nofun
  | true =>
    rw [due, if_pos rfl] at step
    cases ready : next.ready with
    | true =>
      obtain ⟨event, published, viewed, completed, sized⟩ := showing.publish now ready idle
      refine ⟨_, _, step published, showing.published now rfl viewed, ?_, nofun⟩
      rintro _ ⟨⟩
      exact ⟨⟨f, viewed, completed⟩, sized⟩
    | false =>
      have nothing : next.publish now = .ok (next, none) := by
        simp [FramePublisher.publish, FramePublisher.hasPending, ready]
      refine ⟨_, _, step nothing, showing, nofun, fun pending _ => ?_⟩
      exact absurd (showing.owed pending rfl) (by simp [ready])

theorem Screen.Showing.stepTimer (h : s.Showing f) (fuel : Nat) (now : Instant)
    (flush : s.publisher.flushReady = true) :
    ∃ after event, s.step fuel now .timer = .ok (after, some event) ∧ after.Showing f ∧
      Screen.Exact s after event := by
  simp only [FramePublisher.flushReady, FramePublisher.hasPending, Bool.and_eq_true,
    List.isEmpty_iff] at flush
  obtain ⟨⟨ready, -⟩, idle⟩ := flush
  have calm : s.underway = false := by
    cases underway : s.underway with
    | false => rfl
    | true =>
      rcases h.busy underway with some_ | ⟨notReady, -⟩
      · exact absurd idle some_
      · exact absurd (notReady.symm.trans ready) nofun
  obtain ⟨event, published, viewed, completed, sized⟩ := h.publish now ready idle
  refine ⟨_, event, ?_, h.published now calm viewed, ⟨⟨f, viewed, completed⟩, sized⟩⟩
  rw [Screen.step, published]
  rfl

end

section

variable {s after : Screen} {fuel : Nat} {now : Instant} {input : Input}
  {event : Option EngineEvent}

theorem blank_complete :
    ({} : Screen).step fuel now (.server .framebufferUpdateComplete) = .ok ({}, none) := by
  simp only [Screen.step, handleServerEvent, FramePublisher.complete, DirtyRegion.extend]
  rfl

theorem Screen.Consistent.step (h : s.Consistent) (enough : addFuel ≤ fuel)
    (enabled : s.enabled input = true) (done : s.step fuel now input = .ok (after, event)) :
    after.Consistent ∧ ∀ published, event = some published → Screen.Exact s after published := by
  cases input with
  | timer =>
    rcases h with rfl | ⟨f, showing⟩
    · cases enabled
    · obtain ⟨after', event', step, showing, exact_⟩ := showing.stepTimer fuel now enabled
      cases step.symm.trans done
      refine ⟨.inr ⟨f, showing⟩, ?_⟩
      rintro _ ⟨⟩
      exact exact_
  | server serverEvent =>
    cases serverEvent with
    | framebufferUpdateComplete =>
      rcases h with rfl | ⟨f, showing⟩
      · cases blank_complete.symm.trans done
        exact ⟨.inl rfl, nofun⟩
      · obtain ⟨after', event', step, showing, exact_, -⟩ :=
          showing.stepComplete now enough
        cases step.symm.trans done
        exact ⟨.inr ⟨f, showing⟩, exact_⟩
    | setResolution width height =>
      simp only [Screen.step, handleServerEvent, Check.bind_eq_ok] at done
      obtain ⟨_, ⟨publisher, resized, made⟩, same⟩ := done
      cases made
      cases same
      refine ⟨?_, nofun⟩
      cases echo : s.publisher.frame.any fun frame =>
          frame.width = width && frame.height = height with
      | true =>
        rw [FramePublisher.setResolution, if_pos echo] at resized
        cases resized
        rw [Screen.note, if_pos echo]
        exact h
      | false =>
        rw [Screen.note, if_neg (by simp [echo])]
        exact .inr (setResolution_showing echo resized)
    | rawImage rect bytes =>
      simp only [Screen.step, handleServerEvent, Check.bind_eq_ok] at done
      obtain ⟨_, ⟨_, -, _, -, publisher, drawn, made⟩, same⟩ := done
      cases made
      cases same
      refine ⟨?_, nofun⟩
      rcases h with rfl | ⟨f, showing⟩
      · cases drawn
      · exact .inr (showing.draw enough drawn)
    | copy destination source =>
      simp only [Screen.step, handleServerEvent, Check.bind_eq_ok] at done
      obtain ⟨_, ⟨publisher, drawn, made⟩, same⟩ := done
      cases made
      cases same
      refine ⟨?_, nofun⟩
      rcases h with rfl | ⟨f, showing⟩
      · cases drawn
      · exact .inr (showing.draw enough drawn)

theorem theFrame_avoids (publisher : FramePublisher) : Avoids .panicked publisher.theFrame := by
  unfold FramePublisher.theFrame
  split
  · exact .ok
  · exact .error nofun

theorem setResolution_avoids (publisher : FramePublisher) (width height : UInt16) :
    Avoids .panicked (publisher.setResolution width height) := by
  unfold FramePublisher.setResolution
  split
  · exact .ok
  · exact .bind (DesktopFrame.new_avoids width height) fun _ => .ok

theorem draw_avoids (h : s.Consistent) (enough : addFuel ≤ fuel) (operation : FrameOperation) :
    Avoids .panicked (draw fuel s.publisher operation) := by
  refine .bind_of_ok (theFrame_avoids _) fun f here => .bind_of_ok ?_ fun drawn performed => ?_
  · cases operation with
    | write rect rgba => exact DesktopFrame.writeRect_avoids f rect rgba
    | copy sourceX sourceY rect => exact DesktopFrame.copyRect_avoids f sourceX sourceY rect
  · rcases h with rfl | ⟨f', showing⟩
    · cases here
    · cases showing.frame.symm.trans (theFrame_eq_ok.mp here)
      obtain ⟨-, fits, -⟩ := FrameOperation.perform_redraws performed
      obtain ⟨out, adds, -⟩ := showing.progress.add (.inr fits)
      simp only [FramePublisher.mark, adds fuel enough]
      exact .ok

theorem step_avoids (h : s.Consistent) (enough : addFuel ≤ fuel) (now : Instant)
    (enabled : s.enabled input = true) : Avoids .panicked (s.step fuel now input) := by
  cases input with
  | timer =>
    rcases h with rfl | ⟨f, showing⟩
    · cases enabled
    · obtain ⟨after, event, step, -⟩ := showing.stepTimer fuel now enabled
      rw [step]
      exact .ok
  | server serverEvent =>
    cases serverEvent with
    | framebufferUpdateComplete =>
      rcases h with rfl | ⟨f, showing⟩
      · rw [blank_complete]
        exact .ok
      · obtain ⟨after, event, step, -⟩ := showing.stepComplete now enough
        rw [step]
        exact .ok
    | setResolution width height =>
      exact .bind (.bind (setResolution_avoids _ width height) fun _ => .ok) fun _ => .ok
    | rawImage rect bytes =>
      exact .bind (.bind (DesktopFrame.frameLen_avoids _ _) fun _ => .bind (.reject nofun) fun _ =>
        .bind (draw_avoids h enough _) fun _ => .ok) fun _ => .ok
    | copy destination source =>
      exact .bind (.bind (draw_avoids h enough _) fun _ => .ok) fun _ => .ok

theorem Screen.Reached.consistent (enough : addFuel ≤ fuel) (reached : Screen.Reached fuel s) :
    s.Consistent := by
  induction reached with
  | start => exact .inl rfl
  | step reached enabled done ih => exact (ih.step enough enabled done).1

/-- After every published event the viewer holds exactly the decode surface as of the last
complete update, and it had a frame of the size of every patch.  Publishing never fails, and
what was completed is published at the next complete update that is due, or by the timer,
which is ready as soon as no later update is under way. -/
theorem viewer_exact (enough : addFuel ≤ fuel) (reached : Screen.Reached fuel s) (now : Instant)
    (enabled : s.enabled input = true) :
    s.step fuel now input ≠ .error .panicked ∧
    (input = .timer ∨ input = .server .framebufferUpdateComplete →
      ∃ after event, s.step fuel now input = .ok (after, event)) ∧
    (s.unpublished = true → s.underway = false → s.publisher.flushReady = true) ∧
    ∀ after event, s.step fuel now input = .ok (after, event) →
      (∀ published, event = some published → Screen.Exact s after published) ∧
      (input = .timer → event ≠ none) ∧
      (input = .server .framebufferUpdateComplete → (s.unpublished || s.underway) = true →
        s.publisher.due now = true → event ≠ none) := by
  have consistent := reached.consistent enough
  refine ⟨step_avoids consistent enough now enabled, ?_, ?_, fun after event done =>
    ⟨(consistent.step enough enabled done).2, ?_, ?_⟩⟩
  · rcases consistent with rfl | ⟨f, showing⟩
    · rintro (rfl | rfl)
      · cases enabled
      · exact ⟨_, _, blank_complete⟩
    · rintro (rfl | rfl)
      · obtain ⟨after, event, step, -⟩ := showing.stepTimer fuel now enabled
        exact ⟨after, some event, step⟩
      · obtain ⟨after, event, step, -⟩ := showing.stepComplete now enough
        exact ⟨after, event, step⟩
  · intro unpublished calm
    rcases consistent with rfl | ⟨f, showing⟩
    · cases unpublished
    · simp [FramePublisher.flushReady, FramePublisher.hasPending, showing.owed unpublished calm,
        showing.frame, showing.calm calm]
  · rintro rfl
    rcases consistent with rfl | ⟨f, showing⟩
    · cases enabled
    · obtain ⟨after', event', step, -⟩ := showing.stepTimer fuel now enabled
      cases step.symm.trans done
      nofun
  · rintro rfl pending due
    rcases consistent with rfl | ⟨f, showing⟩
    · cases pending
    · obtain ⟨after', event', step, -, -, published⟩ := showing.stepComplete now enough
      cases step.symm.trans done
      exact published pending due

def onePixel : Screen where
  publisher := {
    frame := some ⟨1, 1, [1, 2, 3, 255]⟩
    inProgress := ⟨[⟨0, 0, 1, 1⟩]⟩
    requiresFull := true }
  underway := true

theorem onePixel_reached : Screen.Reached addFuel onePixel := by
  let sized : Screen :=
    { publisher := { frame := some ⟨1, 1, [0, 0, 0, 0]⟩, requiresFull := true }, underway := true }
  have resized : ({} : Screen).step addFuel 0 (.server (.setResolution 1 1)) = .ok (sized, none) :=
    rfl
  have drawn : sized.step addFuel 0 (.server (.rawImage ⟨0, 0, 1, 1⟩ [1, 2, 3, 4])) =
    .ok (onePixel, none) := rfl
  exact .step (.step .start rfl resized) rfl drawn

theorem viewer_exact_onePixel :
    ∃ after, onePixel.step addFuel 5 (.server .framebufferUpdateComplete) =
        .ok (after, some (.frame ⟨1, 1, [1, 2, 3, 255]⟩)) ∧
      Screen.Exact onePixel after (.frame ⟨1, 1, [1, 2, 3, 255]⟩) := by
  have enabled : onePixel.enabled (.server .framebufferUpdateComplete) = true := rfl
  obtain ⟨-, -, -, published⟩ := viewer_exact (Nat.le_refl addFuel) onePixel_reached 5 enabled
  exact ⟨_, rfl, (published _ _ rfl).1 _ rfl⟩

end

end NoriShell.Vnc

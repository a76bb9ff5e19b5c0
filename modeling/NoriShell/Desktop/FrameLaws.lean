import NoriShell.Desktop.Frame
import NoriShell.Desktop.RegionLaws

namespace NoriShell.Desktop

open Collections

def pixelOf (stride : UInt16) (i : Nat) : Nat × Nat := (i / 4 % stride.toNat, i / 4 / stride.toNat)

def InRow (stride : UInt16) (rect : DesktopRect) (row i : Nat) : Prop :=
  rowStart stride rect.x rect.y row ≤ i ∧
    i < rowStart stride rect.x rect.y row + rect.width.toNat * 4

section

variable {width height : UInt16} {rect : DesktopRect} {row i : Nat}

theorem inRow_iff : InRow width rect row i ↔
    (rect.y.toNat + row) * width.toNat + rect.x.toNat ≤ i / 4 ∧
      i / 4 < (rect.y.toNat + row) * width.toNat + rect.right := by
  rw [InRow, rowStart, DesktopRect.right]
  omega

theorem pixelOf_of_inRow (fits : rect.fits width height = true) (inside : row < rect.height.toNat)
    (h : InRow width rect row i) : pixelOf width i ∈ rect.pixels := by
  rw [DesktopRect.fits_iff] at fits
  rw [inRow_iff] at h
  have split : i / 4 / width.toNat = rect.y.toNat + row ∧
      i / 4 % width.toNat = i / 4 - (rect.y.toNat + row) * width.toNat := by
    rw [Nat.div_mod_unique (by omega), Nat.mul_comm width.toNat]
    omega
  rw [DesktopRect.mem_pixels, pixelOf, split.1, split.2, DesktopRect.bottom]
  omega

theorem inRow_of_pixelOf (h : pixelOf width i ∈ rect.pixels) :
    ∃ row < rect.height.toNat, InRow width rect row i := by
  simp only [DesktopRect.mem_pixels, pixelOf, DesktopRect.bottom] at h
  refine ⟨i / 4 / width.toNat - rect.y.toNat, by omega, inRow_iff.mpr ?_⟩
  have whole := Nat.div_add_mod (i / 4) width.toNat
  rw [Nat.mul_comm] at whole
  rw [Nat.add_sub_cancel' h.2.1]
  omega

theorem row_le (fits : rect.fits width height = true) (inside : row < rect.height.toNat) :
    rowStart width rect.x rect.y row + rect.width.toNat * 4 ≤ width.toNat * height.toNat * 4 := by
  rw [DesktopRect.fits_iff, DesktopRect.right, DesktopRect.bottom] at fits
  have rows : (rect.y.toNat + row + 1) * width.toNat ≤ height.toNat * width.toNat :=
    Nat.mul_le_mul_right _ (by omega)
  rw [Nat.succ_mul, Nat.mul_comm height.toNat] at rows
  rw [rowStart]
  omega

end

namespace DesktopFrame

variable {frame after source : DesktopFrame} {rect : DesktopRect}

def Sound (frame : DesktopFrame) : Prop := frameLen frame.width frame.height = .ok frame.rgba.length

theorem Sound.length (h : frame.Sound) :
    frame.rgba.length = frame.width.toNat * frame.height.toNat * 4 := by
  unfold Sound frameLen at h
  dsimp only at h
  split at h
  · cases h
  · exact (Except.ok.inj h).symm

theorem checkRect_eq_ok : frame.checkRect rect = .ok () ↔
    rect.fits frame.width frame.height = true ∧ frame.Sound := by
  have outside : ¬(rect.width = 0 ∨ rect.height = 0 ∨ rect.right > frame.width.toNat ∨
      rect.bottom > frame.height.toNat) ↔ rect.fits frame.width frame.height = true := by
    rw [DesktopRect.fits_iff, ← UInt16.toNat_inj, ← UInt16.toNat_inj, UInt16.toNat_zero]
    omega
  rw [checkRect, Check.bind_unit_eq_ok, Check.reject_eq_ok, outside, Check.bind_eq_ok, Sound]
  refine and_congr_right fun _ => ⟨?_, fun sound => ⟨_, sound, Check.reject_eq_ok.mpr (by simp)⟩⟩
  rintro ⟨len, sound, same⟩
  rwa [not_not.mp (Check.reject_eq_ok.mp same)]

structure Redraws (frame after : DesktopFrame) (rect : DesktopRect) : Prop where
  width : after.width = frame.width
  height : after.height = frame.height
  length : after.rgba.length = frame.rgba.length
  outside : ∀ i, pixelOf frame.width i ∉ rect.pixels → after.rgba[i]? = frame.rgba[i]?

theorem orPanic_eq_ok {α : Type} {o : Option α} {a : α} : orPanic o = .ok a ↔ o = some a := by
  cases o <;> simp [orPanic]

variable {bytes : List UInt8} {f : List UInt8 → Nat → Except EngineError (List UInt8)}
  {rows : List Nat} {S : Nat × Nat → Prop}

theorem redraws_of_rows (fits : rect.fits frame.width frame.height = true)
    (inside : ∀ row ∈ rows, row < rect.height.toNat)
    (step : ∀ before out row, f before row = .ok out → ∃ part : List UInt8,
      part.length = rect.width.toNat * 4 ∧
      overwrite? before (rowStart frame.width rect.x rect.y row) part = some out)
    (done : rows.foldlM f frame.rgba = .ok bytes) :
    frame.Redraws { frame with rgba := bytes } rect := by
  have kept : bytes.length = frame.rgba.length ∧
      ∀ i, pixelOf frame.width i ∉ rect.pixels → bytes[i]? = frame.rgba[i]? := by
    refine Check.foldlM_keeps (P := fun bytes => bytes.length = frame.rgba.length ∧
      ∀ i, pixelOf frame.width i ∉ rect.pixels → bytes[i]? = frame.rgba[i]?)
      (fun before out row mem ok ⟨length, same⟩ => ?_) done ⟨rfl, fun _ _ => rfl⟩
    obtain ⟨part, partLength, written⟩ := step before out row ok
    refine ⟨(overwrite?_eq_some written).2.1.trans length, fun i notIn => ?_⟩
    rw [overwrite?_outside written, same i notIn]
    rw [partLength]
    exact fun inRow => notIn (pixelOf_of_inRow fits (inside row mem) inRow)
  exact ⟨rfl, rfl, kept.1, kept.2⟩

theorem writeRect_redraws {rgba : List UInt8} (h : frame.writeRect rect rgba = .ok after) :
    frame.Redraws after rect ∧ rect.fits frame.width frame.height = true ∧ frame.Sound := by
  rw [writeRect, Check.bind_unit_eq_ok, checkRect_eq_ok] at h
  obtain ⟨⟨fits, sound⟩, h⟩ := h
  rw [Check.bind_unit_eq_ok, Check.bind_eq_ok] at h
  obtain ⟨-, bytes, done, same⟩ := h
  cases same
  refine ⟨redraws_of_rows fits (by simp) (fun before out row ok => ?_) done, fits, sound⟩
  obtain ⟨part, read, written⟩ := Check.bind_eq_ok.mp ok
  exact ⟨part, (slice?_eq_some (orPanic_eq_ok.mp read)).2.2, orPanic_eq_ok.mp written⟩

theorem copyRect_redraws {sourceX sourceY : UInt16}
    (h : frame.copyRect sourceX sourceY rect = .ok after) :
    frame.Redraws after rect ∧ rect.fits frame.width frame.height = true ∧ frame.Sound := by
  rw [copyRect, Check.bind_unit_eq_ok] at h
  obtain ⟨-, h⟩ := h
  rw [Check.bind_unit_eq_ok, checkRect_eq_ok] at h
  obtain ⟨⟨fits, sound⟩, h⟩ := h
  obtain ⟨bytes, done, same⟩ := Check.bind_eq_ok.mp h
  cases same
  refine ⟨redraws_of_rows fits (fun row mem => ?_) (fun before out row ok => ?_) done, fits, sound⟩
  · split at mem <;> simpa using mem
  · obtain ⟨part, read, written⟩ := Check.bind_eq_ok.mp ok
    exact ⟨part, (slice?_eq_some (orPanic_eq_ok.mp read)).2.2, orPanic_eq_ok.mp written⟩

def packedRow (source : DesktopFrame) (rect : DesktopRect) (row : Nat) : List UInt8 :=
  (source.rgba.drop (rowStart source.width rect.x rect.y row)).take (rect.width.toNat * 4)

theorem slice?_row (sound : source.Sound) (fits : rect.fits source.width source.height = true)
    {row : Nat} (inside : row < rect.height.toNat) :
    slice? source.rgba (rowStart source.width rect.x rect.y row) (rect.width.toNat * 4) =
      some (source.packedRow rect row) :=
  slice?_of_le (sound.length ▸ row_le fits inside)

theorem readRect_eq_ok (sound : source.Sound) (fits : rect.fits source.width source.height = true) :
    readRect source.rgba source.width rect =
      .ok ((List.range rect.height.toNat).flatMap (source.packedRow rect)) := by
  have rows : (List.range rect.height.toNat).mapM (fun row => orPanic
      (slice? source.rgba (rowStart source.width rect.x rect.y row) (rect.width.toNat * 4))) =
      .ok ((List.range rect.height.toNat).map (source.packedRow rect)) :=
    Check.mapM_of_ok fun row mem => orPanic_eq_ok.mpr
      (slice?_row sound fits (List.mem_range.mp mem))
  rw [readRect, rows, List.flatMap_def]
  rfl

theorem pasteRows (sound : source.Sound) (fits : rect.fits source.width source.height = true)
    (inside : ∀ row ∈ rows, row < rect.height.toNat)
    (step : ∀ bytes, ∀ row < rect.height.toNat, f bytes row = orPanic
      (overwrite? bytes (rowStart source.width rect.x rect.y row) (source.packedRow rect row)))
    (length : bytes.length = source.rgba.length) :
    ∃ out, rows.foldlM f bytes = .ok out ∧ out.length = source.rgba.length ∧
      ∀ i, (∃ row ∈ rows, InRow source.width rect row i) ∨ bytes[i]? = source.rgba[i]? →
        out[i]? = source.rgba[i]? := by
  induction rows generalizing bytes with
  | nil => exact ⟨bytes, rfl, length, by simp⟩
  | cons row rows ih =>
    have less := inside row List.mem_cons_self
    have read := slice?_row sound fits less
    obtain ⟨inBounds, -, partLength⟩ := slice?_eq_some read
    obtain ⟨next, written⟩ := overwrite?_of_le
      (show _ + (source.packedRow rect row).length ≤ bytes.length by
        rw [partLength, length]; exact inBounds)
    obtain ⟨out, done, outLength, agrees⟩ := ih
      (fun row mem => inside row (List.mem_cons_of_mem _ mem))
      ((overwrite?_eq_some written).2.1.trans length)
    refine ⟨out, ?_, outLength, fun i synced => agrees i ?_⟩
    · rw [List.foldlM_cons, step bytes row less, written]
      exact done
    · rcases synced with ⟨r, mem, inRow⟩ | same
      · rcases List.mem_cons.mp mem with rfl | mem
        · exact .inr (overwrite?_agrees read written (.inl inRow))
        · exact .inl ⟨r, mem, inRow⟩
      · exact .inr (overwrite?_agrees read written (.inr same))

/-- The frame has the size of `source` and agrees with it on the pixels in `S`. -/
structure Synced (frame source : DesktopFrame) (S : Nat × Nat → Prop) : Prop where
  width : frame.width = source.width
  height : frame.height = source.height
  length : frame.rgba.length = source.rgba.length
  agrees : ∀ i, S (pixelOf source.width i) → frame.rgba[i]? = source.rgba[i]?

theorem Synced.writeRect (h : frame.Synced source S) (sound : source.Sound)
    (fits : rect.fits source.width source.height = true) :
    ∃ after, frame.writeRect rect
        ((List.range rect.height.toNat).flatMap (source.packedRow rect)) = .ok after ∧
      after.Synced source fun p => p ∈ rect.pixels ∨ S p := by
  have rowLength : ∀ row < rect.height.toNat,
      (source.packedRow rect row).length = rect.width.toNat * 4 :=
    fun row less => (slice?_eq_some (slice?_row sound fits less)).2.2
  obtain ⟨bytes, done, length, agrees⟩ := pasteRows sound fits
    (fun row (mem : row ∈ List.range rect.height.toNat) => List.mem_range.mp mem)
    (f := fun bytes row => do
      let part ← orPanic (slice? ((List.range rect.height.toNat).flatMap (source.packedRow rect))
        (row * (rect.width.toNat * 4)) (rect.width.toNat * 4))
      orPanic (overwrite? bytes (rowStart frame.width rect.x rect.y row) part))
    (fun bytes row less => by rw [slice?_flatMap rowLength less, h.width]; rfl) h.length
  have check : frame.checkRect rect = .ok () := by
    rw [checkRect_eq_ok, Sound, h.width, h.height, h.length]
    exact ⟨fits, sound⟩
  refine ⟨{ frame with rgba := bytes }, ?_, h.width, h.height, length, fun i synced => ?_⟩
  · rw [DesktopFrame.writeRect, check]
    refine Check.bind_unit_eq_ok.mpr ⟨rfl, Check.bind_unit_eq_ok.mpr
      ⟨Check.reject_eq_ok.mpr ?_, Check.bind_eq_ok.mpr ⟨bytes, done, rfl⟩⟩⟩
    rw [not_not, length_flatMap_range rowLength, Nat.mul_comm]
  · refine agrees i (synced.imp (fun inside => ?_) (h.agrees i))
    obtain ⟨row, less, inRow⟩ := inRow_of_pixelOf inside
    exact ⟨row, List.mem_range.mpr less, inRow⟩

theorem extractPatch_eq_ok {region : DirtyRegion} (sound : source.Sound)
    (fits : ∀ rect ∈ region.rects, rect.fits source.width source.height = true) :
    source.extractPatch region = .ok
      { width := source.width
        height := source.height
        rects := region.rects.map fun rect =>
          (rect, (List.range rect.height.toNat).flatMap (source.packedRow rect)) } := by
  have rects := Check.mapM_of_ok (ε := EngineError) (l := region.rects)
    (f := fun rect => do
      source.checkRect rect
      return (rect, ← readRect source.rgba source.width rect))
    (g := fun rect => (rect, (List.range rect.height.toNat).flatMap (source.packedRow rect)))
    fun rect mem => by
      rw [checkRect_eq_ok.mpr ⟨fits rect mem, sound⟩, readRect_eq_ok sound (fits rect mem)]
      rfl
  rw [extractPatch, rects]
  rfl

theorem Synced.applyRects (h : frame.Synced source S)
    (sound : source.Sound) {rects : List DesktopRect}
    (fits : ∀ rect ∈ rects, rect.fits source.width source.height = true) :
    ∃ after, (rects.map fun rect =>
        (rect, (List.range rect.height.toNat).flatMap (source.packedRow rect))).foldlM
        (fun frame entry => frame.writeRect entry.1 entry.2) frame = .ok after ∧
      after.Synced source fun p => Covers rects p ∨ S p := by
  induction rects generalizing frame S with
  | nil => exact ⟨frame, rfl, h.width, h.height, h.length, by simpa [Covers] using h.agrees⟩
  | cons rect rects ih =>
    obtain ⟨next, written, synced⟩ := h.writeRect sound (fits rect List.mem_cons_self)
    obtain ⟨after, done, synced⟩ := ih synced fun rect mem => fits rect (List.mem_cons_of_mem _ mem)
    refine ⟨after, ?_, synced.width, synced.height, synced.length, fun i covered => ?_⟩
    · rw [List.map_cons, List.foldlM_cons, written]
      exact done
    · apply synced.agrees i
      rcases covered with ⟨other, mem, inside⟩ | already
      · rcases List.mem_cons.mp mem with rfl | mem
        · exact .inr (.inl inside)
        · exact .inl ⟨other, mem, inside⟩
      · exact .inr (.inr already)

theorem Synced.eq (h : frame.Synced source fun _ => True) : frame = source := by
  obtain ⟨width, height, -, agrees⟩ := h
  have rgba : frame.rgba = source.rgba := List.ext_getElem? fun i => agrees i trivial
  cases frame
  cases source
  simp_all

theorem Synced.applyPacked {rects : List DesktopRect}
    (h : frame.Synced source fun p => ¬Covers rects p) (sound : source.Sound)
    (fits : ∀ rect ∈ rects, rect.fits source.width source.height = true) :
    frame.applyPatch {
      width := source.width
      height := source.height
      rects := rects.map fun rect =>
        (rect, (List.range rect.height.toNat).flatMap (source.packedRow rect)) } = .ok source := by
  obtain ⟨result, applied, updated⟩ := h.applyRects sound fits
  have whole : result.Synced source fun _ => True :=
    ⟨updated.width, updated.height, updated.length, fun i _ => updated.agrees i (Classical.em _)⟩
  rw [DesktopFrame.applyPatch, Check.bind_unit_eq_ok]
  exact ⟨Check.reject_eq_ok.mpr (by simp [h.width, h.height]), whole.eq ▸ applied⟩

theorem Synced.applyPatch {region : DirtyRegion}
    (h : frame.Synced source fun p => ¬Covers region.rects p) (sound : source.Sound)
    (fits : ∀ rect ∈ region.rects, rect.fits source.width source.height = true) :
    ∃ patch, source.extractPatch region = .ok patch ∧ patch.width = source.width ∧
      patch.height = source.height ∧ frame.applyPatch patch = .ok source :=
  ⟨_, extractPatch_eq_ok sound fits, rfl, rfl, h.applyPacked sound fits⟩

theorem Synced.mono {S' : Nat × Nat → Prop} (h : frame.Synced source S)
    (less : ∀ p, S' p → S p) : frame.Synced source S' :=
  { h with agrees := fun i inside => h.agrees i (less _ inside) }

theorem Synced.redraw (h : frame.Synced source S) (redraws : source.Redraws after rect) :
    frame.Synced after fun p => S p ∧ p ∉ rect.pixels where
  width := h.width.trans redraws.width.symm
  height := h.height.trans redraws.height.symm
  length := h.length.trans redraws.length.symm
  agrees i inside := by
    rw [redraws.width] at inside
    rw [h.agrees i inside.1, redraws.outside i inside.2]

theorem Redraws.sound (h : frame.Redraws after rect) (sound : frame.Sound) : after.Sound := by
  rw [Sound, h.width, h.height, h.length]
  exact sound

theorem new_sound {width height : UInt16} (h : DesktopFrame.new width height = .ok frame) :
    frame.Sound := by
  obtain ⟨len, enough, same⟩ := Check.bind_eq_ok.mp h
  cases same
  rw [Sound, List.length_replicate]
  exact enough

open Check in
theorem frameLen_avoids (width height : UInt16) : Avoids .panicked (frameLen width height) := by
  unfold frameLen
  dsimp only
  split
  · exact .error nofun
  · exact .ok

open Check in
theorem new_avoids (width height : UInt16) : Avoids .panicked (DesktopFrame.new width height) :=
  .bind (frameLen_avoids _ _) fun _ => .ok

open Check in
theorem checkRect_avoids (frame : DesktopFrame) (rect : DesktopRect) :
    Avoids .panicked (frame.checkRect rect) :=
  .bind (.reject nofun) fun _ => .bind (frameLen_avoids _ _) fun _ => .reject nofun

theorem rows_ok
    {len : Nat} (step : ∀ bytes : List UInt8, bytes.length = len → ∀ row ∈ rows,
      ∃ out : List UInt8, f bytes row = .ok out ∧ out.length = len)
    (length : bytes.length = len) : ∃ out, rows.foldlM f bytes = .ok out := by
  induction rows generalizing bytes with
  | nil => exact ⟨bytes, rfl⟩
  | cons row rows ih =>
    obtain ⟨next, first, nextLength⟩ := step bytes length row List.mem_cons_self
    obtain ⟨out, rest⟩ := ih (fun bytes length row mem =>
      step bytes length row (List.mem_cons_of_mem _ mem)) nextLength
    exact ⟨out, by rw [List.foldlM_cons, first]; exact rest⟩

theorem row_ok {frame : DesktopFrame} {rect : DesktopRect} {row : Nat}
    (buffer : List UInt8) (start : Nat) (sound : frame.Sound)
    (fits : rect.fits frame.width frame.height = true)
    (inside : row < rect.height.toNat) (length : bytes.length = frame.rgba.length)
    (readable : start + rect.width.toNat * 4 ≤ buffer.length) :
    ∃ out : List UInt8, (orPanic (slice? buffer start (rect.width.toNat * 4)) >>= fun part =>
      orPanic (overwrite? bytes (rowStart frame.width rect.x rect.y row) part)) = .ok out ∧
      out.length = frame.rgba.length := by
  have read := slice?_of_le readable
  have partLength := (slice?_eq_some read).2.2
  have inBounds := row_le fits inside
  rw [← sound.length, ← length, ← partLength] at inBounds
  obtain ⟨out, written⟩ := overwrite?_of_le inBounds
  refine ⟨out, ?_, (overwrite?_eq_some written).2.1.trans length⟩
  rw [read]
  exact orPanic_eq_ok.mpr written

open Check in
theorem writeRect_avoids (frame : DesktopFrame) (rect : DesktopRect) (rgba : List UInt8) :
    Avoids .panicked (frame.writeRect rect rgba) := by
  refine .bind_of_ok (checkRect_avoids frame rect) fun _ checked => ?_
  obtain ⟨fits, sound⟩ := checkRect_eq_ok.mp checked
  refine .bind_of_ok (.reject nofun) fun _ exact_ => ?_
  rw [Check.reject_eq_ok, not_not] at exact_
  have step (bytes : List UInt8) (length : bytes.length = frame.rgba.length) (row : Nat)
      (mem : row ∈ List.range rect.height.toNat) :=
    row_ok rgba (row * (rect.width.toNat * 4)) sound fits (List.mem_range.mp mem) length (by
      rw [exact_, ← Nat.succ_mul, Nat.mul_comm (rect.width.toNat * 4)]
      exact Nat.mul_le_mul_right _ (List.mem_range.mp mem))
  obtain ⟨out, done⟩ := rows_ok step rfl
  rw [done]
  exact .ok

open Check in
theorem copyRect_avoids (frame : DesktopFrame) (sourceX sourceY : UInt16) (rect : DesktopRect) :
    Avoids .panicked (frame.copyRect sourceX sourceY rect) := by
  refine .bind_of_ok (checkRect_avoids frame _) fun _ source => ?_
  obtain ⟨readable, -⟩ := checkRect_eq_ok.mp source
  refine .bind_of_ok (checkRect_avoids frame rect) fun _ checked => ?_
  obtain ⟨fits, sound⟩ := checkRect_eq_ok.mp checked
  dsimp only
  generalize order : (if rect.y > sourceY then (List.range rect.height.toNat).reverse
    else List.range rect.height.toNat) = rows
  have step (bytes : List UInt8) (length : bytes.length = frame.rgba.length) (row : Nat)
      (mem : row ∈ rows) := by
    have inside : row < rect.height.toNat := by
      rw [← order] at mem
      split at mem <;> simpa using mem
    have inBounds := row_le readable inside
    rw [← sound.length, ← length] at inBounds
    exact row_ok bytes (rowStart frame.width sourceX sourceY row) sound fits inside length inBounds
  obtain ⟨out, done⟩ := rows_ok step rfl
  rw [done]
  exact .ok

end DesktopFrame

namespace FrameOperation

variable {before after : DesktopFrame}

theorem perform_redraws {operation : FrameOperation} (h : operation.perform before = .ok after) :
    before.Redraws after operation.destination ∧
      operation.destination.fits before.width before.height = true ∧ before.Sound := by
  cases operation with
  | write rect rgba => exact DesktopFrame.writeRect_redraws h
  | copy sourceX sourceY rect => exact DesktopFrame.copyRect_redraws h

theorem performs_synced {operations : List FrameOperation} (sound : before.Sound)
    (h : operations.foldlM perform before = .ok after) :
    after.Sound ∧ (∀ operation ∈ operations,
      operation.destination.fits after.width after.height = true) ∧
      before.Synced after fun p => ∀ operation ∈ operations, p ∉ operation.destination.pixels := by
  induction operations generalizing before with
  | nil =>
    cases h
    exact ⟨sound, by simp, rfl, rfl, rfl, fun _ _ => rfl⟩
  | cons operation operations ih =>
    rw [List.foldlM_cons, Check.bind_eq_ok] at h
    obtain ⟨next, first, rest⟩ := h
    obtain ⟨redraws, fits, -⟩ := perform_redraws first
    have nextSound : next.Sound := by
      rw [DesktopFrame.Sound, redraws.width, redraws.height, redraws.length]
      exact sound
    obtain ⟨afterSound, others, synced⟩ := ih nextSound rest
    rw [← redraws.width, synced.width, ← redraws.height, synced.height] at fits
    refine ⟨afterSound, List.forall_mem_cons.mpr ⟨fits, others⟩, ?_⟩
    have width := redraws.width.symm.trans synced.width
    refine ⟨width, redraws.height.symm.trans synced.height, redraws.length.symm.trans synced.length,
      fun i outside => ?_⟩
    obtain ⟨notFirst, notOthers⟩ := List.forall_mem_cons.mp outside
    rw [← synced.agrees i notOthers, redraws.outside i (width ▸ notFirst)]

theorem draws {operations : List FrameOperation} {fuel : Nat} {region out : DirtyRegion}
    (performed : operations.foldlM perform before = .ok after)
    (added : (operations.map destination).foldlM (DirtyRegion.add fuel) region = some out) :
    operations.foldlM (Canvas.draw fuel) ⟨before, region⟩ = .ok ⟨after, out⟩ := by
  induction operations generalizing before region with
  | nil =>
    cases performed
    cases added
    rfl
  | cons operation operations ih =>
    rw [List.foldlM_cons, Check.bind_eq_ok] at performed ⊢
    obtain ⟨next, first, rest⟩ := performed
    rw [List.map_cons, List.foldlM_cons, Option.bind_eq_bind, Option.bind_eq_some_iff] at added
    obtain ⟨nextRegion, firstAdded, restAdded⟩ := added
    refine ⟨⟨next, nextRegion⟩, ?_, ih rest restAdded⟩
    simp only [Canvas.draw, first, firstAdded]
    rfl

end FrameOperation

/-- Whatever was drawn, the patch of the dirty region turns the frame before into the
frame after. -/
theorem patch_reproduces {before after : DesktopFrame} (sound : before.Sound)
    {operations : List FrameOperation}
    (drawn : operations.foldlM FrameOperation.perform before = .ok after) :
    ∃ region, (∀ fuel ≥ addFuel,
        operations.foldlM (Canvas.draw fuel) ⟨before, {}⟩ = .ok ⟨after, region⟩) ∧
      ∃ patch, after.extractPatch region = .ok patch ∧ before.applyPatch patch = .ok after := by
  obtain ⟨afterSound, fits, synced⟩ := FrameOperation.performs_synced sound drawn
  have destinations : ∀ rect ∈ operations.map FrameOperation.destination,
      rect.isEmpty = true ∨ rect.fits after.width after.height = true := by
    intro rect mem
    obtain ⟨operation, inOperations, rfl⟩ := List.mem_map.mp mem
    exact .inr (fits operation inOperations)
  obtain ⟨region, added, tidy⟩ := Tidy.start.addAll destinations
  have outside : before.Synced after fun p => ¬Covers region.rects p :=
    synced.mono fun p notCovered operation mem inside =>
      notCovered (tidy.covers _ (List.mem_map_of_mem mem) p inside)
  obtain ⟨patch, extracted, -, -, applied⟩ := outside.applyPatch afterSound tidy.kept.fits
  exact ⟨region, fun fuel enough => FrameOperation.draws drawn (added fuel enough), patch,
    extracted, applied⟩

def smallFrame : DesktopFrame := { width := 2, height := 2, rgba := List.replicate 16 0 }

theorem patch_reproduces_small :
    ∃ after region patch, [FrameOperation.write ⟨1, 0, 1, 1⟩ [1, 2, 3, 4],
        .copy 1 0 ⟨0, 1, 1, 1⟩].foldlM FrameOperation.perform smallFrame = .ok after ∧
      after.extractPatch region = .ok patch ∧ smallFrame.applyPatch patch = .ok after := by
  have sound : smallFrame.Sound := by rw [DesktopFrame.Sound]; decide
  have drawn : [FrameOperation.write ⟨1, 0, 1, 1⟩ [1, 2, 3, 4],
      .copy 1 0 ⟨0, 1, 1, 1⟩].foldlM FrameOperation.perform smallFrame =
        .ok { smallFrame with rgba := [0, 0, 0, 0, 1, 2, 3, 4, 1, 2, 3, 4, 0, 0, 0, 0] } := by
    decide
  obtain ⟨region, -, patch, extracted, applied⟩ := patch_reproduces sound drawn
  exact ⟨_, region, patch, drawn, extracted, applied⟩

end NoriShell.Desktop

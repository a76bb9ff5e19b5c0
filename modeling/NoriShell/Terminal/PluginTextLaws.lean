import Mathlib
import NoriShell.Terminal.PluginText

namespace NoriShell.Terminal

open Collections

/-- How far a control sequence goes on, its final byte included. -/
def controlLength : List UInt8 → Nat
  | [] => 0
  | byte :: bytes => if isFinal byte then 1 else controlLength bytes + 1

def stringLength : List UInt8 → Nat
  | [] => 0
  | byte :: bytes =>
    if byte = bel then 1
    else if byte = esc ∧ bytes.head? = some backslash then 2 else stringLength bytes + 1

def sequenceLength : List UInt8 → Nat
  | [] => 0
  | byte :: bytes =>
    if byte = 0x5b then controlLength bytes + 1
    else if startsString byte then stringLength bytes + 1 else 1

/-- The bytes that lie in an escape sequence, the first `left` of them in one begun before. -/
def inSequence : Nat → List UInt8 → List Bool
  | _, [] => []
  | left + 1, _ :: bytes => true :: inSequence left bytes
  | 0, byte :: bytes =>
    if byte = esc then true :: inSequence (sequenceLength bytes) bytes
    else false :: inSequence 0 bytes

def IsControl (byte : UInt8) : Prop := byte < 0x20 ∧ byte ≠ 0x09 ∧ byte ≠ 0x0a ∧ byte ≠ 0x0d

namespace TerminalTextProjectionState

/-- The state as the escape sequences have it: in a string, an escape that ends nothing is as any
other byte. -/
def follow (byte : UInt8) (state : TerminalTextProjectionState) : TerminalTextProjectionState :=
  if state = operatingSystemCommandEscape ∧ byte ≠ backslash then
    (operatingSystemCommand.read byte).1
  else (state.read byte).1

def followAll (state : TerminalTextProjectionState) (bytes : List UInt8) :
    TerminalTextProjectionState :=
  bytes.foldl (fun state byte => state.follow byte) state

def within (state : TerminalTextProjectionState) (byte : UInt8) : Bool :=
  state ≠ ground || byte = esc

def marks (state : TerminalTextProjectionState) : List UInt8 → List Bool
  | [] => []
  | byte :: bytes => state.within byte :: marks (state.follow byte) bytes

/-- How much of a begun sequence is still to come. -/
def left (bytes : List UInt8) : TerminalTextProjectionState → Nat
  | ground => 0
  | escape => sequenceLength bytes
  | controlSequence => controlLength bytes
  | operatingSystemCommand => stringLength bytes
  | operatingSystemCommandEscape =>
    if bytes.head? = some backslash then 1 else stringLength bytes

theorem left_cons (state : TerminalTextProjectionState) (byte : UInt8) (bytes : List UInt8)
    (begun : state ≠ ground) :
    state.left (byte :: bytes) = (state.follow byte).left bytes + 1 := by
  have string : stringLength (byte :: bytes) =
      (operatingSystemCommand.read byte).1.left bytes + 1 := by
    simp only [stringLength, read]
    split
    · rfl
    · split
      · next both =>
        rw [if_pos both.1]
        simp [left, both.2]
      · next single =>
        split
        · next escaped =>
          have other : bytes.head? ≠ some backslash := fun same => single ⟨escaped, same⟩
          simp [left, other]
        · rfl
  cases state with
  | ground => exact absurd rfl begun
  | escape =>
    simp only [left, sequenceLength, follow, read, reduceCtorEq, false_and, if_false]
    split
    · rfl
    · split <;> rfl
  | controlSequence =>
    simp only [left, controlLength, follow, read, reduceCtorEq, false_and, if_false]
    split <;> rfl
  | operatingSystemCommand =>
    simp only [left, follow, reduceCtorEq, false_and, if_false]
    exact string
  | operatingSystemCommandEscape =>
    by_cases ends : byte = backslash
    · subst ends
      rfl
    · rw [follow, if_pos ⟨rfl, ends⟩, ← string]
      exact if_neg fun same => ends (Option.some.inj same)

theorem marks_eq_inSequence (state : TerminalTextProjectionState) (bytes : List UInt8) :
    state.marks bytes = inSequence (state.left bytes) bytes := by
  induction bytes generalizing state with
  | nil => cases state <;> rfl
  | cons byte bytes ih =>
    by_cases begun : state = ground
    · subst begun
      simp only [marks, ih, left, inSequence, within, follow, reduceCtorEq, false_and, if_false, read]
      by_cases escaped : byte = esc
      · simp [escaped]
      · simp [escaped]
    · rw [left_cons state byte bytes begun, inSequence, marks, ih, within]
      simp [begun]

def kept (state : TerminalTextProjectionState) (projected : Nat) : List UInt8 → List Bool
  | [] => []
  | byte :: bytes =>
    let projected := projected + (state.read byte).2.toNat
    (state.read byte).2 ::
      if maxProjectedFrameBytes ≤ projected then List.replicate bytes.length false
      else kept (state.read byte).1 projected bytes

def keptFrames (state : TerminalTextProjectionState) : List (List UInt8) → List Bool
  | [] => []
  | frame :: frames => state.kept 0 frame ++ keptFrames (state.project 0 frame).1 frames

def projectFrames (state : TerminalTextProjectionState) (frames : List (List UInt8)) :
    TerminalTextProjectionState :=
  frames.foldl (fun state frame => (state.project 0 frame).1) state

section

variable (state : TerminalTextProjectionState)

theorem length_kept (projected : Nat) (bytes : List UInt8) :
    (state.kept projected bytes).length = bytes.length := by
  induction bytes generalizing state projected with
  | nil => rfl
  | cons byte bytes ih =>
    simp only [kept, List.length_cons, Nat.add_right_cancel_iff]
    split
    · exact List.length_replicate
    · exact ih _ _

theorem length_keptFrames (frames : List (List UInt8)) :
    (state.keptFrames frames).length = frames.flatten.length := by
  induction frames generalizing state with
  | nil => rfl
  | cons frame frames ih =>
    rw [keptFrames, List.length_append, length_kept, ih, List.flatten_cons, List.length_append]

theorem length_marks (bytes : List UInt8) :
    (state.marks bytes).length = bytes.length := by
  induction bytes generalizing state with
  | nil => rfl
  | cons byte bytes ih => rw [marks, List.length_cons, ih, List.length_cons]

theorem marks_append (bytes later : List UInt8) :
    state.marks (bytes ++ later) = state.marks bytes ++ (state.followAll bytes).marks later := by
  induction bytes generalizing state with
  | nil => rfl
  | cons byte bytes ih => rw [List.cons_append, marks, ih, marks, List.cons_append]; rfl

theorem followAll_append (bytes later : List UInt8) :
    state.followAll (bytes ++ later) = (state.followAll bytes).followAll later :=
  List.foldl_append

theorem keptFrames_append (frames later : List (List UInt8)) :
    state.keptFrames (frames ++ later) =
      state.keptFrames frames ++ (state.projectFrames frames).keptFrames later := by
  induction frames generalizing state with
  | nil => rfl
  | cons frame frames ih =>
    rw [List.cons_append, keptFrames, ih, keptFrames, List.append_assoc]
    rfl

end

variable {state : TerminalTextProjectionState} {projected : Nat} {bytes : List UInt8}

/-- A byte that is projected is text, read outside of what looks like an escape sequence. -/
theorem read_pushed {byte : UInt8}
    (pushed : (state.read byte).2 = true) : state = ground ∧ byte ≠ esc ∧ ¬ IsControl byte := by
  cases state with
  | ground =>
    by_cases escaped : byte = esc
    · simp [read, escaped] at pushed
    · refine ⟨rfl, escaped, ?_⟩
      rintro ⟨low, tab, newline, carriage⟩
      simp only [read, escaped, if_false, isText] at pushed
      simp [tab, newline, carriage, Utf8.between] at pushed
      rcases pushed with pushed | pushed
      · exact absurd low (UInt8.not_lt.2 pushed.1)
      · exact absurd (UInt8.lt_of_lt_of_le low (UInt8.le_trans (by decide) pushed))
          (UInt8.lt_irrefl _)
  | escape => simp [read] at pushed
  | controlSequence => simp [read] at pushed
  | operatingSystemCommand => simp [read] at pushed
  | operatingSystemCommandEscape => simp [read] at pushed

/-- A frame that is read to its end, with no string in it that ends otherwise than the code
takes it to end: no escape there is followed by another one or by a bell. -/
def Legible (state : TerminalTextProjectionState) (projected : Nat) : List UInt8 → Prop
  | [] => True
  | byte :: bytes =>
    let projected := projected + (state.read byte).2.toNat
    ¬ (state = operatingSystemCommandEscape ∧ (byte = esc ∨ byte = bel)) ∧
      (bytes = [] ∨ projected < maxProjectedFrameBytes) ∧
      Legible (state.read byte).1 projected bytes

def LegibleFrames (state : TerminalTextProjectionState) : List (List UInt8) → Prop
  | [] => True
  | frame :: frames =>
    state.Legible 0 frame ∧ LegibleFrames (state.project 0 frame).1 frames

theorem follow_eq_read {byte : UInt8}
    (plain : ¬ (state = operatingSystemCommandEscape ∧ (byte = esc ∨ byte = bel))) :
    state.follow byte = (state.read byte).1 := by
  unfold follow
  split
  · next string =>
    obtain ⟨rfl, other⟩ := string
    have escaped : byte ≠ esc := fun same => plain ⟨rfl, .inl same⟩
    have ends : byte ≠ bel := fun same => plain ⟨rfl, .inr same⟩
    simp [read, other, escaped, ends]
  · rfl

theorem Legible.project_eq (legible : state.Legible projected bytes) :
    (state.project projected bytes).1 = state.followAll bytes := by
  induction bytes generalizing state projected with
  | nil => rfl
  | cons byte bytes ih =>
    obtain ⟨plain, whole, rest⟩ := legible
    change _ = (state.follow byte).followAll bytes
    rw [follow_eq_read plain, ← ih rest]
    simp only [project]
    split
    · next full =>
      rcases whole with empty | room
      · rw [empty]
        rfl
      · exact absurd room (Nat.not_lt.2 full)
    · rfl

theorem Legible.kept_imp (legible : state.Legible projected bytes) (i : Nat)
    (kept : (state.kept projected bytes)[i]? = some true) :
    (state.marks bytes)[i]? = some false := by
  induction bytes generalizing state projected i with
  | nil => simp [TerminalTextProjectionState.kept] at kept
  | cons byte bytes ih =>
    obtain ⟨plain, -, rest⟩ := legible
    cases i with
    | zero =>
      obtain ⟨rfl, other, -⟩ := read_pushed (Option.some.inj kept)
      simp [marks, within, other]
    | succ i =>
      simp only [TerminalTextProjectionState.kept, List.getElem?_cons_succ] at kept
      rw [marks, List.getElem?_cons_succ, follow_eq_read plain]
      split at kept
      · simp [List.getElem?_replicate] at kept
      · exact ih rest i kept

theorem kept_text
    {i : Nat} (kept : (state.kept projected bytes)[i]? = some true) :
    ∃ byte, bytes[i]? = some byte ∧ ¬ IsControl byte := by
  induction bytes generalizing state projected i with
  | nil => simp [TerminalTextProjectionState.kept] at kept
  | cons byte bytes ih =>
    cases i with
    | zero => exact ⟨byte, rfl, (read_pushed (Option.some.inj kept)).2.2⟩
    | succ i =>
      simp only [TerminalTextProjectionState.kept, List.getElem?_cons_succ] at kept
      split at kept
      · simp [List.getElem?_replicate] at kept
      · exact ih kept

/-- Where the escape sequences have come to `actual` and the code to `state`, the frames give
away nothing of a sequence. -/
def SoundFrom (state actual : TerminalTextProjectionState) (frames : List (List UInt8)) : Prop :=
  ∀ i : Nat, (state.keptFrames frames)[i]? = some true → (actual.marks frames.flatten)[i]? = some false

theorem getElem?_append_imp {xs ys xs' ys' : List Bool} (same : xs.length = xs'.length) :
    (∀ i : Nat, (xs ++ ys)[i]? = some true → (xs' ++ ys')[i]? = some false) ↔
      (∀ i : Nat, xs[i]? = some true → xs'[i]? = some false) ∧
        (∀ i : Nat, ys[i]? = some true → ys'[i]? = some false) := by
  constructor
  · intro all
    constructor
    · intro i here
      have inside : i < xs.length := (List.getElem?_eq_some_iff.1 here).1
      have both := all i (by rw [List.getElem?_append_left inside, here])
      rwa [List.getElem?_append_left (same ▸ inside)] at both
    · intro i here
      have both := all (xs.length + i) (by
        rw [List.getElem?_append_right (Nat.le_add_right _ _), Nat.add_sub_cancel_left, here])
      rwa [same, List.getElem?_append_right (Nat.le_add_right _ _), Nat.add_sub_cancel_left] at both
  · rintro ⟨first, second⟩ i here
    by_cases inside : i < xs.length
    · rw [List.getElem?_append_left inside] at here
      rw [List.getElem?_append_left (same ▸ inside)]
      exact first i here
    · rw [List.getElem?_append_right (Nat.le_of_not_lt inside)] at here
      rw [List.getElem?_append_right (same ▸ Nat.le_of_not_lt inside), ← same]
      exact second _ here

theorem soundFrom_append {actual : TerminalTextProjectionState}
    {frames later : List (List UInt8)} :
    SoundFrom state actual (frames ++ later) ↔ SoundFrom state actual frames ∧
      SoundFrom (state.projectFrames frames) (actual.followAll frames.flatten) later := by
  unfold SoundFrom
  rw [keptFrames_append, List.flatten_append, marks_append]
  exact getElem?_append_imp (by rw [length_keptFrames, length_marks])

theorem LegibleFrames.sound {frames : List (List UInt8)} (legible : state.LegibleFrames frames) :
    SoundFrom state state frames ∧ state.projectFrames frames = state.followAll frames.flatten := by
  induction frames generalizing state with
  | nil => exact ⟨fun i kept => by simp [keptFrames] at kept, rfl⟩
  | cons frame frames ih =>
    obtain ⟨first, rest⟩ := legible
    obtain ⟨sound, reached⟩ := ih rest
    have one : SoundFrom state state [frame] := by
      intro i kept
      rw [keptFrames, keptFrames, List.append_nil] at kept
      rw [List.flatten_singleton]
      exact first.kept_imp i kept
    rw [first.project_eq] at sound reached
    constructor
    · change SoundFrom state state ([frame] ++ frames)
      rw [soundFrom_append]
      refine ⟨one, ?_⟩
      rw [List.flatten_singleton]
      change SoundFrom (state.project 0 frame).1 _ _
      rw [first.project_eq]
      exact sound
    · change (state.project 0 frame).1.projectFrames frames = _
      rw [first.project_eq, reached, List.flatten_cons, followAll_append]

/-- A short frame that gives something away where the code has come to another state than the
escape sequences. -/
def telltale : TerminalTextProjectionState → TerminalTextProjectionState → List UInt8
  | ground, _ => [0x33]
  | escape, ground => [esc, 0x33]
  | escape, _ => [0x30, 0x33]
  | controlSequence, ground => [esc, 0x5d, 0x33]
  | controlSequence, escape => [0x5d, 0x33]
  | controlSequence, _ => [0x40, 0x33]
  | operatingSystemCommand, ground => [esc, 0x5b, bel, 0x33]
  | operatingSystemCommand, escape => [0x5b, bel, 0x33]
  | operatingSystemCommand, controlSequence => [bel, 0x33]
  | operatingSystemCommand, _ => [backslash, esc, 0x5b, bel, 0x33]
  | operatingSystemCommandEscape, ground => [0x30, esc, 0x5b, bel, 0x33]
  | operatingSystemCommandEscape, escape => [0x5b, bel, 0x33]
  | operatingSystemCommandEscape, controlSequence => [0x30, bel, 0x33]
  | operatingSystemCommandEscape, _ => [backslash, 0x33]

instance decidableLegible : (state : TerminalTextProjectionState) → (projected : Nat) →
    (bytes : List UInt8) → Decidable (state.Legible projected bytes)
  | _, _, [] => .isTrue trivial
  | state, projected, byte :: bytes =>
    have := decidableLegible (state.read byte).1 (projected + (state.read byte).2.toNat) bytes
    inferInstanceAs (Decidable (_ ∧ _ ∧ _))

theorem telltale_legible (state actual : TerminalTextProjectionState) :
    state.Legible 0 (telltale state actual) := by
  cases state <;> cases actual <;> decide

theorem telltale_unsound {actual : TerminalTextProjectionState} (apart : state ≠ actual) :
    ¬ SoundFrom state actual [telltale state actual] := by
  have shown : (state.keptFrames [telltale state actual])[(telltale state actual).length - 1]? =
      some true ∧
      (actual.marks [telltale state actual].flatten)[(telltale state actual).length - 1]? =
        some true := by
    cases state <;> cases actual <;> first | exact absurd rfl apart | decide
  intro sound
  have hidden := sound _ shown.1
  rw [shown.2] at hidden
  simp at hidden

end TerminalTextProjectionState

open TerminalTextProjectionState

def chosen (marks : List Bool) (bytes : List UInt8) : List UInt8 :=
  ((marks.zip bytes).filter Prod.fst).map Prod.snd

theorem chosen_append {marks marks' : List Bool} {bytes bytes' : List UInt8}
    (same : marks.length = bytes.length) :
    chosen (marks ++ marks') (bytes ++ bytes') = chosen marks bytes ++ chosen marks' bytes' := by
  rw [chosen, List.zip_append same, List.filter_append, List.map_append]
  rfl

theorem chosen_replicate_false (bytes : List UInt8) :
    chosen (List.replicate bytes.length false) bytes = [] := by
  induction bytes with
  | nil => rfl
  | cons byte bytes ih => exact ih

theorem project_eq_chosen (state : TerminalTextProjectionState) (projected : Nat)
    (bytes : List UInt8) :
    (state.project projected bytes).2 = chosen (state.kept projected bytes) bytes := by
  induction bytes generalizing state projected with
  | nil => rfl
  | cons byte bytes ih =>
    have first (marks : List Bool) : chosen ((state.read byte).2 :: marks) (byte :: bytes) =
        (if (state.read byte).2 then [byte] else []) ++ chosen marks bytes := by
      cases pushed : (state.read byte).2 <;> simp [chosen]
    simp only [project, kept]
    split
    · rw [first, chosen_replicate_false, List.append_nil]
    · rw [first, ih]

theorem decodeText_eq_lossy (bytes : List UInt8) : decodeText bytes = Utf8.lossy bytes := by
  induction size : bytes.length using Nat.strong_induction_on generalizing bytes with
  | _ size ih =>
    subst size
    have found := Utf8.lossy_of_fromUtf8 bytes
    rw [decodeText]
    split
    · next answer =>
      rw [answer] at found
      exact found.symm
    · next valid length answer =>
      rw [answer] at found
      obtain ⟨positive, short, found⟩ := found
      rw [found]
      dsimp only
      split
      · next done => rw [done, Utf8.lossy_nil, List.append_nil]
      · rw [ih _ (by rw [List.length_drop]; omega) _ rfl]
    · next valid answer =>
      rw [answer] at found
      exact found.symm

namespace PluginObserver

theorem projectTerminalText_eq (o : PluginObserver)
    (waiting : Utf8.lossy o.utf8Pending = ([], o.utf8Pending)) (frame : List UInt8) :
    o.projectTerminalText frame =
      ((Utf8.lossy (o.utf8Pending ++ chosen (o.projectionState.kept 0 frame) frame)).1,
        ⟨(o.projectionState.project 0 frame).1,
          (Utf8.lossy (o.utf8Pending ++ chosen (o.projectionState.kept 0 frame) frame)).2⟩) := by
  simp only [projectTerminalText, decodeText_eq_lossy, project_eq_chosen]
  split
  · next empty => rw [empty, List.append_nil, waiting]
  · rfl

/-- What is shown of some frames is read from the bytes they project, as if these came at once. -/
theorem observe_eq (o : PluginObserver)
    (waiting : Utf8.lossy o.utf8Pending = ([], o.utf8Pending)) (frames : List (List UInt8)) :
    let read := Utf8.lossy
      (o.utf8Pending ++ chosen (o.projectionState.keptFrames frames) frames.flatten)
    (o.observe frames).1.flatten = read.1 ∧
      (o.observe frames).2 = ⟨o.projectionState.projectFrames frames, read.2⟩ := by
  induction frames generalizing o with
  | nil =>
    have nothing : chosen (o.projectionState.keptFrames []) [].flatten = [] := rfl
    simp only [nothing, List.append_nil, waiting]
    exact ⟨rfl, rfl⟩
  | cons frame frames ih =>
    obtain ⟨texts, last⟩ := ih (o.projectTerminalText frame).2 (by
      rw [projectTerminalText_eq o waiting]
      exact Utf8.lossy_pending _)
    rw [projectTerminalText_eq o waiting] at texts last
    have sent (text : List UInt8) : (if text = [] then [] else [text]).flatten = text := by
      split <;> simp [*]
    simp only [observe, projectTerminalText_eq o waiting, List.flatten_append, sent, texts, last]
    rw [keptFrames, List.flatten_cons, chosen_append (length_kept _ _ _), ← List.append_assoc,
      Utf8.lossy_append (o.utf8Pending ++ _)]
    exact ⟨rfl, rfl⟩

end PluginObserver

namespace TerminalTextProjectionState

def pushes (state : TerminalTextProjectionState) : List UInt8 → List Bool
  | [] => []
  | byte :: bytes => (state.read byte).2 :: pushes (state.read byte).1 bytes

def readAll (state : TerminalTextProjectionState) (bytes : List UInt8) :
    TerminalTextProjectionState :=
  bytes.foldl (fun state byte => (state.read byte).1) state

section

variable (state : TerminalTextProjectionState)

theorem pushes_append (bytes later : List UInt8) :
    state.pushes (bytes ++ later) = state.pushes bytes ++ (state.readAll bytes).pushes later := by
  induction bytes generalizing state with
  | nil => rfl
  | cons byte bytes ih => rw [List.cons_append, pushes, ih, pushes, List.cons_append]; rfl

theorem project_short (projected : Nat) {bytes : List UInt8}
    (short : projected + bytes.length ≤ maxProjectedFrameBytes) :
    state.kept projected bytes = state.pushes bytes ∧
      (state.project projected bytes).1 = state.readAll bytes := by
  induction bytes generalizing state projected with
  | nil => exact ⟨rfl, rfl⟩
  | cons byte bytes ih =>
    rw [List.length_cons] at short
    have one : (state.read byte).2.toNat ≤ 1 := Bool.toNat_le _
    simp only [kept, project, pushes]
    split
    · next full =>
      have last : bytes = [] := List.eq_nil_of_length_eq_zero (by omega)
      rw [last]
      exact ⟨rfl, rfl⟩
    · obtain ⟨marks, reached⟩ := ih (state.read byte).1
        (projected + (state.read byte).2.toNat) (by omega)
      exact ⟨by rw [marks], reached⟩

theorem projectFrames_short {frames : List (List UInt8)}
    (short : ∀ frame ∈ frames, frame.length ≤ maxProjectedFrameBytes) :
    state.keptFrames frames = state.pushes frames.flatten ∧
      state.projectFrames frames = state.readAll frames.flatten := by
  induction frames generalizing state with
  | nil => exact ⟨rfl, rfl⟩
  | cons frame frames ih =>
    have within : 0 + frame.length ≤ maxProjectedFrameBytes := by
      rw [Nat.zero_add]
      exact short frame List.mem_cons_self
    have first := project_short state 0 within
    obtain ⟨marks, reached⟩ := ih (state.readAll frame) fun f member =>
      short f (List.mem_cons_of_mem _ member)
    constructor
    · rw [keptFrames, first.1, first.2, marks, List.flatten_cons, pushes_append]
    · change (state.project 0 frame).1.projectFrames frames = _
      rw [first.2, reached, List.flatten_cons]
      exact List.foldl_append.symm

end

theorem keptFrames_text {state : TerminalTextProjectionState} {frames : List (List UInt8)}
    {i : Nat} (kept : (state.keptFrames frames)[i]? = some true) :
    ∃ byte, frames.flatten[i]? = some byte ∧ ¬ IsControl byte := by
  induction frames generalizing state i with
  | nil => simp [keptFrames] at kept
  | cons frame frames ih =>
    rw [keptFrames] at kept
    rw [List.flatten_cons]
    by_cases inside : i < frame.length
    · rw [List.getElem?_append_left (by rwa [length_kept])] at kept
      rw [List.getElem?_append_left inside]
      exact kept_text kept
    · rw [List.getElem?_append_right (by rw [length_kept]; omega), length_kept] at kept
      rw [List.getElem?_append_right (Nat.le_of_not_lt inside)]
      exact ih kept

end TerminalTextProjectionState

/-- Nothing that lies in an escape sequence of the whole stream, and no control, is projected. -/
def Sound (frames : List (List UInt8)) : Prop :=
  ∀ i : Nat, (keptFrames .ground frames)[i]? = some true →
    (inSequence 0 frames.flatten)[i]? = some false ∧
      ∃ byte, frames.flatten[i]? = some byte ∧ ¬ IsControl byte

theorem sound_iff {frames : List (List UInt8)} : Sound frames ↔ SoundFrom .ground .ground frames := by
  have same : marks .ground frames.flatten = inSequence 0 frames.flatten :=
    marks_eq_inSequence .ground _
  constructor
  · intro sound i kept
    rw [same]
    exact (sound i kept).1
  · intro sound i kept
    rw [← same]
    exact ⟨sound i kept, keptFrames_text kept⟩

/-- The text is read from what is projected; of legible frames nothing is projected that lies in
an escape sequence; after any frames, this stays so for legible ones exactly if the projection
has kept up with the escape sequences; and the cut into short frames makes no difference. -/
theorem plugin_text_sound_iff (frames : List (List UInt8)) :
    (((PluginObserver.observe {} frames).1.flatten,
        (PluginObserver.observe {} frames).2.utf8Pending) =
      Utf8.lossy (chosen (keptFrames .ground frames) frames.flatten)) ∧
    (LegibleFrames .ground frames → Sound frames) ∧
    ((∀ later : List (List UInt8),
        (∀ frame ∈ later, frame.length ≤ sshTerminalOutputFrameMaxBytes) →
        LegibleFrames (projectFrames .ground frames) later → Sound (frames ++ later)) ↔
      Sound frames ∧ projectFrames .ground frames = followAll .ground frames.flatten) ∧
    ((∀ frame ∈ frames, frame.length ≤ maxProjectedFrameBytes) →
      ∀ others : List (List UInt8), (∀ frame ∈ others, frame.length ≤ maxProjectedFrameBytes) →
        others.flatten = frames.flatten →
        (PluginObserver.observe {} others).1.flatten =
            (PluginObserver.observe {} frames).1.flatten ∧
          (PluginObserver.observe {} others).2 = (PluginObserver.observe {} frames).2) := by
  have read (frames : List (List UInt8)) := PluginObserver.observe_eq {} Utf8.lossy_nil frames
  refine ⟨?_, fun legible => sound_iff.2 legible.sound.1, ?_, ?_⟩
  · rw [(read frames).1, (read frames).2]
    rfl
  · constructor
    · intro always
      have now := always [] (by simp) trivial
      rw [List.append_nil] at now
      refine ⟨now, ?_⟩
      by_contra apart
      have later := always [telltale (projectFrames .ground frames)
        (followAll .ground frames.flatten)] (by
          intro frame member
          rw [List.mem_singleton.1 member]
          cases projectFrames .ground frames <;> cases followAll .ground frames.flatten <;> decide)
        ⟨telltale_legible _ _, trivial⟩
      rw [sound_iff, soundFrom_append] at later
      exact telltale_unsound apart later.2
    · rintro ⟨now, together⟩ later - legible
      rw [sound_iff, soundFrom_append, ← together]
      exact ⟨sound_iff.1 now, legible.sound.1⟩
  · intro short others others_short same
    rw [(read others).1, (read others).2, (read frames).1, (read frames).2]
    simp only
    rw [(projectFrames_short _ short).1, (projectFrames_short _ short).2,
      (projectFrames_short _ others_short).1, (projectFrames_short _ others_short).2, same]
    exact ⟨rfl, rfl⟩

theorem plugin_text_sound_iff_plain : Sound [[0x68, esc, 0x5d, 0x30], [bel, 0x69]] :=
  (plugin_text_sound_iff _).2.1 (by
    refine ⟨by decide, by decide, trivial⟩)

/-- Output without escape sequences that fills what a frame may project, and the start of a string
behind it. -/
def longFrame : List UInt8 := List.replicate maxProjectedFrameBytes 0x61 ++ [esc, 0x5d]

theorem project_plain {projected count : Nat} (rest : List UInt8) (some_bytes : 0 < count)
    (full : projected + count = maxProjectedFrameBytes) :
    (project .ground projected (List.replicate count 0x61 ++ rest)).1 = .ground := by
  induction count generalizing projected with
  | zero => exact absurd some_bytes (Nat.lt_irrefl 0)
  | succ count ih =>
    have step : read 0x61 .ground = (.ground, true) := by decide
    rw [List.replicate_succ, List.cons_append, project]
    simp only [step]
    split
    · rfl
    · next room =>
      have short : projected + 1 < maxProjectedFrameBytes := Nat.lt_of_not_le room
      exact ih (by omega) (by change projected + 1 + count = _; omega)

theorem followAll_plain (count : Nat) : followAll .ground (List.replicate count 0x61) = .ground := by
  induction count with
  | zero => rfl
  | succ count ih => exact ih

/-- The string that a long frame starts is shown where the next frame goes on with it; and even
in one short frame a sequence is shown after a string with two escapes before its end. -/
theorem string_shown :
    longFrame.length ≤ sshTerminalOutputFrameMaxBytes ∧ ¬ Sound [longFrame, [0x68]] ∧
      ¬ Sound [[esc, 0x5d, esc, esc, backslash, esc, 0x5b, bel, 0x33]] := by
  refine ⟨?_, ?_, ?_⟩
  · rw [longFrame, List.length_append, List.length_replicate]
    decide
  · rw [sound_iff]
    change ¬ SoundFrom .ground .ground ([longFrame] ++ [[0x68]])
    rw [soundFrom_append]
    rintro ⟨-, later⟩
    have code : projectFrames .ground [longFrame] = .ground :=
      project_plain [esc, 0x5d] (by decide) (Nat.zero_add _)
    have actual : followAll .ground [longFrame].flatten = .operatingSystemCommand := by
      rw [List.flatten_singleton, longFrame, followAll_append, followAll_plain]
      decide
    rw [code, actual] at later
    have hidden := later 0 (by decide)
    simp [marks, within] at hidden
  · intro sound
    have hidden := (sound 8 (by decide)).1
    revert hidden
    decide

end NoriShell.Terminal

import NoriShell.Operations.Templates

/-! How `find` and `du` read the path of a disk operation. -/

namespace NoriShell.Operations

open Collections Shell

inductive PathTool where
  | du
  | find
  deriving DecidableEq, Repr

def PathTool.name : PathTool → String
  | .du => "du"
  | .find => "find"

/-- `find` takes such an argument as the start of its expression. -/
def startsExpression {H : Type} [DecidableEq H] (word : List (Piece H)) : Bool :=
  word.head? = some (.literal '-') || word = [.literal '('] || word = [.literal '!']

def afterDashes {H : Type} [DecidableEq H] : List (List (Piece H)) → List (List (Piece H))
  | [] => []
  | word :: arguments =>
    if word = [.literal '-', .literal '-'] then arguments else afterDashes arguments

def PathTool.operands {H : Type} [DecidableEq H] (arguments : List (List (Piece H))) :
    PathTool → List (List (Piece H))
  | .du => afterDashes arguments
  | .find => (afterDashes arguments).takeWhile fun word => !startsExpression word

def ReadAsPath (command : String) (tool : PathTool) (path : String) : Prop :=
  ∃ tokens, lex command.toList = some tokens ∧ ∃ arguments,
    callsOf tool.name.toList tokens = [arguments] ∧
      tool.operands arguments = [path.toList.map .literal]

def RemoteOperation.paths : RemoteOperation → List (PathTool × String)
  | .disk (.usage path _) => [(.du, path)]
  | .disk (.largeFiles path _ _) => [(.find, path)]
  | _ => []

def StartsExpression (path : String) : Prop :=
  startsExpression (path.toList.map .literal : List (Piece Empty)) = true

instance (path : String) : Decidable (StartsExpression path) :=
  inferInstanceAs (Decidable (_ = true))

section

variable (digest : String → String)

theorem path_calls :
    (Named (words ((RemoteOperation.disk (.usage "" 0)).segments digest)) ∧
      callsOf PathTool.du.name.toList
          (words ((RemoteOperation.disk (.usage "" 0)).segments digest)) =
        [[['-', 'x'].map .literal, ['-', 'B', '1'].map .literal,
          "--max-depth=".toList.map .literal ++ [.hole (.number 0)],
          [.literal '-', .literal '-'], [.hole (.text "")]]]) ∧
    Named (words ((RemoteOperation.disk (.largeFiles "" 2 0)).segments digest)) ∧
      (callsOf PathTool.find.name.toList
          (words ((RemoteOperation.disk (.largeFiles "" 2 0)).segments digest))).map (·.take 3) =
        [[[.literal '-', .literal '-'], [.hole (.text "")], "-xdev".toList.map .literal]] := by
  simp only [words, symbols, RemoteOperation.segments, RemoteOperation.tools,
    RemoteOperation.command, DiskOperation.command, toolCheck, PathTool.name, List.flatMap_cons,
    List.flatMap_nil, List.cons_append, List.nil_append, List.append_nil, Segment.symbols]
  repeat rw [toList_literal rfl]
  decide +kernel

variable {digest} {result : OperationPlan}

theorem calls_of_plan {blank operation : RemoteOperation} (text : String → String)
    (number : Nat → Nat) (named : Named (words (blank.segments digest)))
    (wellFormed : WellFormed (blank.segments digest))
    (filled : (blank.segments digest).map (Segment.map text number) = operation.segments digest)
    (h : plan digest operation = .ok result) (name : List Char) :
    ∃ tokens, lex result.command.toList = some tokens ∧ callsOf name tokens =
      (callsOf name (words (blank.segments digest))).map
        (·.map (·.flatMap (Piece.subst (Value.literal ∘ Value.map text number)))) := by
  have lexed := lex_render_map wellFormed text number
  rw [filled, ← plan_command h] at lexed
  exact ⟨_, lexed, callsOf_subst _ named name⟩

theorem usage_reads {path : String} {maxDepth : UInt8}
    (h : plan digest (.disk (.usage path maxDepth)) = .ok result) :
    ReadAsPath result.command .du path := by
  obtain ⟨named, call⟩ := (path_calls digest).1
  obtain ⟨tokens, lexed, calls⟩ := calls_of_plan (fun _ => path) (fun _ => maxDepth.toNat) named
    (RemoteOperation.wellFormed digest trivial) rfl h PathTool.du.name.toList
  rw [call] at calls
  refine ⟨tokens, lexed, _, calls, ?_⟩
  simp [PathTool.operands, afterDashes, Piece.subst, Value.literal, Value.map]

theorem largeFiles_reads {path : String} {minimumBytes : UInt64} {limit : UInt16}
    (h : plan digest (.disk (.largeFiles path minimumBytes limit)) = .ok result) :
    ∃ tokens, lex result.command.toList = some tokens ∧ ∃ expression,
      callsOf PathTool.find.name.toList tokens =
        [[.literal '-', .literal '-'] :: path.toList.map .literal ::
          "-xdev".toList.map .literal :: expression] := by
  obtain ⟨named, call⟩ := (path_calls digest).2
  obtain ⟨arguments, call, first⟩ := List.map_eq_singleton_iff.mp call
  obtain ⟨expression, rfl⟩ : ∃ expression, arguments =
      [.literal '-', .literal '-'] :: [.hole (.text "")] :: "-xdev".toList.map .literal ::
        expression := ⟨arguments.drop 3, by
          conv => lhs; rw [← List.take_append_drop 3 arguments, first]
          rfl⟩
  let number (value : Nat) : Nat := if value = 0 then limit.toNat else minimumBytes.toNat - 1
  obtain ⟨tokens, lexed, calls⟩ := calls_of_plan (fun _ => path) number named
    (RemoteOperation.wellFormed digest trivial) rfl h PathTool.find.name.toList
  rw [call] at calls
  let fill : Value → List (Piece Empty) := Value.literal ∘ Value.map (fun _ => path) number
  refine ⟨tokens, lexed, expression.map (·.flatMap (Piece.subst fill)), calls.trans ?_⟩
  rw [List.map_cons, List.map_nil, List.map_cons, List.map_cons, List.map_cons, subst_literals]
  simp [Piece.subst, fill, Value.literal, Value.map]

end

variable {result : OperationPlan}

theorem finish_approval {spec : Spec} (h : finish spec = .ok result)
    (readOnly : result.operationClass = .readOnly) : result.approval = .none := by
  rw [finish, Check.bind_unit_eq_ok] at h
  cases h.2
  have reads : spec.operationClass = .readOnly := readOnly
  exact if_neg (by rw [reads]; decide)

theorem plan_approval {digest : String → String} {operation : RemoteOperation}
    (h : plan digest operation = .ok result)
    (readOnly : result.operationClass = .readOnly) : result.approval = .none := by
  unfold plan at h
  obtain ⟨spec, -, finished⟩ := Check.bind_eq_ok.mp h
  exact finish_approval finished readOnly

theorem largeFiles_readAsPath_iff {digest : String → String}
    {path : String} {minimumBytes : UInt64} {limit : UInt16}
    (h : plan digest (.disk (.largeFiles path minimumBytes limit)) = .ok result) :
    ReadAsPath result.command .find path ↔ ¬StartsExpression path := by
  obtain ⟨tokens, lexed, expression, call⟩ := largeFiles_reads h
  have operands : PathTool.operands ([.literal '-', .literal '-'] :: path.toList.map .literal ::
      "-xdev".toList.map .literal :: expression) .find =
        if StartsExpression path then [] else [path.toList.map .literal] := by
    have xdev : startsExpression ("-xdev".toList.map .literal : List (Piece Empty)) = true := by
      rw [toList_literal rfl]
      decide
    by_cases starts : StartsExpression path
    · rw [if_pos starts]
      simp only [StartsExpression] at starts
      simp [PathTool.operands, afterDashes, starts]
    · rw [if_neg starts]
      simp only [StartsExpression, Bool.not_eq_true] at starts
      rw [PathTool.operands, afterDashes, if_pos rfl, List.takeWhile_cons_of_pos (by simp [starts]),
        List.takeWhile_cons_of_neg (by simp only [xdev]; decide)]
  constructor
  · rintro ⟨tokens', lexed', arguments, call', read⟩ starts
    cases lexed.symm.trans lexed'
    cases call.symm.trans call'
    rw [operands, if_pos starts] at read
    cases read
  · intro starts
    exact ⟨tokens, lexed, _, call, by rw [operands, if_neg starts]⟩

/-- Every path of a read-only operation is read as a path exactly when the path of a
search for large files does not start an expression. -/
theorem paths_read_iff (digest : String → String) {operation : RemoteOperation}
    {result : OperationPlan} (planned : plan digest operation = .ok result)
    (readOnly : result.operationClass = .readOnly) :
    result.approval = .none ∧
    ((∀ tool path, (tool, path) ∈ operation.paths → ReadAsPath result.command tool path) ↔
      ∀ path minimumBytes limit, operation = .disk (.largeFiles path minimumBytes limit) →
        ¬StartsExpression path) := by
  refine ⟨plan_approval planned readOnly, ?_⟩
  constructor
  · rintro read path minimumBytes limit rfl
    exact (largeFiles_readAsPath_iff planned).mp (read .find path (by simp [RemoteOperation.paths]))
  · intro safe tool path mem
    unfold RemoteOperation.paths at mem
    split at mem
    · cases List.mem_singleton.mp mem
      exact usage_reads planned
    · cases List.mem_singleton.mp mem
      exact (largeFiles_readAsPath_iff planned).mpr (safe _ _ _ rfl)
    · cases mem

theorem largeFiles_plan {path : String} (h : path = "/srv" ∨ path = "-delete") :
    ∃ result, plan id (.disk (.largeFiles path 1 1)) = .ok result ∧
      result.operationClass = .readOnly := by
  have made : ∃ spec, disk (.largeFiles path 1 1) = .ok spec ∧ spec.operationClass = .readOnly ∧
      (spec.segments.flatMap Segment.render).length ≤ 16384 := by
    rcases h with rfl | rfl
    all_goals
      refine ⟨_, Check.bind_unit_eq_ok.mpr ⟨by decide +kernel, rfl⟩, rfl, ?_⟩
      simp only [Spec.segments, DiskOperation.command, toolCheck, List.flatMap_cons,
        List.flatMap_nil, List.append_nil, List.cons_append, List.nil_append, Segment.render]
      repeat rw [toList_literal rfl]
      decide +kernel
  obtain ⟨spec, made, readOnly, short⟩ := made
  obtain ⟨result, finished, kind⟩ := finish_of_length short
  exact ⟨result, Check.bind_eq_ok.mpr ⟨spec, made, finished⟩, kind.trans readOnly⟩

theorem paths_read_srv : ∃ result, plan id (.disk (.largeFiles "/srv" 1 1)) = .ok result ∧
    result.operationClass = .readOnly ∧ ReadAsPath result.command .find "/srv" := by
  obtain ⟨result, planned, readOnly⟩ := largeFiles_plan (.inl rfl)
  refine ⟨result, planned, readOnly, ?_⟩
  refine (paths_read_iff id planned readOnly).2.mpr ?_ .find "/srv" (by simp [RemoteOperation.paths])
  rintro path minimumBytes limit ⟨⟩
  decide +kernel

/-- The path `-delete` is accepted for a read-only search without approval, and `find` takes
it as an action. -/
theorem delete_starts_expression :
    ∃ result, plan id (.disk (.largeFiles "-delete" 1 1)) = .ok result ∧
      result.operationClass = .readOnly ∧ result.approval = .none ∧
      ¬ReadAsPath result.command .find "-delete" ∧
      ∃ tokens arguments, lex result.command.toList = some tokens ∧
        callsOf PathTool.find.name.toList tokens = [arguments] ∧
        PathTool.find.operands arguments = [] ∧
        (afterDashes arguments).head? = some ("-delete".toList.map .literal) := by
  obtain ⟨result, planned, readOnly⟩ := largeFiles_plan (.inr rfl)
  obtain ⟨tokens, lexed, expression, call⟩ := largeFiles_reads planned
  have starts : startsExpression ("-delete".toList.map .literal : List (Piece Empty)) = true := by
    decide +kernel
  refine ⟨result, planned, readOnly, plan_approval planned readOnly, ?_, tokens, _, lexed, call,
    ?_, ?_⟩
  · rw [largeFiles_readAsPath_iff planned]
    exact not_not_intro starts
  · rw [PathTool.operands, afterDashes, if_pos rfl,
      List.takeWhile_cons_of_neg (by simp only [starts]; decide)]
  · rw [afterDashes, if_pos rfl, List.head?_cons]

end NoriShell.Operations

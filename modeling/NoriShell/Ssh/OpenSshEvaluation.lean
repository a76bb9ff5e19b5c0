import NoriShell.Ssh.OpenSshSpec

namespace NoriShell.Ssh.OpenSsh

open Collections

def DirectiveSlot.Single (slot : DirectiveSlot) : Prop := slot ≠ .always ∧ slot ≠ .identityFile

instance (slot : DirectiveSlot) : Decidable slot.Single := inferInstanceAs (Decidable (_ ∧ _))

namespace ParsedDirective

def slot : ParsedDirective → DirectiveSlot
  | .hostName .. => .hostName
  | .user .. => .user
  | .port .. => .port
  | .identityFile .. => .identityFile
  | .route .. => .route
  | .blocking _ slot => slot
  | .ignored => .always

def setting : ParsedDirective → Option ParsedDirective
  | .blocking .. => none
  | directive => some directive

def asHostName : ParsedDirective → Option (List Char × Nat)
  | .hostName value line => some (value, line)
  | _ => none

def asUser : ParsedDirective → Option (List Char × Nat)
  | .user value line => some (value, line)
  | _ => none

def asPort : ParsedDirective → Option (List Char × Nat)
  | .port value line => some (value, line)
  | _ => none

def asRoute : ParsedDirective → Option (RouteSource × Nat)
  | .route value line => some (value, line)
  | _ => none

def asIdentityFile : ParsedDirective → Option (List Char)
  | .identityFile value _ => some value
  | _ => none

end ParsedDirective

theorem slot_singleValue {parsed : ParsedLine} {line : Nat} {slot : DirectiveSlot}
    {make : List Char → ParsedDirective} (h : ∀ value, (make value).slot = slot) :
    (singleValue parsed line slot make).slot = slot := by
  rw [singleValue]
  split
  · exact h _
  · rfl

theorem Entry.slot_directive (entry : Entry) : entry.directive.slot = entry.slot := by
  simp only [directive, parseDirective, slot, slotForKeyword]
  generalize entry.parsed.keyword.map Char.toLower = keyword
  split
  · rfl
  by_cases hostname : keyword = "hostname".toList
  · simp only [if_pos hostname]
    exact slot_singleValue fun _ => rfl
  by_cases user : keyword = "user".toList
  · simp only [if_neg hostname, if_pos user]
    exact slot_singleValue fun _ => rfl
  by_cases port : keyword = "port".toList
  · simp only [if_neg hostname, if_neg user, if_pos port]
    exact slot_singleValue fun _ => rfl
  by_cases identityFile : keyword = "identityfile".toList
  · simp only [if_neg hostname, if_neg user, if_neg port, if_pos identityFile]
    exact slot_singleValue fun _ => rfl
  by_cases jump : keyword = "proxyjump".toList
  · simp only [if_neg hostname, if_neg user, if_neg port, if_neg identityFile, if_pos jump,
      if_pos (Or.inl jump)]
    exact slot_singleValue fun _ => rfl
  by_cases command : keyword = "proxycommand".toList
  · simp only [if_neg hostname, if_neg user, if_neg port, if_neg identityFile, if_neg jump,
      if_pos command, if_pos (Or.inr command)]
    rfl
  simp only [if_neg hostname, if_neg user, if_neg port, if_neg identityFile, if_neg jump,
    if_neg command, if_neg (not_or.mpr ⟨jump, command⟩)]
  split
  · rfl
  · split <;> rfl

namespace Evaluation

variable {state other : Evaluation} {directive : ParsedDirective}
  {directives : List ParsedDirective} {slot : DirectiveSlot} {hostAlias : List Char}
  {blocks : List ConfigBlock}

def seen (state : Evaluation) : DirectiveSlot → Bool
  | .hostName => state.hostnameSeen
  | .user => state.userSeen
  | .port => state.portSeen
  | .route => state.routeSeen
  | .always | .identityFile => false

def held (state : Evaluation) : DirectiveSlot → Option ParsedDirective
  | .hostName => state.hostname.map fun (value, line) => .hostName value line
  | .user => state.user.map fun (value, line) => .user value line
  | .port => state.port.map fun (value, line) => .port value line
  | .route => state.route.map fun (value, line) => .route value line
  | .always | .identityFile => none

def values (state : Evaluation) : Evaluation := { state with diagnostics := [] }

theorem values_addIdentityFile (value : List Char) (line : Nat) (diagnostics : List Diagnostic) :
    ({ state with diagnostics }.addIdentityFile value line).values =
      (state.addIdentityFile value line).values := by
  simp only [addIdentityFile]
  split
  · rfl
  · split
    · split <;> split <;> rfl
    · split <;> rfl

theorem values_addDirective (diagnostics : List Diagnostic) :
    ({ state with diagnostics }.addDirective directive).values =
      (state.addDirective directive).values := by
  cases directive with
  | hostName | user | port | route =>
    simp only [addDirective]
    split <;> rfl
  | identityFile value line => exact values_addIdentityFile value line diagnostics
  | blocking item slot =>
    cases slot with
    | always | identityFile => rfl
    | hostName | user | port | route =>
      simp only [addDirective]
      split <;> rfl
  | ignored => rfl

theorem addDirective_congr (h : state.values = other.values) :
    (state.addDirective directive).values = (other.addDirective directive).values := by
  have same : other = { state with diagnostics := other.diagnostics } := by
    have filled : other = { other.values with diagnostics := other.diagnostics } := rfl
    rw [filled, ← h]
    rfl
  rw [same]
  exact (values_addDirective other.diagnostics).symm

theorem foldl_addDirective_values (h : state.values = other.values) :
    (directives.foldl addDirective state).values =
      (directives.foldl addDirective other).values := by
  induction directives generalizing state other with
  | nil => exact h
  | cons directive directives ih => exact ih (addDirective_congr h)

theorem foldl_addBlock_values (h : state.values = other.values) :
    (blocks.foldl (addBlock hostAlias) state).values =
      ((effective hostAlias blocks).foldl addDirective other).values := by
  induction blocks generalizing state other with
  | nil => exact h
  | cons block blocks ih =>
    rw [effective, List.flatMap_cons, List.foldl_append, List.foldl_cons]
    refine ih ?_
    rw [addBlock]
    split
    · exact foldl_addDirective_values h
    · exact h

theorem addIdentityFile_frame (state : Evaluation) (value : List Char) (line : Nat)
    (slot : DirectiveSlot) :
    (state.addIdentityFile value line).seen slot = state.seen slot ∧
      (state.addIdentityFile value line).held slot = state.held slot := by
  rw [addIdentityFile]
  (repeat' split) <;> cases slot <;> exact ⟨rfl, rfl⟩

theorem slot_addDirective (single : slot.Single) :
    (state.addDirective directive).seen slot = (state.seen slot || decide (directive.slot = slot)) ∧
      (state.addDirective directive).held slot =
        if state.seen slot = false ∧ directive.slot = slot then
          directive.setting.or (state.held slot) else state.held slot := by
  cases directive with
  | hostName | user | port | route =>
    rw [addDirective]
    split <;> cases slot <;> simp_all [seen, held, ParsedDirective.slot, ParsedDirective.setting]
  | identityFile value line =>
    obtain ⟨seen, held⟩ := state.addIdentityFile_frame value line slot
    rw [addDirective, seen, held]
    simp [ParsedDirective.slot, single.2.symm]
  | blocking item target =>
    cases target with
    | always | identityFile =>
      cases slot <;>
        simp_all [seen, held, ParsedDirective.slot, addDirective, report, DirectiveSlot.Single]
    | hostName | user | port | route =>
      rw [addDirective]
      split <;> cases slot <;>
        simp_all [seen, held, ParsedDirective.slot, ParsedDirective.setting, report]
  | ignored => simp [addDirective, ParsedDirective.slot, single.1.symm]

theorem addDirective_of_seen (single : directive.slot.Single)
    (seen : state.seen directive.slot = true) : state.addDirective directive = state := by
  cases directive with
  | hostName | user | port | route => exact if_pos seen
  | identityFile => exact absurd rfl single.2
  | blocking item target =>
    cases target with
    | always => exact absurd rfl single.1
    | identityFile => exact absurd rfl single.2
    | hostName | user | port | route => exact if_pos seen
  | ignored => rfl

theorem seen_foldl (single : slot.Single) : (directives.foldl addDirective state).seen slot =
      (state.seen slot || directives.any (·.slot = slot)) := by
  induction directives generalizing state with
  | nil => simp
  | cons directive directives ih =>
    rw [List.foldl_cons, ih, (slot_addDirective single).1, List.any_cons, Bool.or_assoc]

theorem held_foldl (single : slot.Single) (unset : state.held slot = none) :
    (directives.foldl addDirective state).held slot =
      if state.seen slot then none
      else (directives.find? (·.slot = slot)).bind ParsedDirective.setting := by
  induction directives using List.reverseRecOn with
  | nil => simp [unset]
  | append_singleton directives directive ih =>
    rw [List.foldl_append, List.foldl_cons, List.foldl_nil, (slot_addDirective single).2, ih,
      seen_foldl single, List.find?_append]
    cases known : state.seen slot with
    | true => simp
    | false =>
      cases found : directives.find? (·.slot = slot) with
      | some first =>
        have same := List.find?_some found
        have decided : directives.any (·.slot = slot) = true :=
          List.any_eq_true.mpr ⟨first, List.mem_of_find?_eq_some found, same⟩
        simp [decided]
      | none =>
        have undecided : directives.any (·.slot = slot) = false := by
          simpa using found
        by_cases here : directive.slot = slot
        · simp [undecided, here]
        · simp [here]

def isNone (value : List Char) : Bool := Text.eqIgnoreAsciiCase value "none".toList

/-- The valid values after the last one that resets them, as many as the limit lets through. -/
def hintsOf (values : List (List Char)) : List (List Char) :=
  ((values.rtakeWhile fun value => !isNone value).filter isValidIdentityHint).take
    maxIdentityFileHints

theorem hintsOf_concat (values : List (List Char)) (value : List Char) :
    hintsOf (values ++ [value]) =
      if isNone value then []
      else if isValidIdentityHint value ∧ (hintsOf values).length < maxIdentityFileHints then
        hintsOf values ++ [value]
      else hintsOf values := by
  rw [hintsOf, List.rtakeWhile_concat]
  cases reset : isNone value with
  | true => simp
  | false =>
    rw [hintsOf, List.length_take]
    generalize values.rtakeWhile _ = kept
    cases valid : isValidIdentityHint value with
    | false => simp [valid]
    | true =>
      simp only [Bool.not_false, if_true, List.filter_append, valid, List.filter_cons_of_pos,
        List.filter_nil, true_and, Bool.false_eq_true, if_false]
      split
      next room => rw [List.take_of_length_le (by simp; omega), List.take_of_length_le (by omega)]
      next full => rw [List.take_append_of_le_length (by omega)]

theorem hints_addDirective_of_none (other : directive.asIdentityFile = none) :
    (state.addDirective directive).identityFileHints = state.identityFileHints := by
  cases directive with
  | hostName | user | port | route =>
    rw [addDirective]
    split <;> rfl
  | identityFile => cases other
  | blocking item target =>
    cases target with
    | always | identityFile => rfl
    | hostName | user | port | route =>
      rw [addDirective]
      split <;> rfl
  | ignored => rfl

theorem hints_addIdentityFile (value : List Char) (line : Nat) :
    (state.addIdentityFile value line).identityFileHints =
      if isNone value then []
      else if isValidIdentityHint value ∧ state.identityFileHints.length ≠ maxIdentityFileHints then
        state.identityFileHints ++ [value]
      else state.identityFileHints := by
  rw [addIdentityFile, isNone]
  split
  · rfl
  · by_cases full : state.identityFileHints.length = maxIdentityFileHints
    · have stays : ¬(isValidIdentityHint value = true ∧
          state.identityFileHints.length ≠ maxIdentityFileHints) := fun h => h.2 full
      rw [if_pos full, if_neg stays]
      split <;> rfl
    · rw [if_neg full]
      cases valid : isValidIdentityHint value <;> simp [full, report]

theorem hints_foldl (empty : state.identityFileHints = []) :
    (directives.foldl addDirective state).identityFileHints =
      hintsOf (directives.filterMap ParsedDirective.asIdentityFile) := by
  induction directives using List.reverseRecOn with
  | nil => exact empty
  | append_singleton directives directive ih =>
    rw [List.foldl_append, List.foldl_cons, List.foldl_nil, List.filterMap_append]
    cases file : directive.asIdentityFile with
    | none =>
      rw [hints_addDirective_of_none file, ih]
      simp [file]
    | some value =>
      cases directive with
      | identityFile value' line =>
        cases file
        have bound : (hintsOf (directives.filterMap ParsedDirective.asIdentityFile)).length ≤
            maxIdentityFileHints := by
          rw [hintsOf, List.length_take]
          omega
        have room : (hintsOf (directives.filterMap ParsedDirective.asIdentityFile)).length ≠
              maxIdentityFileHints ↔
            (hintsOf (directives.filterMap ParsedDirective.asIdentityFile)).length <
              maxIdentityFileHints := by omega
        rw [addDirective, hints_addIdentityFile, ih]
        simp only [room]
        exact (hintsOf_concat _ _).symm
      | hostName | user | port | route | blocking | ignored => cases file

theorem fields_of_values (h : state.values = other.values) :
    state.hostname = other.hostname ∧ state.user = other.user ∧ state.port = other.port ∧
      state.route = other.route ∧ state.identityFileHints = other.identityFileHints := by
  simp only [values, mk.injEq] at h
  simp only [h, and_self]

theorem fields_eq_held (state : Evaluation) :
    state.hostname = (state.held .hostName).bind ParsedDirective.asHostName ∧
      state.user = (state.held .user).bind ParsedDirective.asUser ∧
      state.port = (state.held .port).bind ParsedDirective.asPort ∧
      state.route = (state.held .route).bind ParsedDirective.asRoute := by
  refine ⟨?_, ?_, ?_, ?_⟩ <;> simp only [held]
  · cases state.hostname <;> rfl
  · cases state.user <;> rfl
  · cases state.port <;> rfl
  · cases state.route <;> rfl

end Evaluation

section

variable {document : List Entry} {hostAlias : List Char} {slot : DirectiveSlot}

def decided (hostAlias : List Char) (document : List Entry) (slot : DirectiveSlot) :
    Option ParsedDirective :=
  ((applying hostAlias true document).find? (·.slot = slot)).map Entry.directive

structure Decided (document : List Entry) (candidate : HostCandidate) : Prop where
  endpoint : candidate.endpoint =
    let hostname := (decided candidate.hostAlias document .hostName).bind ParsedDirective.asHostName
    let port := (decided candidate.hostAlias document .port).bind ParsedDirective.asPort
    (Evaluation.resolveEndpoint hostname (parseHostname candidate.hostAlias hostname).1
      (parsePort port).1).1
  user : candidate.user =
    (parseUser ((decided candidate.hostAlias document .user).bind ParsedDirective.asUser)).1
  route : candidate.route =
    (parseRoute ((decided candidate.hostAlias document .route).bind ParsedDirective.asRoute)).1
  identityFileHints : candidate.identityFileHints =
    Evaluation.hintsOf ((applying candidate.hostAlias true document).filterMap
      (·.directive.asIdentityFile))

theorem find?_directive :
    ((applying hostAlias true document).map Entry.directive).find? (·.slot = slot) =
      decided hostAlias document slot := by
  rw [decided, List.find?_map]
  congr 2
  funext entry
  exact congrArg (fun found => decide (found = slot)) entry.slot_directive

theorem setting_bind {α : Type} {f : ParsedDirective → Option α}
    (blocked : ∀ item slot, f (.blocking item slot) = none) (found : Option ParsedDirective) :
    (found.bind ParsedDirective.setting).bind f = found.bind f := by
  cases found with
  | none => rfl
  | some directive =>
    cases directive with
    | blocking item slot => exact (blocked item slot).symm
    | hostName | user | port | identityFile | route | ignored => rfl

theorem buildCandidate_decided {blocks : List ConfigBlock} {diagnostics : List Diagnostic}
    (h : effective hostAlias blocks = (applying hostAlias true document).map Entry.directive) :
    Decided document (buildCandidate blocks diagnostics hostAlias) := by
  let start : Evaluation := { diagnostics }
  let state := blocks.foldl (Evaluation.addBlock hostAlias) start
  let final := (effective hostAlias blocks).foldl Evaluation.addDirective start
  have values : state.values = final.values := Evaluation.foldl_addBlock_values rfl
  have held (slot : DirectiveSlot) (single : slot.Single) (seen : start.seen slot = false)
      (unset : start.held slot = none) :
      final.held slot = (decided hostAlias document slot).bind ParsedDirective.setting := by
    rw [Evaluation.held_foldl single unset, seen, h, find?_directive]
    rfl
  obtain ⟨hostname, user, port, route⟩ := final.fields_eq_held
  rw [held _ (by decide) rfl rfl, setting_bind (fun _ _ => rfl)] at hostname user port route
  obtain ⟨sameHostname, sameUser, samePort, sameRoute, sameHints⟩ :=
    Evaluation.fields_of_values values
  rw [← sameHostname] at hostname
  rw [← sameUser] at user
  rw [← samePort] at port
  rw [← sameRoute] at route
  refine ⟨?_, congrArg (fun user => (parseUser user).1) user,
    congrArg (fun route => (parseRoute route).1) route, ?_⟩
  · exact congrArg₂ (fun hostname port => (Evaluation.resolveEndpoint hostname
      (parseHostname hostAlias hostname).1 (parsePort port).1).1) hostname port
  · refine sameHints.trans ((Evaluation.hints_foldl rfl).trans ?_)
    rw [h, List.filterMap_map]
    rfl

end

section

variable {document other : Document} {hostAlias : List Char} {lines : List (List Char)}
  {rawLine : List Char} {line index : Nat}

def Document.evaluate (hostAlias : List Char) (document : Document) (extra : List Diagnostic)
    (state : Evaluation) : Evaluation :=
  (document.blocks.foldl (Evaluation.addBlock hostAlias) state).addBlock hostAlias
    { document.current with diagnostics := document.current.diagnostics ++ extra }

/-- Two documents that give the same candidate for the alias, whatever follows. -/
structure Document.Agree (hostAlias : List Char) (document other : Document) : Prop where
  aliases : document.aliases = other.aliases
  seen : document.seenAliases = other.seenAliases
  diagnostics : document.diagnostics = other.diagnostics
  limit : document.candidateLimitReported = other.candidateLimitReported
  selector : document.current.selector = other.current.selector
  evaluate : ∀ extra state, document.evaluate hostAlias extra state =
    other.evaluate hostAlias extra state

namespace Document.Agree

theorem symm (h : document.Agree hostAlias other) : other.Agree hostAlias document :=
  ⟨h.aliases.symm, h.seen.symm, h.diagnostics.symm, h.limit.symm, h.selector.symm,
    fun extra state => (h.evaluate extra state).symm⟩

theorem startBlock (h : document.Agree hostAlias other) (block : ConfigBlock) :
    (document.startBlock block).Agree hostAlias (other.startBlock block) := by
  have closed (document : Document) (extra : List Diagnostic) (state : Evaluation) :
      (document.startBlock block).evaluate hostAlias extra state =
        (document.evaluate hostAlias [] state).addBlock hostAlias
          { block with diagnostics := block.diagnostics ++ extra } := by
    simp [Document.evaluate, Document.startBlock]
  refine ⟨h.aliases, h.seen, h.diagnostics, h.limit, rfl, fun extra state => ?_⟩
  rw [closed, closed, h.evaluate]

theorem addAlias (h : document.Agree hostAlias other) (introduced : List Char) :
    (document.addAlias line introduced).Agree hostAlias (other.addAlias line introduced) := by
  simp only [Document.addAlias, h.seen, h.aliases, h.limit]
  split
  · exact h
  · split
    · split
      · exact h
      · exact ⟨rfl, rfl, by simp [Document.report, h.diagnostics], rfl, h.selector, h.evaluate⟩
    · exact ⟨rfl, rfl, h.diagnostics, rfl, h.selector, h.evaluate⟩

theorem foldl_addAlias (h : document.Agree hostAlias other) (introduced : List (List Char)) :
    (introduced.foldl (Document.addAlias line) document).Agree hostAlias
      (introduced.foldl (Document.addAlias line) other) := by
  induction introduced generalizing document other with
  | nil => exact h
  | cons first introduced ih => exact ih (h.addAlias first)

theorem evaluate_directive (document : Document) (directive : ParsedDirective)
    (extra : List Diagnostic) (state : Evaluation) :
    ({ document with current := { document.current with
        directives := document.current.directives ++ [directive] } } : Document).evaluate
        hostAlias extra state =
      if document.current.selector.matches hostAlias then
        (document.evaluate hostAlias extra state).addDirective directive
      else document.evaluate hostAlias extra state := by
  simp only [Document.evaluate, Evaluation.addBlock]
  split
  · rw [List.foldl_append]
    rfl
  · rfl

theorem addParsed (h : document.Agree hostAlias other) (entry : Entry) :
    (document.addParsed entry.parsed entry.line).Agree hostAlias
      (other.addParsed entry.parsed entry.line) := by
  by_cases host : entry.IsHost
  · rw [document.addParsed_host host, other.addParsed_host host]
    exact (h.startBlock _).foldl_addAlias _
  by_cases isMatch : entry.IsMatch
  · rw [document.addParsed_match host isMatch, other.addParsed_match host isMatch]
    exact h.startBlock _
  have directive := not_or.mpr ⟨host, isMatch⟩
  rw [document.addParsed_directive directive, other.addParsed_directive directive]
  refine ⟨h.aliases, h.seen, h.diagnostics, h.limit, h.selector, fun extra state => ?_⟩
  rw [evaluate_directive, evaluate_directive, h.selector, h.evaluate]

theorem addLine (h : document.Agree hostAlias other) (line : Nat) (rawLine : List Char) :
    (document.addLine line rawLine).Agree hostAlias (other.addLine line rawLine) := by
  by_cases short : String.utf8Len rawLine ≤ maxLineBytes
  · cases read : parseLine rawLine with
    | error message =>
      rw [document.addLine_error _ short read, other.addLine_error _ short read]
      refine ⟨h.aliases, h.seen, h.diagnostics, h.limit, h.selector, fun extra state => ?_⟩
      simpa [Document.evaluate] using h.evaluate (diagnostic .invalidSyntax (some line) none
        message true :: extra) state
    | ok said =>
      cases said with
      | none => rwa [document.addLine_none _ short read, other.addLine_none _ short read]
      | some parsed =>
        rw [document.addLine_parsed _ short read, other.addLine_parsed _ short read]
        exact h.addParsed ⟨line, parsed⟩
  · rw [Document.addLine, Document.addLine, if_pos (by omega), if_pos (by omega)]
    exact ⟨h.aliases, h.seen, by simp [Document.report, h.diagnostics], h.limit, h.selector,
      h.evaluate⟩

theorem addLines (h : document.Agree hostAlias other) (index : Nat) (lines : List (List Char)) :
    (document.addLines index lines).Agree hostAlias (other.addLines index lines) := by
  induction lines generalizing document other index with
  | nil => exact h
  | cons rawLine lines ih =>
    rw [Document.addLines, Document.addLines]
    split
    · exact ⟨h.aliases, h.seen, by simp [Document.report, h.diagnostics], h.limit, h.selector,
        h.evaluate⟩
    · exact ih (h.addLine _ _) _

end Document.Agree

theorem Document.evaluate_seen {slot : DirectiveSlot} (single : slot.Single)
    (decided : ∃ directive ∈ effective hostAlias document.allBlocks, directive.slot = slot)
    (extra : List Diagnostic) (state : Evaluation) :
    (document.evaluate hostAlias extra state).seen slot = true := by
  let blocks := document.blocks ++
    [{ document.current with diagnostics := document.current.diagnostics ++ extra }]
  have same : effective hostAlias blocks = effective hostAlias document.allBlocks := by
    simp [effective, blocks, Document.allBlocks]
  have run : document.evaluate hostAlias extra state =
      blocks.foldl (Evaluation.addBlock hostAlias) state := by
    rw [List.foldl_append]
    rfl
  have seen (a b : Evaluation) (h : a.values = b.values) : a.seen slot = b.seen slot := by
    simp only [Evaluation.values, Evaluation.mk.injEq] at h
    cases slot <;> simp [Evaluation.seen, h]
  rw [run, seen _ _ (Evaluation.foldl_addBlock_values rfl), Evaluation.seen_foldl single, same]
  obtain ⟨directive, mem, here⟩ := decided
  rw [Bool.or_eq_true, List.any_eq_true]
  exact .inr ⟨directive, mem, decide_eq_true here⟩

theorem Entry.not_header {entry : Entry} (single : entry.slot.Single) :
    ¬(entry.IsHost ∨ entry.IsMatch) := by
  have named (name : String) (other : ¬(slotForKeyword (name.toList.map Char.toLower)).Single) :
      keywordIs entry.parsed.keyword name ≠ true := by
    intro same
    rw [keywordIs, Text.eqIgnoreAsciiCase, decide_eq_true_eq] at same
    rw [Entry.slot, same] at single
    exact other single
  rintro (host | isMatch)
  · exact named "host" (by decide +kernel) host
  · exact named "match" (by decide +kernel) isMatch

/-- The line sets a slot that a line before it decides for the alias. -/
def Shadowed (hostAlias : List Char) (lines : List (List Char)) (i : Nat) : Prop :=
  ∃ rawLine parsed, lines[i]? = some rawLine ∧ parseLine rawLine = .ok (some parsed) ∧
    let slot := slotForKeyword (parsed.keyword.map Char.toLower)
    slot.Single ∧ ∃ entry ∈ applying hostAlias true (entries 0 (lines.take i)), entry.slot = slot

theorem agree_of_shadowed {i : Nat} (few : lines.length ≤ maxConfigLines)
    (short : ∀ rawLine ∈ lines, String.utf8Len rawLine ≤ maxLineBytes)
    (shadowed : Shadowed hostAlias lines i) :
    (Document.addLines {} 0 lines).Agree hostAlias (Document.addLines {} 0 (lines.set i [])) := by
  obtain ⟨rawLine, parsed, at_, read, single, entry, mem, same⟩ := shadowed
  obtain ⟨less, value⟩ := List.getElem?_eq_some_iff.mp at_
  have split : lines = lines.take i ++ rawLine :: lines.drop (i + 1) := by
    rw [← value, List.getElem_cons_drop, List.take_append_drop]
  have length : (lines.take i).length = i := List.length_take_of_le less.le
  have before : ∀ rawLine ∈ lines.take i, String.utf8Len rawLine ≤ maxLineBytes :=
    fun line mem => short line (List.mem_of_mem_take mem)
  let document := Document.addLines {} 0 (lines.take i)
  have run (line : List Char) : Document.addLines {} 0
      (lines.take i ++ line :: lines.drop (i + 1)) =
        (document.addLine (i + 1) line).addLines (i + 1) (lines.drop (i + 1)) := by
    rw [Document.addLines_append (by omega), length, Nat.zero_add, Document.addLines_cons]
    simp only [List.length_cons, List.length_drop]
    omega
  have decided : ∃ directive ∈ effective hostAlias document.allBlocks,
      directive.slot = slotForKeyword (parsed.keyword.map Char.toLower) := by
    rw [Document.effective_addLines before (by omega)]
    exact ⟨entry.directive, List.mem_append_right _ (List.mem_map_of_mem mem),
      entry.slot_directive.trans same⟩
  have set : lines.set i [] = lines.take i ++ [] :: lines.drop (i + 1) :=
    List.set_eq_take_append_cons_drop.trans (if_pos less)
  rw [set, run, split, run, ← split]
  refine Document.Agree.addLines ?_ _ _
  have empty : document.addLine (i + 1) [] = document :=
    document.addLine_none _ (by decide) rfl
  rw [empty, document.addLine_parsed _ (short _ (List.mem_of_getElem? at_)) read]
  let later : Entry := ⟨i + 1, parsed⟩
  have directive := document.addParsed_directive (later.not_header single)
  rw [directive]
  refine ⟨rfl, rfl, rfl, rfl, rfl, fun extra state => ?_⟩
  rw [Document.Agree.evaluate_directive]
  split
  · have slot : later.directive.slot = slotForKeyword (parsed.keyword.map Char.toLower) :=
      later.slot_directive
    refine Evaluation.addDirective_of_seen (slot ▸ single) ?_
    rw [slot]
    exact Document.evaluate_seen single decided extra state
  · rfl

theorem mem_preview_candidates {candidate : HostCandidate} :
    candidate ∈ document.preview.candidates ↔ candidate.hostAlias ∈ document.aliases ∧
        candidate = (document.evaluate candidate.hostAlias []
          { diagnostics := document.preview.diagnostics }).finish candidate.hostAlias := by
  have build (hostAlias : List Char) (diagnostics : List Diagnostic) :
      buildCandidate document.allBlocks diagnostics hostAlias =
        (document.evaluate hostAlias [] { diagnostics }).finish hostAlias := by
    rw [buildCandidate, Document.allBlocks, List.foldl_append, Document.evaluate, List.append_nil]
    rfl
  have mapped : document.preview.candidates =
      document.aliases.map (buildCandidate document.allBlocks document.preview.diagnostics) := rfl
  rw [mapped, List.mem_map]
  constructor
  · rintro ⟨hostAlias, mem, rfl⟩
    exact ⟨mem, build _ _⟩
  · rintro ⟨mem, same⟩
    exact ⟨candidate.hostAlias, mem, (build _ _).trans same.symm⟩

theorem Document.Agree.candidates (h : document.Agree hostAlias other) {candidate : HostCandidate}
    (named : candidate.hostAlias = hostAlias) (mem : candidate ∈ document.preview.candidates) :
    candidate ∈ other.preview.candidates := by
  have diagnostics : document.preview.diagnostics = other.preview.diagnostics := by
    simp only [Document.preview, h.diagnostics, h.aliases]
  subst named
  rw [mem_preview_candidates] at mem ⊢
  rwa [← h.aliases, ← h.evaluate, ← diagnostics]

/-- The preview of a text within the limits: its candidates are the first aliases that it
introduces, the first line of each slot among those that apply decides, and a line of a slot that
is decided already could as well be empty.  A `Host` line without patterns applies to everything. -/
theorem preview_first_match (input : List Char) (size : String.utf8Len input ≤ maxConfigBytes)
    (few : (Text.lines input).length ≤ maxConfigLines)
    (short : ∀ rawLine ∈ Text.lines input, String.utf8Len rawLine ≤ maxLineBytes) :
    let document := entries 0 (Text.lines input)
    let preview := parseOpenSshConfigPreview input
    preview.candidates.map (·.hostAlias) =
        (firsts (List.map Char.toLower) (document.flatMap Entry.aliases)).take maxCandidates ∧
      ∀ candidate ∈ preview.candidates, Decided document candidate ∧
          ∀ i, Shadowed candidate.hostAlias (Text.lines input) i →
            ∀ other, String.utf8Len other ≤ maxConfigBytes →
              Text.lines other = (Text.lines input).set i [] →
                candidate ∈ (parseOpenSshConfigPreview other).candidates := by
  intro document preview
  let read := Document.addLines {} 0 (Text.lines input)
  have preview_eq (text : List Char) (size : String.utf8Len text ≤ maxConfigBytes) :
      parseOpenSshConfigPreview text = (Document.addLines {} 0 (Text.lines text)).preview := by
    rw [parseOpenSshConfigPreview, if_neg (by omega)]
  have here : preview = read.preview := preview_eq input size
  have few' : 0 + (Text.lines input).length ≤ maxConfigLines := by omega
  have collected := Document.collected_nil.addLines short few'
  refine ⟨?_, fun candidate mem => ⟨?_, fun i shadowed other size' lines => ?_⟩⟩
  · rw [here, ← List.nil_append (document.flatMap Entry.aliases), ← collected.aliases]
    simp only [Document.preview, List.map_map]
    exact List.map_id _
  · rw [here] at mem
    obtain ⟨hostAlias, -, rfl⟩ := List.mem_map.mp mem
    exact buildCandidate_decided (Document.effective_addLines short few')
  · rw [preview_eq other size', lines]
    rw [here] at mem
    exact (agree_of_shadowed few short shadowed).candidates rfl mem

theorem preview_first_match_safe :
    let input := "Host safe\nUser bob\nHost *\nUser eve\n".toList
    let preview := parseOpenSshConfigPreview input
    (preview.candidates.map fun candidate => (candidate.hostAlias, candidate.user)) =
        [("safe".toList, some "bob".toList)] ∧
      Shadowed "safe".toList (Text.lines input) 3 ∧
      ∀ candidate ∈ preview.candidates, Decided (entries 0 (Text.lines input)) candidate := by
  refine ⟨by decide +kernel, ⟨"User eve".toList, ⟨"User".toList, ["eve".toList]⟩,
    by decide +kernel, by decide +kernel, by decide +kernel,
    ⟨2, ⟨"User".toList, ["bob".toList]⟩⟩, ?_, by decide +kernel⟩, ?_⟩
  · decide +kernel
  · exact fun candidate mem => ((preview_first_match _ (by decide +kernel) (by decide +kernel)
      (by decide +kernel)).2 candidate mem).1

/-- No pattern of the second block is there to match, and yet its user is taken. -/
theorem host_without_patterns_applies :
    let input := "Host safe\nHost\nUser bob\n".toList
    (entries 0 (Text.lines input)).map (·.parsed) =
        [⟨"Host".toList, ["safe".toList]⟩, ⟨"Host".toList, []⟩, ⟨"User".toList, ["bob".toList]⟩] ∧
      (parseOpenSshConfigPreview input).candidates.map
          (fun candidate => (candidate.hostAlias, candidate.user)) =
        [("safe".toList, some "bob".toList)] := by
  decide +kernel

end

end NoriShell.Ssh.OpenSsh

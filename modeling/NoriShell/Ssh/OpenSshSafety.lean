import NoriShell.Ssh.EndpointLaws
import NoriShell.Ssh.OpenSshEvaluation

/-! Hosts that may be imported are understood in full. -/

namespace NoriShell.Ssh.OpenSsh

open Collections Collections.Check

structure EndpointPreview.Literal (endpoint : EndpointPreview) : Prop where
  port : endpoint.port ≠ 0
  unchanged : Endpoint.parse endpoint.address endpoint.port = .ok ⟨endpoint.address, endpoint.port⟩
  pattern : ∀ c ∈ ['*', '?', '!', '`'], c ∉ endpoint.address
  expansion : containsDangerousExpansion endpoint.address = false

def LiteralUser (user : List Char) : Prop :=
  user ≠ [] ∧ ∀ c ∈ user, Text.isAsciiAlphanumeric c = true ∨ c ∈ ['.', '_', '-', '+', '@']

structure JumpHopPreview.Literal (hop : JumpHopPreview) : Prop where
  endpoint : hop.endpoint.Literal
  user : ∀ user, hop.user = some user → LiteralUser user

def RoutePreview.Literal : RoutePreview → Prop
  | .direct => True
  | .jumpChain hops => 1 ≤ hops.length ∧ hops.length ≤ maxJumpHops ∧ ∀ hop ∈ hops, hop.Literal
  | .httpConnect proxy | .socks5 proxy => proxy.Literal

structure PlainHint (hint : List Char) : Prop where
  control : ∀ c ∈ hint, Text.isControl c = false
  shell : ∀ c ∈ ['`', ';', '|'], c ∉ hint
  expansion : containsDangerousExpansion hint = false

section

variable {address value user : List Char} {port : UInt16} {endpoint : EndpointPreview}

theorem plain_expansion (plain : ∀ c ∈ address, IsPlain c) :
    containsDangerousExpansion address = false := by
  rw [Bool.eq_false_iff]
  intro expansion
  rcases containsDangerousExpansion_mem expansion with mem | mem
  · exact absurd (plain _ mem).toNat (by decide)
  · exact absurd (plain _ mem).toNat (by decide)

theorem parseEndpoint_literal {ε : Type} {error : ε}
    (h : parseEndpoint address port error = .ok endpoint) : endpoint.Literal := by
  rw [parseEndpoint] at h
  split at h
  next parsed read =>
    cases h
    obtain ⟨positive, normalized, same⟩ := parse_eq_ok.mp read
    have normal := normalizeHostAddress_normal normalized
    refine ⟨by rwa [same], parse_eq_ok.mpr ⟨by rwa [same], normal.normalize, rfl⟩, ?_,
      plain_expansion fun c => normal.chars⟩
    intro c special mem
    have range := (normal.chars mem).toNat
    revert range
    simp only [List.mem_cons, List.not_mem_nil, or_false] at special
    rcases special with rfl | rfl | rfl | rfl <;> decide
  next => cases h

theorem isValidUser_literal (valid : isValidUser user = true) : LiteralUser user := by
  simp only [isValidUser, Bool.and_eq_true, List.all_eq_true, Bool.or_eq_true,
    decide_eq_true_eq] at valid
  refine ⟨?_, valid.2⟩
  rintro rfl
  cases valid.1.1.1

theorem isValidIdentityHint_plain (valid : isValidIdentityHint value = true) : PlainHint value := by
  simp only [isValidIdentityHint, Bool.and_eq_true, Bool.not_eq_true'] at valid
  obtain ⟨⟨⟨-, control⟩, expansion⟩, shell⟩ := valid
  rw [List.any_eq_false] at control shell
  refine ⟨fun c mem => by simpa using control c mem, fun c special mem => ?_, expansion⟩
  exact shell c mem (decide_eq_true special)

theorem splitUser_literal {endpoint : List Char} {found : Option (List Char)}
    (h : splitUser value = .ok (found, endpoint)) :
    ∀ user, found = some user → LiteralUser user := by
  rw [splitUser] at h
  split at h
  · split at h
    · cases h
    next valid =>
      cases h
      rintro user same
      cases same
      exact isValidUser_literal (by simpa using (not_or.mp valid).1)
  · cases h
    intro user same
    cases same

theorem parseJumpHop_literal {hop : JumpHopPreview} (h : parseJumpHop value = .ok hop) :
    hop.Literal := by
  simp only [parseJumpHop, bind_eq_ok] at h
  obtain ⟨-, -, ⟨user, rest⟩, split, ⟨address, port⟩, -, endpoint, read, same⟩ := h
  cases same
  exact ⟨parseEndpoint_literal read, splitUser_literal split⟩

theorem mapM_length {ε α β : Type} {f : α → Except ε β} {l : List α} {l' : List β}
    (h : l.mapM f = .ok l') : l'.length = l.length := by
  induction l generalizing l' with
  | nil =>
    cases h
    rfl
  | cons a l ih =>
    simp only [List.mapM_cons, bind_eq_ok] at h
    obtain ⟨b, -, rest, others, same⟩ := h
    cases same
    rw [List.length_cons, List.length_cons, ih others]

theorem parseRoute_literal (source : Option (RouteSource × Nat)) :
    (parseRoute source).1.Literal := by
  cases source with
  | none => trivial
  | some source =>
    obtain ⟨value, line⟩ := source
    cases value with
    | proxyJump value =>
      rw [parseRoute]
      split
      next hops read =>
        simp only [parseProxyJump, bind_eq_ok, reject_eq_ok, not_or, not_lt] at read
        obtain ⟨-, -, -, ⟨nonempty, few, -⟩, each⟩ := read
        refine ⟨?_, (mapM_length each).trans_le few, fun hop mem => ?_⟩
        · exact (mapM_length each).symm ▸ List.length_pos_iff.mpr nonempty
        · obtain ⟨part, -, read⟩ := mapM_eq_ok each hop mem
          exact parseJumpHop_literal read
      next => trivial
    | proxyCommand values =>
      rw [parseRoute]
      split
      next route read =>
        rw [parseProxyCommand] at read
        split at read
        · cases read
          trivial
        · simp only [bind_eq_ok] at read
          obtain ⟨-, -, read⟩ := read
          split at read
          · cases read
          · simp only [bind_eq_ok] at read
            obtain ⟨⟨address, port⟩, -, proxy, endpoint, read⟩ := read
            have literal := parseEndpoint_literal endpoint
            split at read
            · cases read
              exact literal
            · split at read
              · cases read
                exact literal
              · cases read
      next => trivial

end

def Quiet (diagnostics : List Diagnostic) : Prop := ∀ item ∈ diagnostics, item.blocking = false

namespace Evaluation

variable {state : Evaluation} {directive : ParsedDirective} {hostAlias : List Char}
  {directives : List ParsedDirective} {blocks : List ConfigBlock}

theorem diagnostics_addDirective :
    state.diagnostics ⊆ (state.addDirective directive).diagnostics := by
  have more (state : Evaluation) (item : Diagnostic) :
      state.diagnostics ⊆ (state.report item).diagnostics := List.subset_append_left _ _
  cases directive with
  | hostName | user | port | route =>
    rw [addDirective]
    split <;> exact List.Subset.refl _
  | identityFile value line =>
    rw [addDirective, addIdentityFile]
    (repeat' split) <;> first | exact List.Subset.refl _ | exact more _ _
  | blocking item slot =>
    cases slot with
    | always | identityFile => exact more _ _
    | hostName | user | port | route =>
      rw [addDirective]
      split
      · exact List.Subset.refl _
      · exact more _ _
  | ignored => exact List.Subset.refl _

theorem diagnostics_foldl :
    state.diagnostics ⊆ (directives.foldl addDirective state).diagnostics := by
  induction directives generalizing state with
  | nil => exact List.Subset.refl _
  | cons directive directives ih => exact List.Subset.trans diagnostics_addDirective ih

theorem diagnostics_addBlock (block : ConfigBlock) :
    state.diagnostics ⊆ (state.addBlock hostAlias block).diagnostics := by
  rw [addBlock]
  split
  · exact fun item mem => diagnostics_foldl (List.mem_append_left _ mem)
  · exact List.Subset.refl _

theorem diagnostics_addBlocks :
    state.diagnostics ⊆ (blocks.foldl (addBlock hostAlias) state).diagnostics := by
  induction blocks generalizing state with
  | nil => exact List.Subset.refl _
  | cons block blocks ih => exact List.Subset.trans (diagnostics_addBlock block) ih

theorem reported_foldl {item : Diagnostic} (mem : .blocking item .always ∈ directives) :
    item ∈ (directives.foldl addDirective state).diagnostics := by
  obtain ⟨before, after, rfl⟩ := List.append_of_mem mem
  rw [List.foldl_append, List.foldl_cons]
  exact diagnostics_foldl (List.mem_append_right _ List.mem_cons_self)

theorem reported_blocks {block : ConfigBlock} (mem : block ∈ blocks)
    (applies : block.selector.matches hostAlias = true) {item : Diagnostic}
    (wrong : item ∈ block.diagnostics ∨ .blocking item .always ∈ block.directives) :
    item ∈ (blocks.foldl (addBlock hostAlias) state).diagnostics := by
  obtain ⟨before, after, rfl⟩ := List.append_of_mem mem
  rw [List.foldl_append, List.foldl_cons]
  refine diagnostics_addBlocks ?_
  rw [addBlock, if_pos applies]
  rcases wrong with wrong | wrong
  · exact diagnostics_foldl (List.mem_append_right _ wrong)
  · exact reported_foldl wrong

end Evaluation

namespace Document

variable {document : Document} {lines : List (List Char)} {index line : Nat}

theorem diagnostics_addAlias {hostAlias : List Char} :
    document.diagnostics ⊆ (document.addAlias line hostAlias).diagnostics := by
  simp only [addAlias]
  split
  · exact List.Subset.refl _
  · split
    · split
      · exact List.Subset.refl _
      · exact List.subset_append_left _ _
    · exact List.Subset.refl _

theorem diagnostics_foldl_addAlias (document : Document) (aliases : List (List Char)) :
    document.diagnostics ⊆ (aliases.foldl (addAlias line) document).diagnostics := by
  induction aliases generalizing document with
  | nil => exact List.Subset.refl _
  | cons hostAlias aliases ih => exact List.Subset.trans diagnostics_addAlias (ih _)

theorem diagnostics_addLine (rawLine : List Char) :
    document.diagnostics ⊆ (document.addLine line rawLine).diagnostics := by
  by_cases short : String.utf8Len rawLine ≤ maxLineBytes
  · cases read : parseLine rawLine with
    | error message => rw [document.addLine_error _ short read]; exact List.Subset.refl _
    | ok said =>
      cases said with
      | none => rw [document.addLine_none _ short read]; exact List.Subset.refl _
      | some parsed =>
        let entry : Entry := ⟨line, parsed⟩
        rw [document.addLine_parsed _ short read]
        by_cases host : entry.IsHost
        · rw [document.addParsed_host host]
          exact (document.startBlock entry.block).diagnostics_foldl_addAlias _
        · by_cases isMatch : entry.IsMatch
          · rw [document.addParsed_match host isMatch]
            exact List.Subset.refl _
          · rw [document.addParsed_directive (not_or.mpr ⟨host, isMatch⟩)]
            exact List.Subset.refl _
  · rw [addLine, if_pos (by omega)]
    exact List.subset_append_left _ _

theorem diagnostics_addLines :
    document.diagnostics ⊆ (document.addLines index lines).diagnostics := by
  induction lines generalizing document index with
  | nil => exact List.Subset.refl _
  | cons rawLine lines ih =>
    rw [addLines]
    split
    · exact List.subset_append_left _ _
    · exact List.Subset.trans (diagnostics_addLine rawLine) ih

theorem limits_of_quiet (quiet : Quiet (document.addLines index lines).diagnostics)
    (start : index ≤ maxConfigLines) :
    index + lines.length ≤ maxConfigLines ∧
      ∀ rawLine ∈ lines, String.utf8Len rawLine ≤ maxLineBytes := by
  induction lines generalizing document index with
  | nil => exact ⟨start, by simp⟩
  | cons rawLine lines ih =>
    rw [addLines] at quiet
    split at quiet
    · exact absurd (quiet _ (List.mem_append_right _ List.mem_cons_self)) (by simp [diagnostic])
    next less =>
      obtain ⟨few, short⟩ := ih quiet (by omega)
      refine ⟨by rw [List.length_cons]; omega, fun line mem => ?_⟩
      rcases List.mem_cons.mp mem with rfl | mem
      · by_contra long
        rw [addLine, if_pos (by omega)] at quiet
        exact absurd (quiet _ (diagnostics_addLines
          (List.mem_append_right _ List.mem_cons_self))) (by simp [diagnostic])
      · exact short line mem

def Reports (document : Document) (block : ConfigBlock) : Prop :=
  ∃ found ∈ document.allBlocks, found.selector = block.selector ∧
    block.diagnostics ⊆ found.diagnostics

variable {block : ConfigBlock}

theorem Reports.mono {other : Document} {current : ConfigBlock}
    (h : document.Reports block) (blocks : document.blocks ⊆ other.allBlocks)
    (kept : current ∈ other.allBlocks) (selector : current.selector = document.current.selector)
    (diagnostics : document.current.diagnostics ⊆ current.diagnostics) : other.Reports block := by
  obtain ⟨found, mem, same, reported⟩ := h
  rcases List.mem_append.mp mem with mem | last
  · exact ⟨found, blocks mem, same, reported⟩
  · cases List.mem_singleton.mp last
    exact ⟨current, kept, selector.trans same, List.Subset.trans reported diagnostics⟩

theorem Reports.addParsed (h : document.Reports block) (entry : Entry) :
    (document.addParsed entry.parsed entry.line).Reports block := by
  by_cases header : entry.IsHost ∨ entry.IsMatch
  · obtain ⟨blocks, current⟩ := document.addParsed_header header
    have kept : document.allBlocks ⊆
        (document.addParsed entry.parsed entry.line).allBlocks := by
      rw [allBlocks.eq_1 (document.addParsed _ _), blocks]
      exact List.subset_append_left _ _
    exact h.mono (fun _ mem => kept (List.mem_append_left _ mem))
      (kept (List.mem_append_right _ List.mem_cons_self)) rfl (List.Subset.refl _)
  · rw [document.addParsed_directive header]
    exact h.mono (List.subset_append_left _ _) (List.mem_append_right _ List.mem_cons_self) rfl
      (List.Subset.refl _)

theorem Reports.addLine (h : document.Reports block) {rawLine : List Char}
    (short : String.utf8Len rawLine ≤ maxLineBytes) :
    (document.addLine line rawLine).Reports block := by
  cases read : parseLine rawLine with
  | error message =>
    rw [document.addLine_error _ short read]
    exact h.mono (List.subset_append_left _ _) (List.mem_append_right _ List.mem_cons_self) rfl
      (List.subset_append_left _ _)
  | ok said =>
    cases said with
    | none => rwa [document.addLine_none _ short read]
    | some parsed =>
      rw [document.addLine_parsed _ short read]
      exact h.addParsed ⟨line, parsed⟩

theorem Reports.addLines (h : document.Reports block)
    (short : ∀ rawLine ∈ lines, String.utf8Len rawLine ≤ maxLineBytes)
    (few : index + lines.length ≤ maxConfigLines) :
    (document.addLines index lines).Reports block := by
  induction lines generalizing document index with
  | nil => exact h
  | cons rawLine lines ih =>
    rw [addLines_cons few]
    obtain ⟨here, short⟩ := List.forall_mem_cons.mp short
    exact ih (h.addLine here) short (few_tail few)

theorem reports_header (short : ∀ rawLine ∈ lines, String.utf8Len rawLine ≤ maxLineBytes)
    (few : index + lines.length ≤ maxConfigLines) {entry : Entry}
    (mem : entry ∈ entries index lines) (header : entry.IsHost ∨ entry.IsMatch) :
    (document.addLines index lines).Reports entry.block := by
  induction lines generalizing document index with
  | nil => cases mem
  | cons rawLine lines ih =>
    obtain ⟨here, short⟩ := List.forall_mem_cons.mp short
    rw [addLines_cons few]
    rw [entries] at mem
    split at mem
    next parsed read =>
      rcases List.mem_cons.mp mem with rfl | mem
      · rw [document.addLine_parsed _ here read]
        refine Reports.addLines ⟨_, List.mem_append_right _ List.mem_cons_self, ?_⟩ short
          (few_tail few)
        rw [(document.addParsed_header header).2]
        exact ⟨rfl, List.Subset.refl _⟩
      · exact ih short (few_tail few) mem
    next => exact ih short (few_tail few) mem

end Document

structure Understood (candidate : HostCandidate) : Prop where
  endpoint : ∃ endpoint, candidate.endpoint = some endpoint ∧ endpoint.Literal
  user : ∀ user, candidate.user = some user → LiteralUser user
  route : candidate.route.Literal
  hints : ∀ hint ∈ candidate.identityFileHints, PlainHint hint

def Supported (keyword : List Char) : Prop :=
  keyword ∈ ["hostname", "user", "port", "identityfile", "proxyjump", "proxycommand"].map
      String.toList ∨
    isIgnoredDirective keyword = true

structure Plain (hostAlias : List Char) (input : List Char) : Prop where
  size : String.utf8Len input ≤ maxConfigBytes
  few : (Text.lines input).length ≤ maxConfigLines
  short : ∀ rawLine ∈ Text.lines input, String.utf8Len rawLine ≤ maxLineBytes
  aliases : (firsts (List.map Char.toLower)
    ((entries 0 (Text.lines input)).flatMap Entry.aliases)).length ≤ maxCandidates
  noMatch : ∀ entry ∈ entries 0 (Text.lines input), ¬entry.IsMatch
  directives : ∀ entry ∈ applying hostAlias true (entries 0 (Text.lines input)),
    Supported (entry.parsed.keyword.map Char.toLower)
  patterns : ∀ entry ∈ entries 0 (Text.lines input), entry.IsHost → entry.AppliesTo hostAlias →
    entry.parsed.values ≠ [] ∧ ∀ value ∈ entry.parsed.values, ¬Unevaluable value ∧
      (¬Negated value → '*' ∉ value → '?' ∉ value → isValidAlias value = true)

theorem supported_of_quiet {entry : Entry}
    (quiet : ∀ item, entry.directive = .blocking item .always → item.blocking = false) :
    Supported (entry.parsed.keyword.map Char.toLower) := by
  by_contra other
  obtain ⟨unknown, counted⟩ := not_or.mp other
  simp only [List.map_cons, List.map_nil, List.mem_cons, List.not_mem_nil, or_false,
    not_or] at unknown
  obtain ⟨hostname, user, port, identityFile, jump, command⟩ := unknown
  have always : slotForKeyword (entry.parsed.keyword.map Char.toLower) = .always := by
    simp only [slotForKeyword, if_neg hostname, if_neg user, if_neg port, if_neg identityFile,
      if_neg (not_or.mpr ⟨jump, command⟩)]
  have reported (code : DiagnosticCode) (message : String)
      (here : entry.directive = .blocking (diagnostic code (some entry.line)
        (some entry.parsed.keyword) message true) .always) : False := by
    cases quiet _ here
  rw [Entry.directive, parseDirective] at reported
  simp only [always, if_neg hostname, if_neg user, if_neg port, if_neg identityFile, if_neg jump,
    if_neg command, if_neg counted] at reported
  split at reported
  · exact reported _ _ rfl
  · split at reported
    · exact reported _ _ rfl
    · exact reported _ _ rfl

theorem resolveEndpoint_literal {hostname : Option (List Char × Nat)}
    {address : Option (List Char)} {port : Option UInt16} {endpoint : EndpointPreview}
    (h : (Evaluation.resolveEndpoint hostname address port).1 = some endpoint) :
    endpoint.Literal := by
  cases address with
  | none => cases h
  | some address =>
    cases port with
    | none => cases h
    | some port =>
      rw [Evaluation.resolveEndpoint] at h
      split at h
      next read =>
        cases h
        exact parseEndpoint_literal read
      next => cases h

theorem parseUser_literal {source : Option (List Char × Nat)} {user : List Char}
    (h : (parseUser source).1 = some user) : LiteralUser user := by
  cases source with
  | none => cases h
  | some source =>
    obtain ⟨value, line⟩ := source
    rw [parseUser] at h
    split at h
    next valid =>
      cases h
      exact isValidUser_literal valid
    next => cases h

theorem Decided.understood {document : List Entry} {candidate : HostCandidate}
    (h : Decided document candidate) (there : candidate.endpoint.isSome = true) :
    Understood candidate := by
  obtain ⟨endpoint, found⟩ := Option.isSome_iff_exists.mp there
  refine ⟨⟨endpoint, found, ?_⟩, fun user here => ?_, ?_, fun hint mem => ?_⟩
  · rw [h.endpoint] at found
    exact resolveEndpoint_literal found
  · rw [h.user] at here
    exact parseUser_literal here
  · rw [h.route]
    exact parseRoute_literal _
  · rw [h.identityFileHints] at mem
    exact isValidIdentityHint_plain (List.mem_filter.mp (List.mem_of_mem_take mem)).2

theorem Entry.not_host_of_match {entry : Entry} (isMatch : entry.IsMatch) : ¬entry.IsHost := by
  intro host
  rw [Entry.IsHost, keywordIs, Text.eqIgnoreAsciiCase, decide_eq_true_eq] at host
  rw [Entry.IsMatch, keywordIs, Text.eqIgnoreAsciiCase, decide_eq_true_eq, host] at isMatch
  revert isMatch
  decide +kernel

theorem quiet_of_importable {blocks : List ConfigBlock} {diagnostics : List Diagnostic}
    {hostAlias : List Char}
    (importable : (buildCandidate blocks diagnostics hostAlias).importable = true) :
    Quiet (blocks.foldl (Evaluation.addBlock hostAlias) { diagnostics }).diagnostics := by
  have all := (Bool.and_eq_true_iff.mp importable).2
  intro item mem
  simp only [List.all_append, Bool.and_eq_true] at all
  simpa using List.all_eq_true.mp all.1.1.1.1.1 item mem

/-- Only hosts that are understood in full, from texts that are, may be imported. -/
theorem importable_understood (input : List Char) (candidate : HostCandidate)
    (mem : candidate ∈ (parseOpenSshConfigPreview input).candidates)
    (importable : candidate.importable = true) :
    Understood candidate ∧ Plain candidate.hostAlias input := by
  rw [parseOpenSshConfigPreview] at mem
  split at mem
  · cases mem
  next size =>
  obtain ⟨hostAlias, -, rfl⟩ := List.mem_map.mp mem
  let read := Document.addLines {} 0 (Text.lines input)
  let state := read.allBlocks.foldl (Evaluation.addBlock hostAlias)
    { diagnostics := read.preview.diagnostics }
  have quiet : Quiet state.diagnostics := quiet_of_importable importable
  have quietRead : Quiet read.diagnostics := fun item mem =>
    quiet item (Evaluation.diagnostics_addBlocks (List.mem_append_left _ mem))
  obtain ⟨few, short⟩ := Document.limits_of_quiet quietRead (Nat.zero_le _)
  have lines : effective hostAlias read.allBlocks =
      (applying hostAlias true (entries 0 (Text.lines input))).map Entry.directive :=
    Document.effective_addLines short few
  have collected := Document.collected_nil.addLines short few
  have reported {entry : Entry} (mem : entry ∈ entries 0 (Text.lines input))
      (header : entry.IsHost ∨ entry.IsMatch) (applies : entry.AppliesTo hostAlias) :
      Quiet entry.block.diagnostics := by
    intro item wrong
    obtain ⟨block, found, selector, more⟩ : read.Reports entry.block :=
      Document.reports_header short few mem header
    refine quiet item (Evaluation.reported_blocks found ?_ (.inl (more wrong)))
    rw [selector, entry.block_matches, decide_eq_true applies]
  refine ⟨(buildCandidate_decided lines).understood (Bool.and_eq_true_iff.mp importable).1,
    not_lt.mp size, by simpa using few, short, ?_, ?_, ?_, ?_⟩
  · by_contra overflow
    obtain ⟨item, mem, blocking⟩ :=
      collected.reported (collected.overflow.mpr (not_le.mp overflow))
    rw [quietRead item mem] at blocking
    cases blocking
  · intro entry mem isMatch
    have notHost := Entry.not_host_of_match isMatch
    have quietBlock := reported mem (.inr isMatch) fun host => absurd host notHost
    rw [Entry.block, if_neg notHost] at quietBlock
    cases quietBlock _ List.mem_cons_self
  · intro entry mem
    refine supported_of_quiet fun item always => quiet item ?_
    have here : entry.directive ∈ effective hostAlias read.allBlocks := by
      rw [lines]
      exact List.mem_map_of_mem mem
    obtain ⟨block, found, there⟩ := List.mem_flatMap.mp here
    split at there
    next applies => exact Evaluation.reported_blocks found applies (.inr (always ▸ there))
    next => cases there
  · intro entry mem host applies
    have quietBlock := reported mem (.inl host) applies
    rw [Entry.block, if_pos host] at quietBlock
    have nothing : (parseHostSelector entry.parsed.values entry.line).diagnostics = [] := by
      refine List.eq_nil_iff_forall_not_mem.mpr fun item wrong => ?_
      cases (quietBlock item wrong).symm.trans (parseHostSelector_blocking wrong)
    exact parseHostSelector_diagnostics nothing

theorem importable_understood_safe : ∃ candidate ∈ (parseOpenSshConfigPreview
        "Host safe\nHostName %h.example.org\nProxyJump bob@gate:2222\n".toList).candidates,
      candidate.importable = true ∧ candidate.endpoint = some ⟨"safe.example.org".toList, 22⟩ ∧
        Understood candidate := by
  let candidate : HostCandidate := {
    hostAlias := "safe".toList
    endpoint := some ⟨"safe.example.org".toList, 22⟩
    user := none
    identityFileHints := []
    route := .jumpChain [⟨⟨"gate".toList, 2222⟩, some "bob".toList⟩]
    diagnostics := []
    importable := true }
  have mem : candidate ∈ (parseOpenSshConfigPreview
      "Host safe\nHostName %h.example.org\nProxyJump bob@gate:2222\n".toList).candidates := by
    decide +kernel
  exact ⟨candidate, mem, rfl, rfl, (importable_understood _ candidate mem rfl).1⟩

end NoriShell.Ssh.OpenSsh

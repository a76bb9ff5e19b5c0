import NoriShell.Operations.Words

/-! Typed operations cannot become other commands: the words of a planned command are the
fixed words of its operation with the parameters as literal text. -/

namespace NoriShell.Operations

open Collections Shell

section

variable (digest : String → String)

def RemoteOperation.command : RemoteOperation → List Segment
  | .docker operation => operation.command
  | .systemd operation => operation.command
  | .disk operation => operation.command
  | .network operation => operation.command
  | .process operation => operation.command
  | .crontab operation => operation.command digest
  | .nginx operation => operation.command
  | .custom operation => operation.command

def RemoteOperation.tools : RemoteOperation → List String
  | .docker _ => ["docker"]
  | .systemd (.journal _ _) => ["journalctl"]
  | .systemd _ => ["systemctl"]
  | .disk .filesystems => ["df"]
  | .disk (.usage _ _) => ["du", "mktemp", "rm", "sort", "head"]
  | .disk (.largeFiles _ _ _) => ["mktemp", "rm", "find", "sort", "head"]
  | .network (.dns _) => ["getent"]
  | .network (.tcp _ _ _) => ["timeout", "nc"]
  | .network (.http _ _) => ["curl"]
  | .network .routes => ["ip"]
  | .network (.routeTo _) => ["ip"]
  | .network (.tls _ _ _ _) => ["timeout", "openssl"]
  | .process (.list _) => ["ps"]
  | .process .sockets => ["ss"]
  | .process (.detail _) => ["cat", "ps", "awk"]
  | .process .cpuUsage => ["sleep"]
  | .process (.signal _ _) => ["cat", "kill"]
  | .crontab _ => ["crontab", "mktemp", "rm", "grep", "sha256sum", "cat"]
  | .nginx .sites => ["find"]
  | .nginx _ => ["nginx"]
  | .custom _ => []

def RemoteOperation.segments (operation : RemoteOperation) : List Segment :=
  .text "LC_ALL=C; export LC_ALL; " :: operation.tools.flatMap toolCheck ++ operation.command digest

def RemoteOperation.spec : RemoteOperation → Except PlanError Spec
  | .docker operation => Operations.docker operation
  | .systemd operation => Operations.systemd operation
  | .disk operation => Operations.disk operation
  | .network operation => Operations.network operation
  | .process operation => Operations.process operation
  | .crontab operation => Operations.crontab digest operation
  | .nginx operation => .ok (Operations.nginx operation)
  | .custom operation => Operations.custom operation

end

def RemoteOperation.parameters (digest : String → String) : RemoteOperation → List Value
  | .docker (.list _) | .docker .stats => []
  | .docker (.logs containerId lines none) => [.number lines.toNat, .text containerId]
  | .docker (.logs containerId lines (some seconds)) =>
    [.number lines.toNat, .number seconds.toNat, .text containerId]
  | .docker (.start containerId) => [.text containerId]
  | .docker (.stop containerId timeoutSeconds) | .docker (.restart containerId timeoutSeconds) =>
    [.number timeoutSeconds.toNat, .text containerId]
  | .systemd .list => []
  | .systemd (.journal unit lines) => [.number lines.toNat, .text unit]
  | .systemd (.status unit) | .systemd (.start unit) | .systemd (.stop unit)
  | .systemd (.restart unit) | .systemd (.enable unit) | .systemd (.disable unit) => [.text unit]
  | .disk .filesystems => []
  | .disk (.usage path maxDepth) => [.number maxDepth.toNat, .text path]
  | .disk (.largeFiles path minimumBytes limit) =>
    [.text path, .number (minimumBytes.toNat - 1), .number limit.toNat]
  | .network (.dns host) => [.text host]
  | .network (.tcp host port timeoutSeconds) =>
    [.number timeoutSeconds.toNat, .number timeoutSeconds.toNat, .text host, .number port.toNat]
  | .network (.http url timeoutSeconds) =>
    [.number timeoutSeconds.toNat, .number maxOutput, .text url]
  | .network .routes => []
  | .network (.routeTo destination) => [.text destination]
  | .network (.tls host port serverName timeoutSeconds) =>
    [.number timeoutSeconds.toNat, .text (tlsConnect host port), .text (serverName.getD host)]
  | .process (.list _) | .process .sockets | .process .cpuUsage => []
  | .process (.detail pid) => [.number pid.toNat]
  | .process (.signal identity _) =>
    [.number identity.pid.toNat, .number identity.startTimeTicks.toNat]
  | .crontab .read => []
  | .crontab (.replace expectedSha256 content) =>
    [.text (digest content), .text (toAsciiLowercase expectedSha256)]
  | .nginx _ | .custom _ => []

abbrev NumberMap := ∀ (α : Type) [OfNat α 0], α → α

section

variable (text : String → String) (number : NumberMap)

def DockerOperation.map : DockerOperation → DockerOperation
  | .list all => .list all
  | .stats => .stats
  | .logs containerId lines sinceSeconds =>
    .logs (text containerId) (number _ lines) (sinceSeconds.map (number _))
  | .start containerId => .start (text containerId)
  | .stop containerId timeoutSeconds => .stop (text containerId) (number _ timeoutSeconds)
  | .restart containerId timeoutSeconds => .restart (text containerId) (number _ timeoutSeconds)

def SystemdOperation.map : SystemdOperation → SystemdOperation
  | .list => .list
  | .status unit => .status (text unit)
  | .journal unit lines => .journal (text unit) (number _ lines)
  | .start unit => .start (text unit)
  | .stop unit => .stop (text unit)
  | .restart unit => .restart (text unit)
  | .enable unit => .enable (text unit)
  | .disable unit => .disable (text unit)

def DiskOperation.map : DiskOperation → DiskOperation
  | .filesystems => .filesystems
  | .usage path maxDepth => .usage (text path) (number _ maxDepth)
  | .largeFiles path minimumBytes limit =>
    .largeFiles (text path) (number _ minimumBytes) (number _ limit)

def NetworkOperation.map : NetworkOperation → NetworkOperation
  | .dns host => .dns (text host)
  | .tcp host port timeoutSeconds => .tcp (text host) (number _ port) (number _ timeoutSeconds)
  | .http url timeoutSeconds => .http (text url) (number _ timeoutSeconds)
  | .routes => .routes
  | .routeTo destination => .routeTo (text destination)
  | .tls host port serverName timeoutSeconds =>
    .tls (text host) (number _ port) (some (text (serverName.getD host))) (number _ timeoutSeconds)

def ProcessOperation.map : ProcessOperation → ProcessOperation
  | .list sort => .list sort
  | .sockets => .sockets
  | .detail pid => .detail (number _ pid)
  | .cpuUsage => .cpuUsage
  | .signal identity sent =>
    .signal ⟨number _ identity.pid, number _ identity.startTimeTicks⟩ sent

def CrontabOperation.map : CrontabOperation → CrontabOperation
  | .read => .read
  | .replace expectedSha256 content => .replace (text expectedSha256) (text content)

def CustomOperation.map : CustomOperation → CustomOperation
  | .shell command timeoutSeconds maxOutputBytes =>
    .shell (text command) (number _ timeoutSeconds) (number _ maxOutputBytes)

def RemoteOperation.map : RemoteOperation → RemoteOperation
  | .docker operation => .docker (operation.map text number)
  | .systemd operation => .systemd (operation.map text number)
  | .disk operation => .disk (operation.map text number)
  | .network operation => .network (operation.map text number)
  | .process operation => .process (operation.map number)
  | .crontab operation => .crontab (operation.map text)
  | .nginx operation => .nginx operation
  | .custom operation => .custom (operation.map text number)

end

def RemoteOperation.withoutTexts (operation : RemoteOperation) : RemoteOperation :=
  operation.map (fun _ => "") fun _ _ => id

/-- The variant of an operation and its flags: every text empty and every number zero. -/
def RemoteOperation.shape (operation : RemoteOperation) : RemoteOperation :=
  operation.map (fun _ => "") fun _ _ _ => 0

def RemoteOperation.IsTyped : RemoteOperation → Prop
  | .custom _ => False
  | _ => True

/-- The words and operators of a variant, with its parameters left open. -/
def RemoteOperation.template (shape : RemoteOperation) : List (Token Kind) :=
  (words (shape.segments fun _ => "")).map (Token.rename Value.kind)

section

variable {spec : Spec}

def Spec.Of (digest : String → String) (operation : RemoteOperation) (spec : Spec) : Prop :=
  spec.command = operation.command digest ∧ spec.tools = operation.tools

variable {digest : String → String}

theorem docker_eq_ok {operation : DockerOperation} (h : docker operation = .ok spec) :
    spec.Of digest (.docker operation) := by
  cases operation <;> simp only [docker, Check.bind_unit_eq_ok] at h
  case list | stats => cases h; exact ⟨rfl, rfl⟩
  case start => cases h.2; exact ⟨rfl, rfl⟩
  case logs | stop | restart => cases h.2.2; exact ⟨rfl, rfl⟩

theorem systemd_eq_ok {operation : SystemdOperation} (h : systemd operation = .ok spec) :
    spec.Of digest (.systemd operation) := by
  cases operation <;> simp only [systemd, Check.bind_unit_eq_ok] at h
  case list => cases h; exact ⟨rfl, rfl⟩
  case journal => cases h.2.2; exact ⟨rfl, rfl⟩
  all_goals cases h.2; exact ⟨rfl, rfl⟩

theorem disk_eq_ok {operation : DiskOperation} (h : disk operation = .ok spec) :
    spec.Of digest (.disk operation) := by
  cases operation <;> simp only [disk, Check.bind_unit_eq_ok] at h
  case filesystems => cases h; exact ⟨rfl, rfl⟩
  case usage => cases h.2.2; exact ⟨rfl, rfl⟩
  case largeFiles => cases h.2.2.2; exact ⟨rfl, rfl⟩

theorem network_eq_ok {operation : NetworkOperation} (h : network operation = .ok spec) :
    spec.Of digest (.network operation) := by
  cases operation with
  | routes => cases h; exact ⟨rfl, rfl⟩
  | dns | routeTo =>
    simp only [network, Check.bind_unit_eq_ok] at h
    cases h.2
    exact ⟨rfl, rfl⟩
  | tcp | http =>
    simp only [network, Check.bind_unit_eq_ok] at h
    cases h.2.2
    exact ⟨rfl, rfl⟩
  | tls value port serverName timeoutSeconds =>
    cases serverName <;> simp only [network, Check.bind_unit_eq_ok] at h
    · cases h.2.2
      exact ⟨rfl, rfl⟩
    · cases h.2.2.2
      exact ⟨rfl, rfl⟩

theorem process_eq_ok {operation : ProcessOperation} (h : process operation = .ok spec) :
    spec.Of digest (.process operation) := by
  cases operation <;> simp only [process, Check.bind_unit_eq_ok] at h
  case list | sockets | cpuUsage => cases h; exact ⟨rfl, rfl⟩
  case detail => cases h.2; exact ⟨rfl, rfl⟩
  case signal => cases h.2.2; exact ⟨rfl, rfl⟩

theorem crontab_eq_ok {operation : CrontabOperation} (h : crontab digest operation = .ok spec) :
    spec.Of digest (.crontab operation) := by
  cases operation with
  | read => cases h; exact ⟨rfl, rfl⟩
  | replace expectedSha256 content =>
    simp only [crontab, Check.bind_eq_ok] at h
    obtain ⟨_, _, _, _, _, _, h⟩ := h
    cases h
    exact ⟨rfl, rfl⟩

theorem nginx_of (operation : NginxOperation) : (nginx operation).Of digest (.nginx operation) := by
  cases operation <;> exact ⟨rfl, rfl⟩

theorem custom_eq_ok {operation : CustomOperation} (h : custom operation = .ok spec) :
    spec.Of digest (.custom operation) := by
  cases operation
  simp only [custom, Check.bind_unit_eq_ok] at h
  cases h.2.2.2
  exact ⟨rfl, rfl⟩

theorem plan_eq_spec (operation : RemoteOperation) :
    plan digest operation = operation.spec digest >>= finish := by
  cases operation <;> rfl

variable {operation : RemoteOperation}

theorem RemoteOperation.spec_eq_ok
    (made : operation.spec digest = .ok spec) : spec.Of digest operation := by
  cases operation with
  | docker operation => exact docker_eq_ok made
  | systemd operation => exact systemd_eq_ok made
  | disk operation => exact disk_eq_ok made
  | network operation => exact network_eq_ok made
  | process operation => exact process_eq_ok made
  | crontab operation => exact crontab_eq_ok made
  | nginx operation => cases made; exact nginx_of operation
  | custom operation => exact custom_eq_ok made

theorem Spec.Of.segments_eq (parts : spec.Of digest operation) :
    spec.segments = operation.segments digest := by
  rw [Spec.segments, parts.1, parts.2, RemoteOperation.segments]

theorem plan_command {result : OperationPlan} (h : plan digest operation = .ok result) :
    result.command.toList = (operation.segments digest).flatMap Segment.render := by
  rw [plan_eq_spec, Check.bind_eq_ok] at h
  obtain ⟨spec, made, h⟩ := h
  rw [finish, Check.bind_unit_eq_ok] at h
  cases h.2
  rw [String.toList_ofList, (RemoteOperation.spec_eq_ok made).segments_eq]

end

theorem utf8ByteSize_ofList_le (text : List Char) :
    (String.ofList text).utf8ByteSize ≤ 4 * text.length := by
  induction text with
  | nil => decide
  | cons c text ih =>
    have size : (String.ofList (c :: text)).utf8ByteSize =
        c.utf8Size + (String.ofList text).utf8ByteSize := by
      simp [String.ofList_cons]
    have bound := c.utf8Size_le_four
    rw [size, List.length_cons]
    omega

theorem finish_of_length {spec : Spec} (h : (spec.segments.flatMap Segment.render).length ≤ 16384) :
    ∃ result, finish spec = .ok result ∧ result.operationClass = spec.operationClass := by
  have small := utf8ByteSize_ofList_le (spec.segments.flatMap Segment.render)
  refine ⟨_, Check.bind_unit_eq_ok.mpr ⟨?_, rfl⟩, rfl⟩
  rw [Check.reject_eq_ok, maxCommandBytes]
  omega

def Segment.frame : Segment → List Char
  | .text value => value.toList
  | .fixed value => shellQuote value.toList
  | .quoted _ => ['\'', '\'']
  | .number _ => []

def frame (segments : List Segment) : List Char := segments.flatMap Segment.frame

@[simp] theorem frame_nil : frame [] = [] := rfl

@[simp] theorem frame_cons (segment : Segment) (segments : List Segment) :
    frame (segment :: segments) = segment.frame ++ frame segments := rfl

@[simp] theorem frame_append (first rest : List Segment) :
    frame (first ++ rest) = frame first ++ frame rest := List.flatMap_append

variable {operation : RemoteOperation}

-- Counting down is cheaper than taking the length.
theorem RemoteOperation.command_checked (digest : String → String) (h : operation.IsTyped) :
    WellFormed (operation.command digest) ∧
      ((frame (operation.command digest)).drop 1536).isEmpty = true := by
  rcases operation with (⟨_ | _⟩ | _ | ⟨_, _, _ | _⟩ | _ | _ | _) | operation | operation |
    operation | (⟨_ | _⟩ | _ | _ | _ | ⟨_, _ | _⟩) | operation | operation | _
  case custom => exact h.elim
  all_goals try cases operation
  all_goals
    simp only [WellFormed, command, DockerOperation.command, SystemdOperation.command,
      DiskOperation.command, NetworkOperation.command, httpMetrics, ProcessOperation.command,
      ProcessSort.key, processIdentityPrefix, ProcessSignal.name, CrontabOperation.command,
      crontabWorkPrefix, crontabReadCurrent, NginxOperation.command, if_true, if_false,
      Bool.false_eq_true, List.cons_append, List.nil_append]
    simp only [slots_text, slots_fixed, slots_quoted, slots_number, slots_nil, frame_cons,
      frame_nil, Segment.frame]
    repeat rw [toList_literal rfl]
    decide +kernel

theorem RemoteOperation.unquoted_tools (operation : RemoteOperation) :
    ∀ tool ∈ operation.tools, '\'' ∉ tool.toList := by
  unfold tools
  split
  all_goals simp only [List.forall_mem_cons, List.not_mem_nil, false_imp_iff, implies_true, and_true]
  all_goals
    repeat rw [toList_literal rfl]
    decide

theorem RemoteOperation.wellFormed (digest : String → String)
    (h : operation.IsTyped) : WellFormed (operation.segments digest) := by
  apply wellFormed_text
  · rw [toList_literal rfl]
    decide
  · exact wellFormed_tools operation.unquoted_tools (operation.command_checked digest h).1

theorem RemoteOperation.segments_blank (digest : String → String) (h : operation.IsTyped) :
    (operation.segments digest).map (Segment.map (fun _ => "") fun _ => 0) =
        (operation.shape.segments fun _ => "").map (Segment.map (fun _ => "") fun _ => 0) ∧
      (operation.segments digest).map (Segment.map (fun _ => "") id) =
        (operation.withoutTexts.segments digest).map (Segment.map (fun _ => "") id) := by
  cases operation with
  | docker operation =>
    cases operation with
    | logs _ _ sinceSeconds => cases sinceSeconds <;> exact ⟨rfl, rfl⟩
    | _ => exact ⟨rfl, rfl⟩
  | custom => exact h.elim
  | nginx => exact ⟨rfl, rfl⟩
  | systemd operation | disk operation | network operation | process operation
  | crontab operation => cases operation <;> exact ⟨rfl, rfl⟩

theorem RemoteOperation.isTyped_shape (h : operation.IsTyped) : operation.shape.IsTyped := by
  cases operation <;> exact h

theorem RemoteOperation.isTyped_withoutTexts (h : operation.IsTyped) :
    operation.withoutTexts.IsTyped := by
  cases operation <;> exact h

theorem words_eq_of_slots {first second : List Segment} (wellFormed : WellFormed first)
    (other : WellFormed second) (h : slots first = slots second) :
    (words first).map (Token.rename Value.kind) = (words second).map (Token.rename Value.kind) := by
  have lexed : lexSymbols (slots first) = lexSymbols (slots second) := congrArg lexSymbols h
  rw [slots, slots, words_rename wellFormed, words_rename other] at lexed
  exact Option.some.inj lexed

theorem RemoteOperation.words_template (digest : String → String) (h : operation.IsTyped) :
    (words (operation.segments digest)).map (Token.rename Value.kind) =
      operation.shape.template := by
  apply words_eq_of_slots (wellFormed digest h) (wellFormed _ (isTyped_shape h))
  rw [← slots_map (fun _ => "") (fun _ => 0), (segments_blank digest h).1, slots_map]

theorem RemoteOperation.words_withoutTexts (digest : String → String) (h : operation.IsTyped) :
    (words (operation.segments digest)).map (Token.rename Value.withoutText) =
      (words (operation.withoutTexts.segments digest)).map (Token.rename Value.withoutText) := by
  have lexed := words_rename (wellFormed digest h) Value.withoutText
  have erased := words_rename (wellFormed digest (isTyped_withoutTexts h)) Value.withoutText
  rw [Value.withoutText, ← symbols_map] at lexed erased
  rw [(segments_blank digest h).2, erased] at lexed
  exact (Option.some.inj lexed).symm

theorem RemoteOperation.values_segments (digest : String → String) (operation : RemoteOperation) :
    values (operation.segments digest) = operation.parameters digest := by
  have tools : values (operation.segments digest) = values (operation.command digest) := by
    rw [segments, List.cons_append, values_text, values_append, values_tools, List.nil_append]
  rw [tools]
  cases operation with
  | docker operation =>
    cases operation with
    | logs _ _ sinceSeconds =>
      cases sinceSeconds <;> simp only [command, DockerOperation.command, parameters,
        List.cons_append, List.nil_append, values_text, values_quoted, values_number, values_nil]
    | _ => simp only [command, DockerOperation.command, parameters, values_text, values_quoted,
        values_number, values_nil]
  | systemd operation =>
    cases operation <;> simp only [command, SystemdOperation.command, parameters, values_text,
      values_quoted, values_number, values_nil]
  | disk operation =>
    cases operation <;> simp only [command, DiskOperation.command, parameters, values_text,
      values_quoted, values_number, values_nil]
  | network operation =>
    cases operation <;> simp only [command, NetworkOperation.command, parameters, values_text,
      values_fixed, values_quoted, values_number, values_nil]
  | process operation =>
    cases operation <;> simp only [command, ProcessOperation.command, processIdentityPrefix,
      parameters, List.cons_append, List.nil_append, values_text, values_number, values_nil]
  | crontab operation =>
    cases operation <;> simp only [command, CrontabOperation.command, crontabWorkPrefix,
      crontabReadCurrent, parameters, values_text, values_quoted, values_nil]
  | nginx operation =>
    cases operation <;> simp only [command, NginxOperation.command, parameters, values_text,
      values_nil]
  | custom operation =>
    cases operation
    simp only [command, CustomOperation.command, parameters, values_text, values_nil]

/-- The words of an accepted operation are its variant's template with the parameters as
literal text, each text a whole word or the end of one. -/
theorem plan_recognised (digest : String → String) : (∀ text : String,
      Recognised (K := Empty) ((shellQuote text.toList).map .inl) (text.toList.map .literal)) ∧
    (∀ operation result, plan digest operation = .ok result → operation.IsTyped →
      ∃ tokens : List (Token Value),
        lex result.command.toList = some (tokens.map (Token.subst Value.literal)) ∧
        tokens.map (Token.rename Value.kind) = operation.shape.template ∧
        tokens.flatMap Token.holes = operation.parameters digest ∧
        ∀ token ∈ tokens, token.Tailed (Kind.isText ∘ Value.kind)) ∧
    ∀ first second : RemoteOperation, ∀ result result', plan digest first = .ok result →
      plan digest second = .ok result' → first.IsTyped → second.IsTyped →
      first.withoutTexts = second.withoutTexts →
      ∃ tokens tokens' : List (Token Value),
        lex result.command.toList = some (tokens.map (Token.subst Value.literal)) ∧
        lex result'.command.toList = some (tokens'.map (Token.subst Value.literal)) ∧
        tokens.map (Token.rename Value.withoutText) =
          tokens'.map (Token.rename Value.withoutText) := by
  refine ⟨fun text => recognised_shellQuote text.toList, ?_, ?_⟩
  · intro operation result planned typed
    have wellFormed := RemoteOperation.wellFormed digest typed
    refine ⟨words (operation.segments digest), ?_, operation.words_template digest typed, ?_,
      words_tailed wellFormed⟩
    · rw [plan_command planned]
      exact lex_render wellFormed
    · rw [words_holes wellFormed, RemoteOperation.values_segments]
  · intro first second result result' planned planned' typed typed' same
    refine ⟨words (first.segments digest), words (second.segments digest), ?_, ?_, ?_⟩
    · rw [plan_command planned]
      exact lex_render (RemoteOperation.wellFormed digest typed)
    · rw [plan_command planned']
      exact lex_render (RemoteOperation.wellFormed digest typed')
    · rw [first.words_withoutTexts digest typed, second.words_withoutTexts digest typed', same]

theorem plan_recognised_start : ∃ result, plan id (.docker (.start "web")) = .ok result ∧
    ∃ tokens : List (Token Value),
      lex result.command.toList = some (tokens.map (Token.subst Value.literal)) ∧
      tokens.flatMap Token.holes = [.text "web"] := by
  have made : ∃ spec, docker (.start "web") = .ok spec ∧
      (spec.segments.flatMap Segment.render).length ≤ 16384 := by
    refine ⟨_, Check.bind_unit_eq_ok.mpr ⟨by decide +kernel, rfl⟩, ?_⟩
    simp only [Spec.segments, DockerOperation.command, toolCheck, List.flatMap_cons,
      List.flatMap_nil, List.append_nil, List.cons_append, List.nil_append, Segment.render]
    repeat rw [toList_literal rfl]
    decide +kernel
  obtain ⟨spec, made, short⟩ := made
  obtain ⟨result, finished, -⟩ := finish_of_length short
  have planned : plan id (.docker (.start "web")) = .ok result :=
    Check.bind_eq_ok.mpr ⟨spec, made, finished⟩
  obtain ⟨tokens, lexed, -, holes, -⟩ := (plan_recognised id).2.1 _ _ planned trivial
  exact ⟨result, planned, tokens, lexed, holes⟩

def Ends (text : List Char) : Token Empty → Prop
  | .word pieces => text.map .literal <:+ pieces
  | .operator _ => False

instance (text : List Char) : DecidablePred (Ends text)
  | .word pieces => inferInstanceAs (Decidable (text.map .literal <:+ pieces))
  | .operator _ => inferInstanceAs (Decidable False)

/-- The host of a TLS probe is joined with the port: it is neither a word nor the end of
one. -/
theorem tls_host_inside_word :
    ∃ result tokens, plan id (.network (.tls "db" 443 (some "sni") 5)) = .ok result ∧
      lex result.command.toList = some tokens ∧
      .word ("db:443".toList.map .literal) ∈ tokens ∧ ∀ token ∈ tokens, ¬Ends "db".toList token := by
  have made : ∃ spec, network (.tls "db" 443 (some "sni") 5) = .ok spec :=
    ⟨_, Check.bind_unit_eq_ok.mpr ⟨by decide +kernel, Check.bind_unit_eq_ok.mpr
      ⟨by decide +kernel, Check.bind_unit_eq_ok.mpr ⟨by decide +kernel, rfl⟩⟩⟩⟩
  obtain ⟨spec, made⟩ := made
  have parts : spec.Of id (.network (.tls "db" 443 (some "sni") 5)) := network_eq_ok made
  have segments : spec.segments.flatMap Segment.render =
      ((RemoteOperation.network (.tls "db" 443 (some "sni") 5)).segments id).flatMap
        Segment.render := by
    rw [Spec.segments, parts.1, parts.2]
    rfl
  have read : (spec.segments.flatMap Segment.render).length ≤ 16384 ∧
      ∃ tokens ∈ lex (spec.segments.flatMap Segment.render),
        .word ("db:443".toList.map .literal) ∈ tokens ∧ ∀ token ∈ tokens, ¬Ends "db".toList token := by
    rw [segments]
    simp only [RemoteOperation.segments, RemoteOperation.tools, RemoteOperation.command,
      NetworkOperation.command, toolCheck, List.flatMap_cons, List.flatMap_nil, List.append_nil,
      List.cons_append, List.nil_append, Segment.render]
    repeat rw [toList_literal rfl]
    decide +kernel
  obtain ⟨short, tokens, lexed, address, apart⟩ := read
  obtain ⟨result, finished, -⟩ := finish_of_length short
  have planned : plan id (.network (.tls "db" 443 (some "sni") 5)) = .ok result :=
    Check.bind_eq_ok.mpr ⟨spec, made, finished⟩
  refine ⟨result, tokens, planned, ?_, address, apart⟩
  rw [plan_command planned, ← segments]
  exact lexed

end NoriShell.Operations

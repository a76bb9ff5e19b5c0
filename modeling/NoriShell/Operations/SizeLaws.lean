import NoriShell.Collections.JsonText
import NoriShell.Collections.Text
import NoriShell.Operations.Templates

namespace NoriShell.Operations

open Collections Shell String

def Value.room : Value → Nat
  | .text value => 5 * value.utf8ByteSize
  | .number value => utf8Len (digits value)

def room (values : List Value) : Nat := (values.map Value.room).sum

@[simp] theorem room_nil : room [] = 0 := rfl

@[simp] theorem room_cons (value : Value) (values : List Value) :
    room (value :: values) = value.room + room values := by
  rw [room, List.map_cons, List.sum_cons, room]

@[simp] theorem room_text (value : String) : (Value.text value).room = 5 * value.utf8ByteSize := rfl

theorem utf8Len_quoted_le (value : List Char) : utf8Len (value.flatMap fun character =>
      if character = '\'' then ['\'', '"', '\'', '"', '\''] else [character]) ≤
      5 * utf8Len value := by
  induction value with
  | nil => simp
  | cons c value ih =>
    have positive := c.utf8Size_pos
    rw [List.flatMap_cons, utf8Len_append, utf8Len_cons]
    split
    · have five : utf8Len ['\'', '"', '\'', '"', '\''] = 5 := by decide
      omega
    · rw [utf8Len_cons, utf8Len_nil]
      omega

theorem utf8Len_shellQuote_le (value : String) :
    utf8Len (shellQuote value.toList) ≤ 2 + 5 * value.utf8ByteSize := by
  have inner := utf8Len_quoted_le value.toList
  have quote : '\''.utf8Size = 1 := rfl
  rw [utf8Len_toList] at inner
  rw [shellQuote, List.cons_append, utf8Len_cons, utf8Len_append, utf8Len_cons, utf8Len_nil, quote]
  omega

theorem room_number_le {value : Nat} (small : value < 2 ^ 64) : (Value.number value).room ≤ 20 :=
  JsonText.utf8Len_natural_le (by decide) (small.trans (by decide))

theorem utf8Len_render_le (segments : List Segment) :
    utf8Len (segments.flatMap Segment.render) ≤ utf8Len (frame segments) + room (values segments) := by
  induction segments with
  | nil => exact Nat.zero_le _
  | cons segment segments ih =>
    rw [List.flatMap_cons, utf8Len_append, frame_cons, utf8Len_append]
    cases segment with
    | text value =>
      rw [values_text, Segment.render, Segment.frame]
      omega
    | fixed value =>
      rw [values_fixed, Segment.render, Segment.frame]
      omega
    | quoted value =>
      have quoted := utf8Len_shellQuote_le value
      have empty : utf8Len ['\'', '\''] = 2 := by decide
      rw [values_quoted, room_cons, Segment.render, Segment.frame, Value.room]
      omega
    | number value =>
      rw [values_number, room_cons, Segment.render, Segment.frame, Value.room, utf8Len_nil]
      omega

theorem length_shellQuote_le (value : List Char) :
    (shellQuote value).length ≤ 2 + 5 * value.length := by
  have one : ∀ size ∈ value.map (fun c =>
      (if c = '\'' then ['\'', '"', '\'', '"', '\''] else [c]).length), size ≤ 5 := by
    intro size member
    obtain ⟨c, -, rfl⟩ := List.mem_map.1 member
    split <;> simp
  have inner := List.sum_le_card_nsmul _ _ one
  rw [List.length_map, smul_eq_mul] at inner
  rw [shellQuote, List.cons_append, List.length_cons, List.length_append, List.length_flatMap]
  simp only [List.length_cons, List.length_nil]
  omega

theorem frame_toolCheck {tool : String} (short : tool.toList.length ≤ 16) :
    (frame (toolCheck tool)).length ≤ 256 := by
  have quoted := length_shellQuote_le tool.toList
  simp only [toolCheck, frame_cons, frame_nil, Segment.frame, List.length_append]
  repeat rw [toList_literal rfl]
  simp only [List.length_cons, List.length_nil]
  omega

theorem frame_toolChecks {tools : List String} (short : ∀ tool ∈ tools, tool.toList.length ≤ 16) :
    (frame (tools.flatMap toolCheck)).length ≤ 256 * tools.length := by
  induction tools with
  | nil => exact Nat.zero_le _
  | cons tool tools ih =>
    have first := frame_toolCheck (short tool List.mem_cons_self)
    have rest := ih fun tool member => short tool (List.mem_cons_of_mem _ member)
    rw [List.flatMap_cons, frame_append, List.length_append, List.length_cons]
    omega

theorem RemoteOperation.short_tools (operation : RemoteOperation) :
    ∀ tool ∈ operation.tools, tool.toList.length ≤ 16 := by
  unfold tools
  split
  all_goals simp only [List.forall_mem_cons, List.not_mem_nil, false_imp_iff, implies_true, and_true]
  all_goals
    repeat rw [toList_literal rfl]
    decide

theorem RemoteOperation.frame_tools (operation : RemoteOperation) :
    (frame (operation.tools.flatMap toolCheck)).length ≤ 1536 := by
  have checks := frame_toolChecks operation.short_tools
  have few : operation.tools.length ≤ 6 := by
    unfold tools
    split
    all_goals decide
  omega

section

variable {value field : String} {maximum : Nat}

theorem text_eq_ok (valid : text value field maximum = .ok ()) : value.utf8ByteSize ≤ maximum := by
  simp only [text, Check.bind_unit_eq_ok, Check.reject_eq_ok] at valid
  omega

theorem identifier_eq_ok (valid : identifier value field maximum = .ok ()) :
    value.utf8ByteSize ≤ maximum := by
  simp only [identifier, Check.bind_unit_eq_ok] at valid
  exact text_eq_ok valid.1

theorem host_eq_ok (valid : host value field = .ok ()) : value.utf8ByteSize ≤ 253 := by
  simp only [host, Check.bind_unit_eq_ok] at valid
  exact identifier_eq_ok valid.1

theorem httpUrl_eq_ok (valid : httpUrl value = .ok ()) : value.utf8ByteSize ≤ 2048 := by
  simp only [httpUrl, Check.bind_unit_eq_ok] at valid
  exact text_eq_ok valid.1

end

theorem utf8ByteSize_toAsciiLowercase (value : String) :
    (toAsciiLowercase value).utf8ByteSize = value.utf8ByteSize := by
  rw [← utf8Len_toList, ← utf8Len_toList, toAsciiLowercase, toList_map]
  induction value.toList with
  | nil => rfl
  | cons c text ih => rw [List.map_cons, utf8Len_cons, utf8Len_cons, ih, Text.utf8Size_toLower]

theorem sha256_eq_ok {value field lower : String} (valid : sha256 value field = .ok lower) :
    value.utf8ByteSize = 64 := by
  simp only [sha256, Check.bind_eq_ok, Check.reject_eq_ok] at valid
  obtain ⟨_, sized, -⟩ := valid
  by_contra other
  exact sized (.inl other)

theorem tlsConnect_le (host : String) (port : UInt16) :
    (tlsConnect host port).utf8ByteSize ≤ host.utf8ByteSize + 8 := by
  have number : utf8Len (digits port.toNat) ≤ 5 :=
    JsonText.utf8Len_natural_le (by decide) (port.toNat_lt.trans (by decide))
  have opening : '['.utf8Size = 1 := rfl
  have closing : ']'.utf8Size = 1 := rfl
  have colon : ':'.utf8Size = 1 := rfl
  rw [tlsConnect, utf8ByteSize_ofList, ← utf8Len_toList]
  split
  · simp only [List.cons_append, utf8Len_append, utf8Len_cons, utf8Len_nil, opening, closing, colon]
    omega
  · simp only [utf8Len_append, utf8Len_cons, colon]
    omega

section

variable {digest : String → String} {spec : Spec}

attribute [simp] RemoteOperation.parameters

theorem room_docker {operation : DockerOperation} (made : docker operation = .ok spec) :
    room (RemoteOperation.parameters digest (.docker operation)) ≤ 24576 := by
  cases operation with
  | list | stats => exact Nat.zero_le _
  | logs containerId lines sinceSeconds =>
    have size := identifier_eq_ok (Check.bind_unit_eq_ok.mp made).1
    have number := room_number_le (lines.toNat_lt.trans (by decide))
    cases sinceSeconds with
    | none =>
      simp
      omega
    | some seconds =>
      have since := room_number_le (seconds.toNat_lt.trans (by decide))
      simp
      omega
  | start containerId =>
    have size := identifier_eq_ok (Check.bind_unit_eq_ok.mp made).1
    simp
    omega
  | stop containerId timeoutSeconds | restart containerId timeoutSeconds =>
    have size := identifier_eq_ok (Check.bind_unit_eq_ok.mp made).1
    have number := room_number_le (timeoutSeconds.toNat_lt.trans (by decide))
    simp
    omega

theorem room_systemd {operation : SystemdOperation} (made : systemd operation = .ok spec) :
    room (RemoteOperation.parameters digest (.systemd operation)) ≤ 24576 := by
  cases operation with
  | list => exact Nat.zero_le _
  | journal unit lines =>
    have size := identifier_eq_ok (Check.bind_unit_eq_ok.mp made).1
    have number := room_number_le (lines.toNat_lt.trans (by decide))
    simp
    omega
  | status unit | start unit | stop unit | restart unit | enable unit | disable unit =>
    have size := identifier_eq_ok (Check.bind_unit_eq_ok.mp made).1
    simp
    omega

theorem room_disk {operation : DiskOperation} (made : disk operation = .ok spec) :
    room (RemoteOperation.parameters digest (.disk operation)) ≤ 24576 := by
  cases operation with
  | filesystems => exact Nat.zero_le _
  | usage value maxDepth =>
    have size : value.utf8ByteSize ≤ 4096 := text_eq_ok (Check.bind_unit_eq_ok.mp made).1
    have number := room_number_le (maxDepth.toNat_lt.trans (by decide))
    simp
    omega
  | largeFiles value minimumBytes limit =>
    have size : value.utf8ByteSize ≤ 4096 := text_eq_ok (Check.bind_unit_eq_ok.mp made).1
    have minimum := room_number_le ((minimumBytes.toNat.sub_le 1).trans_lt minimumBytes.toNat_lt)
    have number := room_number_le (limit.toNat_lt.trans (by decide))
    simp
    omega

theorem room_network {operation : NetworkOperation} (made : network operation = .ok spec) :
    room (RemoteOperation.parameters digest (.network operation)) ≤ 24576 := by
  cases operation with
  | routes => exact Nat.zero_le _
  | dns host | routeTo host =>
    have size := host_eq_ok (Check.bind_unit_eq_ok.mp made).1
    simp
    omega
  | tcp host port timeoutSeconds =>
    have size := host_eq_ok (Check.bind_unit_eq_ok.mp made).1
    have number := room_number_le (port.toNat_lt.trans (by decide))
    have timeout := room_number_le (timeoutSeconds.toNat_lt.trans (by decide))
    simp
    omega
  | http url timeoutSeconds =>
    have size := httpUrl_eq_ok (Check.bind_unit_eq_ok.mp made).1
    have number : (Value.number maxOutput).room ≤ 20 := room_number_le (by decide)
    have timeout := room_number_le (timeoutSeconds.toNat_lt.trans (by decide))
    simp
    omega
  | tls host port serverName timeoutSeconds =>
    have sizes : host.utf8ByteSize ≤ 253 ∧ (serverName.getD host).utf8ByteSize ≤ 253 := by
      cases serverName with
      | none =>
        simp only [network, Check.bind_unit_eq_ok] at made
        exact ⟨host_eq_ok made.1, host_eq_ok made.1⟩
      | some serverName =>
        simp only [network, Check.bind_unit_eq_ok] at made
        exact ⟨host_eq_ok made.1, host_eq_ok made.2.2.1⟩
    have connect := tlsConnect_le host port
    have timeout := room_number_le (timeoutSeconds.toNat_lt.trans (by decide))
    simp
    omega

theorem room_process (operation : ProcessOperation) :
    room (RemoteOperation.parameters digest (.process operation)) ≤ 24576 := by
  cases operation with
  | list | sockets | cpuUsage => exact Nat.zero_le _
  | detail pid =>
    have number := room_number_le (pid.toNat_lt.trans (by decide))
    simp
    omega
  | signal identity sent =>
    have number := room_number_le (identity.pid.toNat_lt.trans (by decide))
    have ticks := room_number_le identity.startTimeTicks.toNat_lt
    simp
    omega

theorem room_crontab (hashed : ∀ text, (digest text).utf8ByteSize = 64)
    {operation : CrontabOperation} (made : crontab digest operation = .ok spec) :
    room (RemoteOperation.parameters digest (.crontab operation)) ≤ 24576 := by
  cases operation with
  | read => exact Nat.zero_le _
  | replace expectedSha256 content =>
    simp only [crontab, Check.bind_eq_ok] at made
    obtain ⟨lower, valid, -⟩ := made
    have size := sha256_eq_ok valid
    have hash := hashed content
    simp only [RemoteOperation.parameters, room_cons, room_nil, room_text,
      utf8ByteSize_toAsciiLowercase]
    omega

theorem RemoteOperation.room_le (hashed : ∀ text, (digest text).utf8ByteSize = 64)
    {operation : RemoteOperation} (made : operation.spec digest = .ok spec) :
    room (operation.parameters digest) ≤ 24576 := by
  cases operation with
  | docker operation => exact room_docker made
  | systemd operation => exact room_systemd made
  | disk operation => exact room_disk made
  | network operation => exact room_network made
  | process operation => exact room_process operation
  | crontab operation => exact room_crontab hashed made
  | nginx operation | custom operation => exact Nat.zero_le _

end

theorem finish_of_utf8Len {spec : Spec}
    (small : utf8Len (spec.segments.flatMap Segment.render) ≤ maxCommandBytes) :
    ∃ result, finish spec = .ok result := by
  refine ⟨_, Check.bind_unit_eq_ok.2 ⟨?_, rfl⟩⟩
  rw [Check.reject_eq_ok, utf8ByteSize_ofList]
  exact Nat.not_lt.2 small

theorem RemoteOperation.segments_le {digest : String → String} {spec : Spec}
    (hashed : ∀ text, (digest text).utf8ByteSize = 64) {operation : RemoteOperation}
    (typed : operation.IsTyped) (made : operation.spec digest = .ok spec) :
    utf8Len ((operation.segments digest).flatMap Segment.render) ≤ maxCommandBytes := by
  have parameters := operation.room_le hashed made
  have tools := operation.frame_tools
  have command : (frame (operation.command digest)).length ≤ 1536 :=
    List.drop_eq_nil_iff.1 (List.isEmpty_iff.1 (operation.command_checked digest typed).2)
  have opening : "LC_ALL=C; export LC_ALL; ".toList.length ≤ 32 := by
    rw [toList_literal rfl]
    decide
  have fixed := utf8ByteSize_ofList_le (frame (operation.segments digest))
  have size := utf8Len_render_le (operation.segments digest)
  rw [values_segments] at size
  rw [utf8ByteSize_ofList] at fixed
  have length : (frame (operation.segments digest)).length ≤ 3104 := by
    rw [segments, List.cons_append, frame_cons, frame_append, List.length_append,
      List.length_append, Segment.frame]
    omega
  rw [maxCommandBytes]
  omega

theorem custom_le {operation : CustomOperation} {spec : Spec} (digest : String → String)
    (made : custom operation = .ok spec) :
    utf8Len (((RemoteOperation.custom operation).segments digest).flatMap Segment.render) ≤
      maxCommandBytes := by
  obtain ⟨command, timeoutSeconds, maxOutputBytes⟩ := operation
  simp only [custom, customShell, Check.bind_unit_eq_ok, Check.reject_eq_ok, not_or] at made
  have opening : utf8Len "LC_ALL=C; export LC_ALL; ".toList ≤ 32 := by
    rw [toList_literal rfl]
    decide
  have size := made.1.1.2.1
  change utf8Len ("LC_ALL=C; export LC_ALL; ".toList ++ (command.toList ++ [])) ≤ _
  rw [List.append_nil, utf8Len_append, utf8Len_toList command, maxCommandBytes]
  omega

/-- An operation that passes its checks is planned: its command is never too large. -/
theorem finish_of_valid (digest : String → String)
    (hashed : ∀ text, (digest text).utf8ByteSize = 64) (operation : RemoteOperation) (spec : Spec)
    (valid : operation.spec digest = .ok spec) :
    ∃ result, finish spec = .ok result ∧ plan digest operation = .ok result := by
  have small : utf8Len (spec.segments.flatMap Segment.render) ≤ maxCommandBytes := by
    rw [(RemoteOperation.spec_eq_ok valid).segments_eq]
    cases operation with
    | custom operation => exact custom_le digest valid
    | _ => exact RemoteOperation.segments_le hashed trivial valid
  obtain ⟨result, finished⟩ := finish_of_utf8Len small
  refine ⟨result, finished, ?_⟩
  rw [plan_eq_spec, valid]
  exact finished

theorem finish_of_valid_quotes : ∃ digest spec, (∀ text, (digest text).utf8ByteSize = 64) ∧
      (RemoteOperation.disk (.usage "''''''''''''''''" 16)).spec digest = .ok spec ∧
      ∃ result, finish spec = .ok result ∧
        plan digest (.disk (.usage "''''''''''''''''" 16)) = .ok result := by
  have hashed : ∀ _ : String,
      "0000000000000000000000000000000000000000000000000000000000000000".utf8ByteSize = 64 :=
    fun _ => by decide +kernel
  have valid : ∃ spec, disk (.usage "''''''''''''''''" 16) = .ok spec :=
    ⟨_, Check.bind_unit_eq_ok.2 ⟨by decide +kernel,
      Check.bind_unit_eq_ok.2 ⟨by decide +kernel, rfl⟩⟩⟩
  obtain ⟨spec, valid⟩ := valid
  exact ⟨_, spec, hashed, valid, finish_of_valid _ hashed _ spec valid⟩

end NoriShell.Operations

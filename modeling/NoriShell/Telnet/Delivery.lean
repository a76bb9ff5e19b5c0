import NoriShell.Telnet.CodecLaws
import NoriShell.Telnet.Connection

namespace NoriShell.Telnet

/-- Part of the reply stream, as opposed to what the caller asked to send. -/
def Message.isProtocol : Message → Bool
  | .reply _ => true
  | .report .. => true
  | .resized .. => false
  | .input _ => false

def decodedData (results : List (Except ProtocolError DecodeResult)) : List UInt8 :=
  results.flatMap fun
    | .ok decoded => decoded.data
    | .error _ => []

namespace TelnetCodec

def answers (codec : TelnetCodec) (read : ReadRecord) : List Message :=
  match (codec.decode read.bytes).1 with
  | .ok decoded => batch read.rows read.cols decoded
  | .error _ => []

def replyStream (codec : TelnetCodec) : List ReadRecord → List Message
  | [] => []
  | read :: reads => codec.answers read ++ (codec.decode read.bytes).2.replyStream reads

variable (codec : TelnetCodec)

theorem decodeChunks_concat (chunks : List (List UInt8)) (chunk : List UInt8) :
    codec.decodeChunks (chunks ++ [chunk]) =
      ((codec.decodeChunks chunks).1 ++ [((codec.decodeChunks chunks).2.decode chunk).1],
        ((codec.decodeChunks chunks).2.decode chunk).2) := by
  induction chunks generalizing codec with
  | nil => rfl
  | cons first chunks ih => simp [decodeChunks, ih]

theorem replyStream_concat (reads : List ReadRecord) (read : ReadRecord) :
    codec.replyStream (reads ++ [read]) = codec.replyStream reads ++
      (codec.decodeChunks (reads.map (·.bytes))).2.answers read := by
  induction reads generalizing codec with
  | nil => simp [replyStream, decodeChunks]
  | cons first reads ih => simp [replyStream, decodeChunks, ih]

theorem decodeChunks_of_flatten {codec after : TelnetCodec} {chunks : List (List UInt8)}
    {decoded : DecodeResult} (ok : codec.read chunks.flatten = ⟨after, decoded, none⟩) :
    ∃ results : List DecodeResult,
      codec.decodeChunks chunks = (results.map .ok, after) ∧ results.sum = decoded := by
  induction chunks generalizing codec decoded with
  | nil =>
    cases ok
    exact ⟨[], rfl, rfl⟩
  | cons chunk chunks ih =>
    rw [List.flatten_cons, read_append] at ok
    rcases h : codec.read chunk with ⟨middle, first, _ | error⟩ <;> rw [h] at ok
    · rw [Scan.andThen_ok, Scan.mk.injEq] at ok
      obtain ⟨rfl, rfl, failure⟩ := ok
      obtain ⟨results, later, sum⟩ := ih (by rw [← failure])
      have start := decode_eq_ok.mpr h
      exact ⟨first :: results, by simp [decodeChunks, start, later], by simp [sum]⟩
    · simp at ok

theorem decodedData_ok (results : List DecodeResult) :
    decodedData (results.map .ok) = results.sum.data := by
  simp [decodedData, List.flatMap_map, DecodeResult.sum_fields]

end TelnetCodec

theorem batch_encode (rows cols : UInt16) (decoded : DecodeResult) :
    (batch rows cols decoded).flatMap Message.encode = decoded.responses ++
      if .localNaws ∈ decoded.enabled then encodeNaws rows cols else [] := by
  unfold batch DecodeResult.responses
  split <;> simp [List.flatMap_map, Message.encode]

theorem batch_isProtocol {rows cols : UInt16} {decoded : DecodeResult} {message : Message}
    (mem : message ∈ batch rows cols decoded) : message.isProtocol = true := by
  simp only [batch, List.mem_append, List.mem_map] at mem
  rcases mem with ⟨_, -, rfl⟩ | mem
  · rfl
  · split at mem
    · rw [List.mem_singleton.mp mem]
      rfl
    · simp at mem

/-- What the message carries of what the user typed. -/
def Message.typed : Message → List UInt8
  | .input data => data
  | _ => []

theorem Message.items (message : Message) : ∃ items : List Item,
    items.flatMap Item.encode = message.encode ∧ items.flatMap Item.carried = message.typed := by
  have size (rows cols : UInt16) : ∃ items : List Item,
      items.flatMap Item.encode = encodeNaws rows cols ∧ items.flatMap Item.carried = [] :=
    ⟨[.subnegotiation optNaws (toBeBytes cols ++ toBeBytes rows)
        (by simp [toBeBytes, maxSubnegotiationBytes])],
      by simp [Item.encode, encodeNaws], rfl⟩
  cases message with
  | reply reply =>
    cases reply with
    | will option => exact ⟨[.negotiation willCode option (by decide)], rfl, rfl⟩
    | wont option => exact ⟨[.negotiation wontCode option (by decide)], rfl, rfl⟩
    | doOption option => exact ⟨[.negotiation doCode option (by decide)], rfl, rfl⟩
    | dont option => exact ⟨[.negotiation dontCode option (by decide)], rfl, rfl⟩
    | terminalType =>
      exact ⟨[.subnegotiation optTerminalType (ttypeIs :: defaultTerminalType) (by decide)], rfl,
        rfl⟩
  | report rows cols | resized rows cols => exact size rows cols
  | input data =>
    refine ⟨data.map .data, ?_, ?_⟩
    · induction data with
      | nil => rfl
      | cons byte data ih =>
        rw [List.map_cons, List.flatMap_cons, ih]
        exact (appendEscaped_append [byte] data).symm
    · simp [List.flatMap_map, Item.carried, Message.typed, List.flatMap_singleton']

namespace Session

structure Queued (session : Session) (written queued : List Message) : Prop where
  sent : session.sent = written ++ queued
  protocol : ∀ message ∈ queued, message.isProtocol = true
  pending : session.connection.pendingProtocolWrite = queued.flatMap Message.encode
  bounded : session.connection.pendingProtocolOffset ≤
    session.connection.pendingProtocolWrite.length
  wire : session.wire = written.flatMap Message.encode ++
    session.connection.pendingProtocolWrite.take session.connection.pendingProtocolOffset

/-- What the session has done is what its reads called for. -/
structure Accounted (session : Session) : Prop where
  codec : session.connection.codec = (TelnetCodec.new.decodeChunks (session.reads.map (·.bytes))).2
  data : session.delivered.flatten ++ session.connection.pendingData.flatten =
    decodedData (TelnetCodec.new.decodeChunks (session.reads.map (·.bytes))).1
  replies : session.sent.filter Message.isProtocol = TelnetCodec.new.replyStream session.reads
  output : ∃ written queued, session.Queued written queued

variable {session : Session}

theorem Queued.flushed {written queued : List Message} (h : session.Queued written queued) :
    session.wire ++ session.connection.unwritten = session.sent.flatMap Message.encode := by
  rw [h.wire, List.append_assoc, TelnetConnection.unwritten, List.take_append_drop, h.sent,
    List.flatMap_append, h.pending]

namespace Accounted

theorem start (rows cols : UInt16) : (Session.start rows cols).Accounted where
  codec := rfl
  data := rfl
  replies := rfl
  output := ⟨[], [], rfl, by simp, rfl, Nat.le_refl _, rfl⟩

theorem adjust (h : session.Accounted) (rows cols : UInt16) (closed : Bool) (point : Await) :
    { session with
      connection := { session.connection with rows, cols, closed }, await := point }.Accounted :=
  have ⟨written, queued, output⟩ := h.output
  ⟨h.codec, h.data, h.replies, written, queued, output.sent, output.protocol, output.pending,
    output.bounded, output.wire⟩

theorem await (h : session.Accounted) (point : Await) :
    { session with await := point }.Accounted :=
  h.adjust _ _ _ point

theorem flushAll (h : session.Accounted) : session.flushAll.Accounted := by
  obtain ⟨written, queued, output⟩ := h.output
  refine ⟨h.codec, h.data, h.replies, session.sent, [], ?_, by simp, rfl, Nat.le_refl _, ?_⟩
  · simp [Session.flushAll]
  · rw [← output.flushed]
    simp [Session.flushAll, TelnetConnection.clearWrites]

theorem clear (h : session.Accounted) (complete : session.connection.unwritten = []) :
    { session with connection := session.connection.clearWrites }.Accounted := by
  simpa [Session.flushAll, complete] using h.flushAll

theorem resume (h : session.Accounted) (complete : session.connection.unwritten = []) :
    session.resume.Accounted := by
  have cleared := h.clear complete
  unfold Session.resume
  dsimp only
  split
  · rename_i data rest pending
    obtain ⟨written, queued, output⟩ := cleared.output
    refine ⟨cleared.codec, ?_, cleared.replies, written, queued, output.sent, output.protocol,
      output.pending, output.bounded, output.wire⟩
    rw [← cleared.data]
    simp [pending]
  · exact cleared.await .read

theorem flush (h : session.Accounted) : session.flush.Accounted := by
  unfold Session.flush
  split
  · exact h.await .write
  · exact h.resume (List.drop_eq_nil_iff.mpr (by omega))

theorem write (h : session.Accounted) (count : Nat) : (session.write count).Accounted := by
  unfold Session.write
  dsimp only
  split
  · exact h.await .idle
  split
  · rename_i fits
    obtain ⟨written, queued, output⟩ := h.output
    have bounded := output.bounded
    rw [TelnetConnection.unwritten, List.length_drop] at fits
    refine flush ⟨h.codec, h.data, h.replies, written, queued, output.sent, output.protocol,
      output.pending, Nat.add_le_of_le_sub' bounded fits, ?_⟩
    rw [output.wire, List.append_assoc, TelnetConnection.unwritten, List.take_add]
  · exact h

theorem receive (h : session.Accounted) (bytes : List UInt8) :
    (session.receive bytes).Accounted := by
  obtain ⟨written, queued, output⟩ := h.output
  unfold Session.receive
  dsimp only
  split <;> rename_i result after decoded <;> rw [h.codec] at decoded
  · refine ⟨?_, ?_, ?_, written, queued, output.sent, output.protocol, output.pending,
      output.bounded, output.wire⟩
    · simp [TelnetCodec.decodeChunks_concat, decoded]
    · simpa [TelnetCodec.decodeChunks_concat, decoded, decodedData] using h.data
    · simpa [TelnetCodec.replyStream_concat, TelnetCodec.answers, decoded] using h.replies
  · refine flush ⟨?_, ?_, ?_, written, queued ++ batch session.connection.rows
      session.connection.cols result, ?_, ?_, ?_, ?_, ?_⟩
    · simp [TelnetCodec.decodeChunks_concat, decoded]
    · rw [List.map_append, List.map_singleton, TelnetCodec.decodeChunks_concat, decoded]
      simp only [decodedData, List.flatMap_append, List.flatMap_singleton]
      rw [← decodedData, ← h.data]
      split
      · rename_i empty
        simp [empty]
      · simp
    · rw [List.filter_append, h.replies, TelnetCodec.replyStream_concat,
        List.filter_eq_self.mpr fun _ => batch_isProtocol]
      simp [TelnetCodec.answers, decoded]
    · simp [output.sent]
    · intro message mem
      exact (List.mem_append.mp mem).elim (output.protocol message) batch_isProtocol
    · simp [batch_encode, output.pending]
    · refine Nat.le_trans output.bounded ?_
      simp only [List.length_append]
      omega
    · simp only [List.append_assoc, output.wire]
      rw [List.take_append_of_le_length output.bounded]

theorem writeAll (h : session.Accounted) (flushed : session.connection.pendingProtocolWrite = [])
    {message : Message} (asked : message.isProtocol = false) :
    (session.writeAll message).Accounted := by
  obtain ⟨written, queued, output⟩ := h.output
  refine ⟨h.codec, h.data, ?_, session.sent ++ [message], [], by simp [Session.writeAll], by simp,
    flushed, output.bounded, ?_⟩
  · simpa [Session.writeAll, asked] using h.replies
  · have whole := output.flushed
    simp only [TelnetConnection.unwritten, flushed, List.drop_nil, List.append_nil] at whole
    simp [Session.writeAll, whole, flushed]

theorem sendInput (h : session.Accounted) (data : List UInt8) :
    (session.sendInput data).Accounted := by
  unfold Session.sendInput
  split
  · exact h
  split
  · exact h
  · exact h.flushAll.writeAll rfl rfl

theorem resize (h : session.Accounted) (rows cols : UInt16) :
    (session.resize rows cols).Accounted := by
  unfold Session.resize
  split
  · exact h
  split
  · exact h
  dsimp only
  have resized := (h.adjust rows cols session.connection.closed session.await).flushAll
  split
  · exact resized.writeAll rfl rfl
  · exact resized

theorem step (h : session.Accounted) (action : Action) : (session.step action).Accounted := by
  unfold Session.step
  split
  · split
    · exact h.flush
    · exact h
  · split
    · exact h.write _
    · exact h
  · split
    · split
      · exact h.adjust _ _ true .idle
      · exact h.receive _
    · exact h
  · exact h.await .idle
  · split
    · exact h.sendInput _
    · exact h
  · split
    · exact h.resize ..
    · exact h

theorem run (h : session.Accounted) (actions : List Action) : (session.run actions).Accounted :=
  List.foldlRecOn actions Session.step h fun _ h action _ => h.step action

end Accounted

/-- The events handed out, with what is still pending, are the data of the reads; the
replies are sent in order; and the wire holds whole messages, then the beginning of the
replies still queued. -/
structure NothingLost (session : Session) : Prop where
  data : session.delivered.flatten ++ session.connection.pendingData.flatten =
    decodedData (TelnetCodec.new.decodeChunks (session.reads.map (·.bytes))).1
  wholeData : ∀ decoded after,
    TelnetCodec.new.decode (session.reads.map (·.bytes)).flatten = (.ok decoded, after) →
    session.delivered.flatten ++ session.connection.pendingData.flatten = decoded.data
  replies : session.sent.filter Message.isProtocol = TelnetCodec.new.replyStream session.reads
  wire : ∃ written queued begun, session.sent = written ++ queued ∧
    (∀ message ∈ queued, message.isProtocol = true) ∧
    session.wire = written.flatMap Message.encode ++ begun ∧
    begun ++ session.connection.unwritten = queued.flatMap Message.encode

theorem nothing_lost (rows cols : UInt16) (actions : List Action) :
    ((Session.start rows cols).run actions).NothingLost := by
  have h := (Accounted.start rows cols).run actions
  obtain ⟨written, queued, output⟩ := h.output
  refine ⟨h.data, fun decoded after ok => ?_, h.replies, written, queued, _, output.sent,
    output.protocol, output.wire, ?_⟩
  · obtain ⟨results, chunks, rfl⟩ := TelnetCodec.decodeChunks_of_flatten
      (TelnetCodec.decode_eq_ok.mp ok)
    rw [h.data, chunks, TelnetCodec.decodedData_ok]
  · rw [TelnetConnection.unwritten, List.take_append_drop, output.pending]

/-- A server gets exactly what the user typed: however the session went, what it has sent, with
what is still queued, decodes at the other end to the input, in whatever cuts it arrives. -/
theorem server_reads_input (rows cols : UInt16) (actions : List Action) (server : TelnetCodec)
    (between : server.state = .data) (chunks : List (List UInt8))
    (arrives : chunks.flatten = ((Session.start rows cols).run actions).wire ++
      ((Session.start rows cols).run actions).connection.unwritten) :
    ∃ results : List DecodeResult, (server.decodeChunks chunks).1 = results.map .ok ∧
      results.flatMap (·.data) =
        ((Session.start rows cols).run actions).sent.flatMap Message.typed ∧
      (server.decodeChunks chunks).2.state = .data := by
  obtain ⟨written, queued, output⟩ := ((Accounted.start rows cols).run actions).output
  choose items encoded carried using Message.items
  have reads := Item.reads_all between
    (((Session.start rows cols).run actions).sent.flatMap items)
  simp only [List.flatMap_assoc, encoded, carried, ← output.flushed, ← arrives] at reads
  obtain ⟨results, decoded, sum⟩ := TelnetCodec.decodeChunks_of_flatten
    (show server.read chunks.flatten = ⟨_, _, none⟩ by rw [← reads.ok])
  refine ⟨results, congrArg Prod.fst decoded, ?_, ?_⟩
  · rw [← (DecodeResult.sum_fields results).1, sum, reads.carries]
  · rw [decoded, reads.between]

theorem server_reads_input_escaped :
    ∃ results : List DecodeResult,
      (TelnetCodec.new.decodeChunks [[iac], [iac]]).1 = results.map .ok ∧
      results.flatMap (·.data) = [iac] :=
  have ⟨results, ok, data, _⟩ :=
    server_reads_input 24 80 [.sendInput [iac]] .new rfl [[iac], [iac]] rfl
  ⟨results, ok, data⟩

end Session

end NoriShell.Telnet

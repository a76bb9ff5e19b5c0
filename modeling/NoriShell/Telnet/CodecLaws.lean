import Mathlib.Algebra.BigOperators.Group.List.Basic
import NoriShell.Telnet.Codec

namespace NoriShell.Telnet

@[simp] theorem appendEscaped_append (a b : List UInt8) :
    appendEscaped (a ++ b) = appendEscaped a ++ appendEscaped b := by
  induction a with
  | nil => rfl
  | cons byte bytes ih =>
    simp only [List.cons_append, appendEscaped, ih]
    split <;> rfl

theorem appendEscaped_plain {byte : UInt8} (plain : byte ≠ iac) :
    appendEscaped [byte] = [byte] := by
  simp [appendEscaped, plain]

@[simp] theorem appendEscaped_iac : appendEscaped [iac] = [iac, iac] := rfl

theorem DecodeResult.sum_fields (results : List DecodeResult) :
    results.sum.data = results.flatMap (·.data) ∧
      results.sum.responses = results.flatMap (·.responses) ∧
      results.sum.enabled = results.flatMap (·.enabled) := by
  induction results with
  | nil => exact ⟨rfl, rfl, rfl⟩
  | cons result results ih => simp [ih]

namespace TelnetCodec

variable {codec : TelnetCodec}

theorem read_append (a b : List UInt8) : codec.read (a ++ b) = (codec.read a).andThen (·.read b) :=
  scan_append ..

variable {middle : TelnetCodec} {a payload : List UInt8} {option : UInt8}

theorem read_after (h : codec.read a = .start middle)
    (b : List UInt8) : codec.read (a ++ b) = middle.read b := by
  rw [read_append, h, Scan.start_andThen]

theorem read_last (h : codec.read a = .start middle)
    (byte : UInt8) : codec.read (a ++ [byte]) = middle.decodeByte byte := by
  rw [read, scan_concat, ← read, h, Scan.start_andThen]

theorem decode_eq_ok {bytes : List UInt8} {decoded : DecodeResult} {after : TelnetCodec} :
    codec.decode bytes = (.ok decoded, after) ↔ codec.read bytes = ⟨after, decoded, none⟩ := by
  rw [decode]
  rcases codec.read bytes with ⟨state, output, _ | error⟩ <;> simp [and_comm]

theorem decode_eq_error {bytes : List UInt8} {error : ProtocolError} :
    (codec.decode bytes).1 = .error error ↔ (codec.read bytes).failure = some error := by
  rw [decode]
  rcases codec.read bytes with ⟨state, output, _ | error⟩ <;> simp

theorem read_flatten {chunks : List (List UInt8)} {results : List DecodeResult}
    {after : TelnetCodec} (h : codec.decodeChunks chunks = (results.map .ok, after)) :
    codec.read chunks.flatten = ⟨after, results.sum, none⟩ := by
  induction chunks generalizing codec results with
  | nil =>
    obtain ⟨none_, rfl⟩ := Prod.mk.inj h
    rw [List.map_eq_nil_iff.mp none_.symm]
    rfl
  | cons chunk chunks ih =>
    obtain ⟨all, rest⟩ := Prod.mk.inj h
    obtain ⟨result, results, rfl, first, others⟩ := List.map_eq_cons_iff.mp all.symm
    have later := ih (Prod.ext others.symm rest)
    rw [List.flatten_cons, read_append,
      decode_eq_ok.mp (Prod.ext first.symm rfl : codec.decode chunk = (.ok result, _))]
    simp [later]

structure Reads (codec : TelnetCodec) (bytes data : List UInt8) : Prop where
  ok : (codec.read bytes).failure = none
  between : (codec.read bytes).state.state = .data
  carries : (codec.read bytes).output.data = data

theorem Reads.append {b data more : List UInt8} (first : codec.Reads a data)
    (rest : (codec.read a).state.Reads b more) : codec.Reads (a ++ b) (data ++ more) := by
  have joined := codec.read_append a b
  obtain ⟨ok, between, carries⟩ := first
  rcases h : codec.read a with ⟨state, output, _ | error⟩
  · rw [h] at joined rest carries
    exact ⟨by rw [joined]; exact rest.ok, by rw [joined]; exact rest.between,
      by rw [joined]; simp [rest.carries, ← carries]⟩
  · simp [h] at ok

theorem Reads.of_start {b data : List UInt8}
    (h : codec.read a = .start middle) (rest : middle.Reads b data) :
    codec.Reads (a ++ b) data := by
  have joined := read_after h b
  exact ⟨by rw [joined, rest.ok], by rw [joined, rest.between], by rw [joined, rest.carries]⟩

theorem reads_nil (between : codec.state = .data) : codec.Reads [] [] :=
  ⟨rfl, between, rfl⟩

theorem read_escape (between : codec.state = .data) (byte : UInt8) :
    codec.read (appendEscaped [byte]) = ⟨codec, { data := [byte] }, none⟩ := by
  obtain ⟨state, _⟩ := codec
  obtain rfl : state = .data := between
  by_cases plain : byte = iac
  · subst plain
    rfl
  · rw [appendEscaped_plain plain]
    simp [read, scan_cons, decodeByte, plain, Scan.start]

theorem read_command (between : codec.state = .data) {code : UInt8}
    (plain : code ∉ [iac, doCode, dontCode, willCode, wontCode, sb]) :
    codec.read [iac, code] = .start codec := by
  obtain ⟨state, _⟩ := codec
  obtain rfl : state = .data := between
  simp only [List.mem_cons, List.not_mem_nil, or_false, not_or] at plain
  simp [read, scan_cons, decodeByte, plain, Scan.start]

theorem handleNegotiation_data (command option : UInt8) :
    (codec.handleNegotiation command option).2.data = [] := by
  unfold handleNegotiation
  repeat' split
  all_goals rfl

theorem reads_negotiation (between : codec.state = .data) {verb : UInt8}
    (known : verb ∈ [doCode, dontCode, willCode, wontCode]) (option : UInt8) :
    codec.Reads [iac, verb, option] [] := by
  have awaits : codec.read [iac, verb] = .start { codec with state := .negotiation verb } := by
    simp only [List.mem_cons, List.not_mem_nil, or_false] at known
    rcases known with rfl | rfl | rfl | rfl <;> simp [read, scan_cons, decodeByte, between] <;> rfl
  have answered := read_last awaits option
  exact ⟨congrArg (·.failure) answered, congrArg (·.state.state) answered,
    (congrArg (·.output.data) answered).trans (handleNegotiation_data ..)⟩

def opened (codec : TelnetCodec) (option : UInt8) (payload : List UInt8) : TelnetCodec :=
  { codec with
    subnegotiationOption := some option, subnegotiation := payload, state := .subnegotiation }

theorem read_open (between : codec.state = .data) (option : UInt8) :
    codec.read [iac, sb, option] = .start (codec.opened option []) := by
  obtain ⟨state, _⟩ := codec
  obtain rfl : state = .data := between
  rfl

theorem read_payload_byte (room : payload.length < maxSubnegotiationBytes) (byte : UInt8) :
    (codec.opened option payload).read (appendEscaped [byte]) =
      .start (codec.opened option (payload ++ [byte])) := by
  have space : ¬ payload.length ≥ maxSubnegotiationBytes := by omega
  by_cases plain : byte = iac
  · subst plain
    simp [read, scan_cons, decodeByte, opened, Scan.start, pushSubnegotiation, space]
  · rw [appendEscaped_plain plain]
    simp [read, scan_cons, decodeByte, opened, Scan.start, pushSubnegotiation, space, plain]

theorem read_payload_overflow (full : maxSubnegotiationBytes ≤ payload.length) (byte : UInt8) :
    (codec.opened option payload).read (appendEscaped [byte]) =
      ⟨{ codec with subnegotiation := [], subnegotiationOption := none, state := .data }, 0,
        some .subnegotiationTooLarge⟩ := by
  by_cases plain : byte = iac
  · subst plain
    simp [read, scan_cons, decodeByte, opened, Scan.start, pushSubnegotiation, full]
  · rw [appendEscaped_plain plain]
    simp [read, scan_cons, decodeByte, opened, pushSubnegotiation, full, plain]

theorem read_payload {more : List UInt8}
    (room : payload.length + more.length ≤ maxSubnegotiationBytes) :
    (codec.opened option payload).read (appendEscaped more) =
      .start (codec.opened option (payload ++ more)) := by
  induction more generalizing payload with
  | nil => simp [appendEscaped, read]
  | cons byte bytes ih =>
    rw [List.length_cons] at room
    rw [← List.singleton_append, appendEscaped_append, read_append,
      read_payload_byte (by omega), Scan.start_andThen, ih (by simp; omega)]
    simp

theorem finishSubnegotiation_data : codec.finishSubnegotiation.2.data = [] := by
  unfold finishSubnegotiation
  dsimp only
  split <;> rfl

theorem reads_close (option : UInt8) (payload : List UInt8) :
    (codec.opened option payload).Reads [iac, se] [] := by
  have awaits : (codec.opened option payload).read [iac] =
      .start { codec.opened option payload with state := .subnegotiationIac } := rfl
  have closed := read_last awaits se
  exact ⟨congrArg (·.failure) closed, congrArg (·.state.state) closed,
    (congrArg (·.output.data) closed).trans finishSubnegotiation_data⟩

theorem read_block (between : codec.state = .data)
    (bounded : payload.length ≤ maxSubnegotiationBytes) :
    codec.read ([iac, sb, option] ++ appendEscaped payload) =
      .start (codec.opened option payload) := by
  rw [read_after (read_open between option), read_payload (by simpa using bounded), List.nil_append]

end TelnetCodec

inductive Item where
  | data (byte : UInt8)
  | control (code : UInt8) (plain : code ∉ [iac, doCode, dontCode, willCode, wontCode, sb])
  | negotiation (verb option : UInt8) (known : verb ∈ [doCode, dontCode, willCode, wontCode])
  | subnegotiation (option : UInt8) (payload : List UInt8)
      (bounded : payload.length ≤ maxSubnegotiationBytes)

namespace Item

def encode : Item → List UInt8
  | .data byte => appendEscaped [byte]
  | .control code _ => [iac, code]
  | .negotiation verb option _ => [iac, verb, option]
  | .subnegotiation option payload _ =>
    [iac, sb, option] ++ appendEscaped payload ++ [iac, se]

def carried : Item → List UInt8
  | .data byte => [byte]
  | _ => []

theorem reads {codec : TelnetCodec} (between : codec.state = .data) (item : Item) :
    codec.Reads item.encode item.carried := by
  cases item with
  | data byte =>
    have h := TelnetCodec.read_escape between byte
    exact ⟨congrArg (·.failure) h, (congrArg (·.state.state) h).trans between,
      congrArg (·.output.data) h⟩
  | control code plain =>
    have h := TelnetCodec.read_command between plain
    exact ⟨congrArg (·.failure) h, (congrArg (·.state.state) h).trans between,
      congrArg (·.output.data) h⟩
  | negotiation verb option known => exact TelnetCodec.reads_negotiation between known option
  | subnegotiation option payload bounded =>
    exact .of_start (TelnetCodec.read_block between bounded)
      (TelnetCodec.reads_close option payload)

theorem reads_all {codec : TelnetCodec} (between : codec.state = .data) (items : List Item) :
    codec.Reads (items.flatMap encode) (items.flatMap carried) := by
  induction items generalizing codec with
  | nil => exact TelnetCodec.reads_nil between
  | cons item items ih =>
    have first := item.reads between
    exact first.append (ih first.between)

end Item

namespace TelnetCodec

variable {codec : TelnetCodec}

def Between (codec : TelnetCodec) (bytes : List UInt8) : Prop :=
  (codec.read bytes).failure = none ∧ (codec.read bytes).state.state = .data

def EndsIn (start : TelnetCodec) (bytes : List UInt8) (codec : TelnetCodec) : Prop :=
  match codec.state with
  | .data => start.Between bytes
  | .iac => ∃ items, start.Between items ∧ bytes = items ++ [iac]
  | .negotiation _ => True
  | .subnegotiationOption => ∃ items, start.Between items ∧ bytes = items ++ [iac, sb]
  | .subnegotiation =>
    codec.subnegotiation.length ≤ maxSubnegotiationBytes ∧
    ∃ items option, start.Between items ∧
      bytes = items ++ [iac, sb, option] ++ appendEscaped codec.subnegotiation
  | .subnegotiationIac =>
    codec.subnegotiation.length ≤ maxSubnegotiationBytes ∧
    ∃ items option, start.Between items ∧
      bytes = items ++ [iac, sb, option] ++ appendEscaped codec.subnegotiation ++ [iac]

variable {bytes : List UInt8} {byte : UInt8}

theorem EndsIn.of_data {start : TelnetCodec} (h : codec.state = .data)
    (between : start.Between bytes) : start.EndsIn bytes codec := by
  simpa only [EndsIn, h] using between

inductive Advance (codec : TelnetCodec) (byte : UInt8) : TelnetCodec → Prop
  | command (h : codec.state = .data) (mark : byte = iac) :
    Advance codec byte { codec with state := .iac }
  | negotiation (h : codec.state = .iac) :
    Advance codec byte { codec with state := .negotiation byte }
  | block (h : codec.state = .iac) (mark : byte = sb) :
    Advance codec byte { codec with state := .subnegotiationOption }
  | option (h : codec.state = .subnegotiationOption) : Advance codec byte (codec.opened byte [])
  | escape (h : codec.state = .subnegotiation) (mark : byte = iac) :
    Advance codec byte { codec with state := .subnegotiationIac }
  | payload (room : codec.subnegotiation.length < maxSubnegotiationBytes)
    (h : codec.state = .subnegotiation ∧ byte ≠ iac ∨
      codec.state = .subnegotiationIac ∧ byte = iac) :
    Advance codec byte { codec with
      subnegotiation := codec.subnegotiation ++ [byte], state := .subnegotiation }

theorem pushSubnegotiation_of_ok (ok : (codec.pushSubnegotiation byte).failure = none) :
    codec.subnegotiation.length < maxSubnegotiationBytes ∧ codec.pushSubnegotiation byte =
      .start { codec with subnegotiation := codec.subnegotiation ++ [byte] } := by
  unfold pushSubnegotiation at ok ⊢
  split at ok
  · simp at ok
  · rename_i room
    exact ⟨by omega, if_neg room⟩

theorem decodeByte_advance (ok : (codec.decodeByte byte).failure = none)
    (leaves : (codec.decodeByte byte).state.state ≠ .data) :
    codec.Advance byte (codec.decodeByte byte).state := by
  cases h : codec.state <;> simp only [decodeByte, h] at ok leaves ⊢
  case data =>
    split at leaves
    · rename_i mark
      rw [if_pos mark]
      exact .command h mark
    · exact absurd h leaves
  case iac =>
    split at leaves
    · exact absurd rfl leaves
    split at leaves
    · rename_i escape verb
      rw [if_neg escape, if_pos verb]
      exact .negotiation h
    split at leaves
    · rename_i escape verb mark
      rw [if_neg escape, if_neg verb, if_pos mark]
      exact .block h mark
    · exact absurd rfl leaves
  case negotiation => exact absurd rfl leaves
  case subnegotiationOption => exact .option h
  case subnegotiation =>
    split at ok
    · rename_i mark
      rw [if_pos mark]
      exact .escape h mark
    · rename_i plain
      obtain ⟨room, pushed⟩ := pushSubnegotiation_of_ok ok
      rw [if_neg plain, pushed]
      have stored := Advance.payload room (.inl ⟨h, plain⟩)
      rw [← h] at stored
      exact stored
  case subnegotiationIac =>
    split at leaves
    · rename_i mark
      rw [if_pos mark] at ok ⊢
      obtain ⟨room, pushed⟩ := pushSubnegotiation_of_ok (Scan.ok_of_andThen ok)
      rw [pushed, Scan.start_andThen]
      exact mark ▸ Advance.payload room (.inr ⟨h, mark⟩)
    split at leaves <;> exact absurd rfl leaves

theorem EndsIn.advance {start after : TelnetCodec}
    (ends : start.EndsIn bytes codec) (next : codec.Advance byte after) :
    start.EndsIn (bytes ++ [byte]) after := by
  cases next with
  | command h mark =>
    simp only [EndsIn, h] at ends
    exact ⟨bytes, ends, by rw [mark]⟩
  | negotiation => trivial
  | block h mark =>
    simp only [EndsIn, h] at ends
    obtain ⟨items, between, rfl⟩ := ends
    exact ⟨items, between, by simp [mark]⟩
  | option h =>
    simp only [EndsIn, h] at ends
    obtain ⟨items, between, rfl⟩ := ends
    exact ⟨Nat.zero_le _, items, byte, between, by simp [appendEscaped, opened]⟩
  | escape h mark =>
    simp only [EndsIn, h] at ends
    obtain ⟨bounded, items, option, between, rfl⟩ := ends
    exact ⟨bounded, items, option, between, by simp [mark]⟩
  | payload room h =>
    refine ⟨by simp; omega, ?_⟩
    rcases h with ⟨h, plain⟩ | ⟨h, rfl⟩ <;> simp only [EndsIn, h] at ends <;>
      obtain ⟨-, items, option, between, rfl⟩ := ends
    · exact ⟨items, option, between, by simp [appendEscaped_plain plain]⟩
    · exact ⟨items, option, between, by simp⟩

theorem endsIn_read (between : codec.state = .data) (ok : (codec.read bytes).failure = none) :
    codec.EndsIn bytes (codec.read bytes).state := by
  refine scan_reads (I := codec.EndsIn) (.of_data between ⟨rfl, between⟩) ?_ ok
  intro bytes byte ok ends next
  by_cases closed : ((scan decodeByte codec bytes).state.decodeByte byte).state.state = .data
  · obtain ⟨whole, after⟩ := scan_concat_of_ok ok byte
    exact .of_data closed ⟨whole.trans next, (congrArg TelnetCodec.state after).trans closed⟩
  · exact ends.advance (decodeByte_advance next closed)

theorem pushSubnegotiation_fails : (codec.pushSubnegotiation byte).failure ≠ none ↔
      maxSubnegotiationBytes ≤ codec.subnegotiation.length := by
  unfold pushSubnegotiation
  split <;> simp_all

theorem decodeByte_fails (fails : (codec.decodeByte byte).failure ≠ none) :
    maxSubnegotiationBytes ≤ codec.subnegotiation.length ∧
      (codec.state = .subnegotiation ∧ byte ≠ iac ∨
        codec.state = .subnegotiationIac ∧ byte = iac) := by
  cases h : codec.state <;> simp only [decodeByte, h] at fails
  case data => split at fails <;> exact absurd rfl fails
  case iac => repeat' split at fails <;> try exact absurd rfl fails
  case negotiation => exact absurd rfl fails
  case subnegotiationOption => exact absurd rfl fails
  case subnegotiation =>
    split at fails
    · exact absurd rfl fails
    · rename_i plain
      exact ⟨pushSubnegotiation_fails.mp fails, .inl ⟨rfl, plain⟩⟩
  case subnegotiationIac =>
    split at fails
    · rename_i mark
      refine ⟨?_, .inr ⟨rfl, mark⟩⟩
      by_contra room
      have ok : (codec.pushSubnegotiation iac).failure = none :=
        not_not.mp (mt pushSubnegotiation_fails.mp room)
      rw [(pushSubnegotiation_of_ok ok).2, Scan.start_andThen] at fails
      exact fails rfl
    split at fails <;> exact absurd rfl fails

theorem read_fails_iff (between : codec.state = .data) (ok : (codec.read bytes).failure = none) :
    (codec.read (bytes ++ [byte])).failure ≠ none ↔
      ∃ items option payload last, codec.Between items ∧ payload.length = maxSubnegotiationBytes ∧
        bytes ++ [byte] = items ++ [iac, sb, option] ++ appendEscaped (payload ++ [last]) := by
  constructor
  · intro fails
    rw [read, (scan_concat_of_ok ok byte).1] at fails
    obtain ⟨full, h⟩ := decodeByte_fails fails
    have ends := endsIn_read between ok
    rcases h with ⟨h, plain⟩ | ⟨h, rfl⟩ <;> simp only [EndsIn, read, h] at ends <;>
      obtain ⟨bounded, items, option, at_, shape⟩ := ends
    · refine ⟨items, option, _, byte, at_, Nat.le_antisymm bounded full, ?_⟩
      rw [appendEscaped_append, appendEscaped_plain plain, ← List.append_assoc, ← shape]
    · refine ⟨items, option, _, iac, at_, Nat.le_antisymm bounded full, ?_⟩
      simpa using congrArg (· ++ [iac]) shape
  · rintro ⟨items, option, payload, last, ⟨ok, at_⟩, full, shape⟩
    have stored : (codec.read items).state.read ([iac, sb, option] ++ appendEscaped payload) =
        .start ((codec.read items).state.opened option payload) := read_block at_ (Nat.le_of_eq full)
    rw [shape, appendEscaped_append, List.append_assoc,
      ← List.append_assoc _ _ (appendEscaped [last]), read_append]
    rcases h : codec.read items with ⟨state, output, _ | error⟩ <;> rw [h] at ok stored
    · rw [Scan.andThen_ok, read_after stored, read_payload_overflow (Nat.le_of_eq full.symm)]
      simp
    · simp at ok

theorem read_input (between : codec.state = .data) (data : List UInt8) :
    codec.read (encodeUserInput data) = ⟨codec, { data }, none⟩ := by
  unfold encodeUserInput
  induction data with
  | nil => rfl
  | cons byte data ih =>
    rw [← List.singleton_append, appendEscaped_append, read_append, read_escape between,
      Scan.andThen_ok, ih]
    rfl

theorem decode_fails_iff : (codec.decode bytes).1 = .error .subnegotiationTooLarge ↔
      (codec.read bytes).failure ≠ none := by
  rw [decode_eq_error]
  rcases (codec.read bytes).failure with _ | ⟨⟨⟩⟩ <;> simp

/-- Decoding is independent of the cuts, gives exactly the data of a well-formed
stream, undoes the escaping of user input, and fails exactly where a payload
outgrows its bound. -/
theorem decode_exact :
    (∀ (codec after : TelnetCodec) (chunks : List (List UInt8)) (results : List DecodeResult),
      codec.decodeChunks chunks = (results.map .ok, after) →
      ∃ decoded, codec.decode chunks.flatten = (.ok decoded, after) ∧
        decoded.data = results.flatMap (·.data) ∧
        decoded.responses = results.flatMap (·.responses) ∧
        decoded.enabled = results.flatMap (·.enabled)) ∧
    ∀ codec : TelnetCodec, codec.state = .data → (∀ items : List Item, ∃ decoded after,
        codec.decode (items.flatMap Item.encode) = (.ok decoded, after) ∧
        decoded.data = items.flatMap Item.carried ∧ after.state = .data) ∧
      (∀ data, codec.decode (encodeUserInput data) = (.ok { data }, codec)) ∧
      ∀ bytes byte, (∃ decoded after, codec.decode bytes = (.ok decoded, after)) →
        ((codec.decode (bytes ++ [byte])).1 = .error .subnegotiationTooLarge ↔
          ∃ items option payload last, codec.Between items ∧ payload.length = 4096 ∧
            bytes ++ [byte] = items ++ [iac, sb, option] ++ appendEscaped (payload ++ [last])) := by
  refine ⟨fun codec after chunks results h => ?_, fun codec between => ⟨fun items => ?_, ?_, ?_⟩⟩
  · exact ⟨results.sum, decode_eq_ok.mpr (read_flatten h), DecodeResult.sum_fields results⟩
  · obtain ⟨ok, at_, carries⟩ := Item.reads_all between items
    exact ⟨_, _, decode_eq_ok.mpr (by rw [← ok]), carries, at_⟩
  · exact fun data => decode_eq_ok.mpr (read_input between data)
  · rintro bytes byte ⟨decoded, after, h⟩
    rw [decode_fails_iff]
    exact read_fails_iff between (by rw [decode_eq_ok.mp h])

theorem decode_exact_fragmented :
    ∃ decoded, new.decode [97, iac, iac, 0, 254] = (.ok decoded, new) ∧
      decoded.data = [97, iac, 0, 254] ∧ decoded.responses = [] ∧ decoded.enabled = [] :=
  decode_exact.1 new new [[97, iac], [iac, 0, 254]] [{ data := [97] }, { data := [iac, 0, 254] }]
    rfl

end TelnetCodec

end NoriShell.Telnet

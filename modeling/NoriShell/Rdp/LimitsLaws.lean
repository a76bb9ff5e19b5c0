import NoriShell.Rdp.Limits

namespace NoriShell.Rdp

open Collections Desktop

/-- The fences count at least what the engine holds. -/
structure Covers (codec : Codec) (ids : List UInt16) (dynamic : Option UInt16) (l : Limits)
    (e : Engine) : Prop where
  sameDynamic : l.dynamic = dynamic
  fast : e.fast.length ≤ l.fast
  fastHigh : e.fastHigh ≤ maxFragment
  channels : ∀ id ∈ ids, l.channels id = some (e.channels id)
  strangers : ∀ id, id ∉ ids → l.channels id = none
  channelHigh : ∀ id ∈ ids, e.channelHigh id ≤ maxChannel
  messages : ∀ message ∈ e.messages, ∀ total,
    codec.declaredTotal message = some (some total) → total ≤ maxChannel

theorem checkTotal_ok {codec : Codec} {message : List UInt8}
    (accepted : checkTotal codec message = .ok ()) {total : Nat}
    (declared : codec.declaredTotal message = some (some total)) : total ≤ maxChannel := by
  rw [checkTotal, declared] at accepted
  change reject (Option.any (maxChannel < ·) (some total)) _ = .ok () at accepted
  rw [Check.reject_eq_ok] at accepted
  simpa using accepted

@[simp] theorem Limits.channels_setPending (l : Limits) (id : UInt16) (pending : List UInt8)
    (other : UInt16) :
    (l.setPending id pending).channels other =
      if other = id then some pending else l.channels other :=
  Function.update_apply ..

namespace Covers

variable {codec : Codec} {ids : List UInt16} {dynamic : Option UInt16} {l l' : Limits} {e : Engine}

theorem new : Covers codec ids dynamic (.new ids dynamic) {} where
  sameDynamic := rfl
  fast := Nat.le_refl _
  fastHigh := Nat.zero_le _
  channels id member := if_pos (List.contains_iff_mem.2 member)
  strangers id stranger := if_neg fun contained => stranger (List.contains_iff_mem.1 contained)
  channelHigh _ _ := Nat.zero_le _
  messages := by simp

theorem admitUpdate_ok {update : FastPathUpdate} (accepted : l.admitUpdate update = .ok l') :
    let before := if update.fragmentation = .single ∨ update.fragmentation = .first then 0
      else l.fast
    before + update.data.length ≤ maxFragment ∧
      l' = { l with fast := if update.fragmentation = .single ∨ update.fragmentation = .last then 0
        else before + update.data.length } := by
  simp only [Limits.admitUpdate, Check.bind_unit_eq_ok, Check.reject_eq_ok, not_lt] at accepted
  obtain ⟨-, -, short, same⟩ := accepted
  cases same
  exact ⟨short, rfl⟩

theorem update (covers : Covers codec ids dynamic l e) {u : FastPathUpdate}
    (accepted : l.admitUpdate u = .ok l') : Covers codec ids dynamic l' (e.update u) := by
  obtain ⟨short, rfl⟩ := admitUpdate_ok accepted
  have held := covers.fast
  have high := covers.fastHigh
  cases kind : u.fragmentation with
  | single =>
    simp only [kind, Engine.update] at short ⊢
    exact { covers with fast := Nat.le_refl _ }
  | first =>
    simp only [kind, Engine.update, or_true, if_true, Nat.zero_add] at short ⊢
    refine { covers with fast := ?_, fastHigh := max_le high short }
    simp
  | next =>
    simp only [kind, Engine.update, reduceCtorEq, or_self, if_false] at short ⊢
    refine { covers with fast := ?_, fastHigh := ?_ }
    · rw [List.length_append]
      exact Nat.add_le_add_right held _
    · rw [List.length_append]
      exact max_le high (Nat.le_trans (Nat.add_le_add_right held _) short)
  | last =>
    simp only [kind, Engine.update, reduceCtorEq, or_self, if_false] at short ⊢
    refine { covers with fast := ?_, fastHigh := ?_ }
    · simp
    · rw [List.length_append]
      exact max_le high (Nat.le_trans (Nat.add_le_add_right held _) short)

theorem updates (covers : Covers codec ids dynamic l e) {updates : List FastPathUpdate}
    (accepted : updates.foldlM Limits.admitUpdate l = .ok l') :
    Covers codec ids dynamic l' (updates.foldl Engine.update e) := by
  induction updates generalizing l e with
  | nil =>
    cases accepted
    exact covers
  | cons u updates ih =>
    rw [List.foldlM_cons, Check.bind_eq_ok] at accepted
    obtain ⟨next, first, rest⟩ := accepted
    exact ih (covers.update first) rest

theorem chunk (covers : Covers codec ids dynamic l e) {id : UInt16} {userData : List UInt8}
    (member : id ∈ ids) (accepted : l.checkChunk codec id (e.channels id) userData = .ok l') :
    Covers codec ids dynamic l' (e.chunk dynamic id userData) := by
  simp only [Limits.checkChunk, Check.bind_unit_eq_ok, Check.reject_eq_ok, not_or, not_lt]
    at accepted
  obtain ⟨long, ⟨-, short⟩, rest⟩ := accepted
  have room : (e.channels id ++ userData.drop 8).length ≤ maxChannel := by
    rw [List.length_append, List.length_drop]
    omega
  have high : ∀ other ∈ ids, Function.update e.channelHigh id
      (max (e.channelHigh id) (e.channels id ++ userData.drop 8).length) other ≤ maxChannel := by
    intro other other_member
    rw [Function.update_apply]
    split
    · exact max_le (covers.channelHigh id member) room
    · exact covers.channelHigh other other_member
  have pending (left : List UInt8) (other : UInt16) (other_member : other ∈ ids) :
      (l.setPending id left).channels other = some (Function.update e.channels id left other) := by
    rw [Limits.channels_setPending, Function.update_apply]
    split
    · rfl
    · exact covers.channels other other_member
  have strangers (left : List UInt8) (other : UInt16) (stranger : other ∉ ids) :
      (l.setPending id left).channels other = none := by
    have apart : other ≠ id := fun same => stranger (same ▸ member)
    rw [Limits.channels_setPending, if_neg apart]
    exact covers.strangers other stranger
  by_cases last : isLastChunk userData = true
  · rw [if_pos last, covers.sameDynamic] at rest
    have kept (other : UInt16) (other_member : other ∈ ids) :
        (l.setPending id []).channels other = some ((e.chunk dynamic id userData).channels other) := by
      rw [pending _ other other_member]
      simp [Engine.chunk, last]
    by_cases mine : dynamic = some id
    · rw [if_pos mine, Check.bind_unit_eq_ok] at rest
      obtain ⟨total_ok, same⟩ := rest
      cases same
      refine { covers with
        channels := kept, strangers := strangers [], channelHigh := high, messages := ?_ }
      intro message completed total declared
      simp only [Engine.chunk, last, mine, and_self, if_true, List.mem_append,
        List.mem_singleton] at completed
      rcases completed with earlier | rfl
      · exact covers.messages message earlier total declared
      · exact checkTotal_ok total_ok declared
    · rw [if_neg mine] at rest
      cases rest
      refine { covers with
        channels := kept, strangers := strangers [], channelHigh := high, messages := ?_ }
      simpa [Engine.chunk, mine] using covers.messages
  · rw [if_neg last] at rest
    cases rest
    refine { covers with
      channels := ?_, strangers := strangers _, channelHigh := high, messages := ?_ }
    · intro other other_member
      rw [pending _ other other_member]
      simp [Engine.chunk, last]
    · simpa [Engine.chunk, last] using covers.messages

theorem unknown_chunk (covers : Covers codec ids dynamic l e)
    (known : ∀ id, dynamic = some id → id ∈ ids) {id : UInt16} (userData : List UInt8)
    (stranger : id ∉ ids) : Covers codec ids dynamic l (e.chunk dynamic id userData) := by
  have apart {other : UInt16} (member : other ∈ ids) : other ≠ id := fun same =>
    stranger (same ▸ member)
  have not_dynamic : dynamic ≠ some id := fun same => stranger (known id same)
  refine { covers with channels := ?_, channelHigh := ?_, messages := ?_ }
  · intro other member
    rw [covers.channels other member]
    simp [Engine.chunk, apart member]
  · intro other member
    simpa [Engine.chunk, apart member] using covers.channelHigh other member
  · simpa [Engine.chunk, not_dynamic] using covers.messages

theorem pdu (covers : Covers codec ids dynamic l e) (known : ∀ id, dynamic = some id → id ∈ ids)
    {action : Action} {bytes : List UInt8} (accepted : l.check codec action bytes = .ok l') :
    Covers codec ids dynamic l' (e.process codec dynamic action bytes) := by
  cases action with
  | fastPath =>
    simp only [Limits.check, Limits.checkFastPath, Check.bind_eq_ok] at accepted
    obtain ⟨decoded, read, next, admitted, -, -, same⟩ := accepted
    cases same
    have found : codec.fastPath bytes = some decoded := by
      cases result : codec.fastPath bytes with
      | none => simp [result] at read
      | some _ =>
        rw [result] at read
        cases read
        rfl
    simp only [Engine.process, found]
    exact covers.updates admitted
  | x224 =>
    simp only [Limits.check, Engine.process] at accepted ⊢
    cases found : codec.sendData bytes with
    | none =>
      rw [found] at accepted
      cases accepted
      exact covers
    | some indication =>
      obtain ⟨id, userData⟩ := indication
      simp only [found] at accepted ⊢
      by_cases member : id ∈ ids
      · rw [covers.channels id member] at accepted
        exact covers.chunk member accepted
      · rw [covers.strangers id member] at accepted
        cases accepted
        exact covers.unknown_chunk known userData member

theorem packet {s : Limits × Engine} (covers : Covers codec ids dynamic l e)
    (known : ∀ id, dynamic = some id → id ∈ ids) {packet : Packet}
    (accepted : admitPacket codec (l, e) packet = .ok s) : Covers codec ids dynamic s.1 s.2 := by
  cases packet with
  | pdu action bytes =>
    simp only [admitPacket, Check.bind_eq_ok] at accepted
    obtain ⟨next, checked, same⟩ := accepted
    cases same
    rw [covers.sameDynamic]
    exact covers.pdu known checked
  | udp bytes =>
    simp only [admitPacket, Limits.checkUdpDvc, Check.bind_unit_eq_ok] at accepted
    obtain ⟨⟨-, checked⟩, same⟩ := accepted
    cases same
    refine { covers with messages := ?_ }
    intro message completed total declared
    rcases List.mem_append.1 completed with earlier | now
    · exact covers.messages message earlier total declared
    · rw [List.mem_singleton.1 now] at declared
      exact checkTotal_ok checked declared

theorem run {s : Limits × Engine} (covers : Covers codec ids dynamic l e)
    (known : ∀ id, dynamic = some id → id ∈ ids) {packets : List Packet}
    (accepted : packets.foldlM (admitPacket codec) (l, e) = .ok s) :
    Covers codec ids dynamic s.1 s.2 := by
  induction packets generalizing l e with
  | nil =>
    cases accepted
    exact covers
  | cons packet packets ih =>
    rw [List.foldlM_cons, Check.bind_eq_ok] at accepted
    obtain ⟨⟨l', e'⟩, first, rest⟩ := accepted
    exact ih (covers.packet known first) rest

end Covers

/-- Whatever packets are accepted one after the other, the buffers of the engine have stayed within
the limits, and no DRDYNVC message that declares more was completed. -/
theorem reassembly_bounded {codec : Codec} {ids : List UInt16} {dynamic : Option UInt16}
    (known : ∀ id, dynamic = some id → id ∈ ids) {packets : List Packet} {l : Limits} {e : Engine}
    (accepted : packets.foldlM (admitPacket codec) (.new ids dynamic, {}) = .ok (l, e)) :
    e.fastHigh ≤ maxFragment ∧ (∀ id ∈ ids, e.channelHigh id ≤ maxChannel) ∧
      ∀ message ∈ e.messages, ∀ total,
        codec.declaredTotal message = some (some total) → total ≤ maxChannel := by
  have covers := Covers.new.run known accepted
  exact ⟨covers.fastHigh, covers.channelHigh, covers.messages⟩

def tinyCodec : Codec where
  fastPath bytes :=
    match bytes with
    | [] => none
    | kind :: data => some ([⟨if kind = 1 then .first else if kind = 2 then .last else .next,
        false, data⟩], false)
  sendData bytes := some (7, bytes)
  declaredTotal message := some (message.head?.map UInt8.toNat)

def tinyPackets : List Packet :=
  [.pdu .fastPath [1, 9, 9], .pdu .fastPath [3, 9], .pdu .x224 [1, 0, 0, 0, 2, 0, 0, 0, 5], .udp [4]]

theorem tinyPackets_accepted : ∃ l e,
    tinyPackets.foldlM (admitPacket tinyCodec) (.new [7] (some 7), {}) = .ok (l, e) :=
  ⟨_, _, rfl⟩

theorem reassembly_bounded_tiny : ∃ l e,
    tinyPackets.foldlM (admitPacket tinyCodec) (.new [7] (some 7), {}) = .ok (l, e) ∧
      e.fastHigh ≤ maxFragment := by
  obtain ⟨l, e, accepted⟩ := tinyPackets_accepted
  have known (id : UInt16) (same : some 7 = some id) : id ∈ [7] := by
    cases same
    exact List.mem_cons_self
  exact ⟨l, e, accepted, (reassembly_bounded known accepted).1⟩

end NoriShell.Rdp

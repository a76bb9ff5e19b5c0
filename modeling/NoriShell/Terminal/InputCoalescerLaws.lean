import NoriShell.Justified
import NoriShell.Terminal.InputCoalescer

namespace NoriShell.Terminal

variable {unit : UInt16}

theorem encodedBytes_cons (h : isHighSurrogate unit = false) (text : Text) :
    encodedBytes (unit :: text) = unitBytes unit + encodedBytes text := by
  cases text with
  | nil => rfl
  | cons next rest => simp [encodedBytes, h]

theorem isLowSurrogate_iff : isLowSurrogate unit ↔ 0xdc00 ≤ unit.toNat ∧ unit.toNat < 0xe000 := by
  simp [isLowSurrogate]

theorem isHighSurrogate_iff : isHighSurrogate unit ↔ 0xd800 ≤ unit.toNat ∧ unit.toNat < 0xdc00 := by
  simp [isHighSurrogate]

theorem unitBytes_surrogate (h : 0xd800 ≤ unit.toNat) : unitBytes unit = 3 := by
  simp only [unitBytes]
  rw [if_neg (by omega), if_neg (by omega)]

theorem encodedBytes_cons_le (unit : UInt16) (text : Text) :
    encodedBytes (unit :: text) ≤ unitBytes unit + encodedBytes text := by
  cases text with
  | nil => simp [encodedBytes]
  | cons next rest =>
    rw [encodedBytes]
    split
    · rename_i pair
      rw [Bool.and_eq_true, isHighSurrogate_iff, isLowSurrogate_iff] at pair
      have low : isHighSurrogate next = false := by
        rw [Bool.eq_false_iff, ne_eq, isHighSurrogate_iff]
        omega
      rw [encodedBytes_cons low, unitBytes_surrogate pair.1.1, unitBytes_surrogate (by omega)]
      omega
    · exact le_rfl

theorem encodedBytes_append_le (a b : Text) :
    encodedBytes (a ++ b) ≤ encodedBytes a + encodedBytes b := by
  induction a using encodedBytes.induct with
  | case1 => simp [encodedBytes]
  | case2 unit => exact encodedBytes_cons_le unit b
  | case3 unit next rest pair ih =>
    simp only [List.cons_append, encodedBytes, pair, if_true]
    omega
  | case4 unit next rest pair ih =>
    simp only [List.cons_append] at ih
    simp only [List.cons_append, encodedBytes, pair, Bool.false_eq_true, if_false]
    omega

theorem encodedBytes_flatten_le (texts : List Text) :
    encodedBytes texts.flatten ≤ (texts.map encodedBytes).sum := by
  induction texts with
  | nil => simp [encodedBytes]
  | cons text texts ih =>
    have both := encodedBytes_append_le text texts.flatten
    rw [List.flatten_cons, List.map_cons, List.sum_cons]
    omega

variable {Key : Type}

namespace Event

@[simp] def sentItems : Event Key → List QueuedItem
  | .sent item _ _ => [item]
  | _ => []

@[simp] def writtenItems : Event Key → List QueuedItem
  | .wrote _ items _ => items
  | _ => []

@[simp] def succeededItems : Event Key → List QueuedItem
  | .succeeded items => items
  | _ => []

@[simp] def failedItems : Event Key → List QueuedItem
  | .failed items => items
  | _ => []

@[simp] def resolvedItems : Event Key → List QueuedItem
  | .resolved item _ _ => [item]
  | _ => []

@[simp] def rejectedItems : Event Key → List QueuedItem
  | .rejected item _ => [item]
  | _ => []

def isLoss : Event Key → Bool
  | .failed _ | .rejected _ _ => true
  | _ => false

end Event

def FreshSince (log : List (Event Key)) (items : List QueuedItem) : Prop :=
  ∀ before lost after, log = before ++ .failed lost :: after →
    ∀ item ∈ items, item ∈ after.flatMap Event.sentItems

/-- The items went out together: under one fence, as one text that is not too long, with nothing
after a sealed one, and none of them from before a failed write. -/
structure Carried (maxBatchBytes : Nat) (before : List (Event Key)) (key : Key)
    (items : List QueuedItem) (value : Text) : Prop where
  exact : value = (items.map QueuedItem.value).flatten
  captured : ∀ item ∈ items, ∃ isSealed, .sent item (some key) isSealed ∈ before
  unsealed : ∀ item ∈ items.dropLast, .sent item (some key) false ∈ before
  bounded : encodedBytes value ≤ maxBatchBytes ∨ items.length = 1
  fresh : FreshSince before items

def Proper (maxBatchBytes : Nat) (before : List (Event Key)) : Event Key → Prop
  | .wrote current items value =>
    ∃ key, current = some key ∧ Carried maxBatchBytes before key items value
  | .resolved item _ _ => ∃ items, .succeeded items ∈ before ∧ item ∈ items
  | _ => True

section

variable {log more : List (Event Key)} {items : List QueuedItem} {key : Key} {value : Text}
  {maxBatchBytes : Nat}

theorem FreshSince.append (h : FreshSince log items) (calm : ∀ lost, .failed lost ∉ more) :
    FreshSince (log ++ more) items := by
  intro before lost after shape item mem
  rcases List.append_eq_append_iff.1 shape with ⟨front, split, rest⟩ | ⟨back, split, rest⟩
  · exact absurd (by simp [rest]) (calm lost)
  · rcases back with _ | ⟨head, back⟩
    · rw [List.nil_append] at rest
      exact absurd (rest ▸ List.mem_cons_self) (calm lost)
    · obtain ⟨rfl, rfl⟩ : head = .failed lost ∧ back ++ more = after := by simpa using rest.symm
      rw [List.flatMap_append]
      exact List.mem_append_left _ (h before lost back split item mem)

theorem freshSince_sent (item : QueuedItem) (captured : Option Key) (isSealed : Bool) :
    FreshSince (log ++ [.sent item captured isSealed]) [item] := by
  intro before lost after shape one mem
  rcases List.eq_nil_or_concat after with rfl | ⟨after, last, rfl⟩
  · cases (List.append_inj' shape rfl).2
  · rw [List.concat_eq_append, ← List.cons_append, ← List.append_assoc] at shape
    cases (List.append_inj' shape rfl).2
    simpa using Or.inr (List.mem_singleton.1 mem)

theorem FreshSince.add (h : FreshSince log items) {item : QueuedItem} (one : FreshSince log [item]) :
    FreshSince log (items ++ [item]) := by
  intro before lost after shape other mem
  rcases List.mem_append.1 mem with mem | mem
  · exact h before lost after shape other mem
  · exact one before lost after shape other mem

theorem Carried.append (h : Carried maxBatchBytes log key items value)
    (calm : ∀ lost, .failed lost ∉ more) : Carried maxBatchBytes (log ++ more) key items value where
  exact := h.exact
  captured item mem := (h.captured item mem).imp fun _ sent => List.mem_append_left _ sent
  unsealed item mem := List.mem_append_left _ (h.unsealed item mem)
  bounded := h.bounded
  fresh := h.fresh.append calm

structure Batch.Ready (maxBatchBytes : Nat) (log : List (Event Key)) (batch : Batch Key) :
    Prop where
  carried : Carried maxBatchBytes log batch.key batch.items batch.text
  last : ∀ item ∈ batch.items.getLast?, .sent item (some batch.key) batch.isSealed ∈ log
  bytes : batch.bytes = (batch.items.map fun item => encodedBytes item.value).sum

variable {batch : Batch Key}

theorem Batch.Ready.append (h : batch.Ready maxBatchBytes log)
    (calm : ∀ lost, .failed lost ∉ more) : batch.Ready maxBatchBytes (log ++ more) where
  carried := h.carried.append calm
  last item mem := List.mem_append_left _ (h.last item mem)
  bytes := h.bytes

theorem Batch.ready_singleton (item : QueuedItem) (isSealed : Bool) :
    (⟨key, [item], encodedBytes item.value, isSealed⟩ : Batch Key).Ready maxBatchBytes
      (log ++ [.sent item (some key) isSealed]) where
  carried := {
    exact := rfl
    captured := fun other mem => ⟨isSealed, by simp [List.mem_singleton.1 mem]⟩
    unsealed := by simp
    bounded := .inr rfl
    fresh := freshSince_sent item (some key) isSealed }
  last := by simp
  bytes := by simp

theorem Batch.Ready.unsealed (h : batch.Ready maxBatchBytes log) (opened : batch.isSealed = false) :
    ∀ item ∈ batch.items, .sent item (some batch.key) false ∈ log := by
  rcases List.eq_nil_or_concat batch.items with none | ⟨items, last, shape⟩
  · simp [none]
  · rw [List.concat_eq_append] at shape
    have before := h.carried.unsealed
    have final := h.last last
    rw [shape] at before final ⊢
    rw [opened] at final
    simpa [or_imp, forall_and] using And.intro (by simpa using before) (by simpa using final)

theorem Batch.Ready.add (h : batch.Ready maxBatchBytes log)
    (opened : batch.isSealed = false) (item : QueuedItem) (isSealed : Bool)
    (fits : batch.bytes + encodedBytes item.value ≤ maxBatchBytes) :
    (⟨batch.key, batch.items ++ [item], batch.bytes + encodedBytes item.value, isSealed⟩ :
      Batch Key).Ready maxBatchBytes (log ++ [.sent item (some batch.key) isSealed]) := by
  have bytes : batch.bytes + encodedBytes item.value =
      ((batch.items ++ [item]).map fun item => encodedBytes item.value).sum := by
    simp [h.bytes]
  have kept : batch.Ready maxBatchBytes (log ++ [.sent item (some batch.key) isSealed]) :=
    h.append (by simp)
  refine ⟨⟨rfl, ?_, ?_, .inl ?_, ?_⟩, ?_, bytes⟩
  · intro other mem
    rcases List.mem_append.1 mem with mem | mem
    · exact kept.carried.captured other mem
    · exact ⟨isSealed, by simp [List.mem_singleton.1 mem]⟩
  · simpa using kept.unsealed opened
  · have whole := encodedBytes_flatten_le ((batch.items ++ [item]).map QueuedItem.value)
    rw [List.map_map] at whole
    exact (whole.trans_eq bytes.symm).trans fits
  · exact kept.carried.fresh.add (freshSince_sent item _ isSealed)
  · simp

end

namespace Writer

@[simp] def queuedItems (w : Writer Key) : List QueuedItem := w.queue.flatMap Batch.items

@[simp] def awaitedItems (w : Writer Key) : List QueuedItem := w.awaiting.flatMap Batch.items

@[simp] def logged (w : Writer Key) (items : Event Key → List QueuedItem) : List QueuedItem :=
  w.log.flatMap items

structure Sound (maxBatchBytes : Nat) (w : Writer Key) : Prop where
  justified : Justified (Proper maxBatchBytes) w.log
  numbered : (w.logged Event.sentItems).map QueuedItem.send = List.range w.sends
  ordered : (w.logged Event.writtenItems ++ w.queuedItems).Sublist (w.logged Event.sentItems)
  settled : (w.logged Event.sentItems).Perm (w.logged Event.resolvedItems ++
    (w.logged Event.rejectedItems ++ (w.awaitedItems ++ w.queuedItems)))
  ended : (w.logged Event.writtenItems).Perm
    (w.logged Event.succeededItems ++ (w.logged Event.failedItems ++ w.awaitedItems))
  resolved : w.logged Event.resolvedItems = w.logged Event.succeededItems
  ready : ∀ batch ∈ w.queue, batch.Ready maxBatchBytes w.log

variable {maxBatchBytes : Nat} {w : Writer Key}

theorem sound_start : (start : Writer Key).Sound maxBatchBytes where
  justified := .nil
  numbered := rfl
  ordered := .refl _
  settled := .refl _
  ended := .refl _
  resolved := rfl
  ready := by simp [start]

theorem flatMap_losses {more : List (Event Key)} (losses : ∀ event ∈ more, event.isLoss)
    (items : Event Key → List QueuedItem) (failed : ∀ lost, items (.failed lost) = [])
    (rejected : ∀ item error, items (.rejected item error) = []) : more.flatMap items = [] := by
  refine List.flatMap_eq_nil_iff.2 fun event mem => ?_
  have loss := losses event mem
  cases event with
  | failed lost => exact failed lost
  | rejected item error => exact rejected item error
  | _ => cases loss

theorem rejected_losses (items : List QueuedItem) (error : InputError) :
    ∀ event ∈ items.map (Event.rejected · error : QueuedItem → Event Key), event.isLoss :=
  List.forall_mem_map.2 fun _ _ => rfl

variable {prepares : Nat} {inFlight : Bool} {batch : Batch Key}

theorem Sound.clear (h : w.Sound maxBatchBytes) (lost : List QueuedItem)
    {awaiting : List (Batch Key)} {more : List (Event Key)}
    (taken : w.awaitedItems.Perm (lost ++ awaiting.flatMap Batch.items))
    (losses : ∀ event ∈ more, event.isLoss)
    (failed : more.flatMap Event.failedItems = lost)
    (rejected : more.flatMap Event.rejectedItems = lost ++ w.queuedItems) :
    ({ w with queue := [], awaiting, inFlight, prepares, log := w.log ++ more } :
      Writer Key).Sound maxBatchBytes := by
  have sent := flatMap_losses losses Event.sentItems (fun _ => rfl) fun _ _ => rfl
  have written := flatMap_losses losses Event.writtenItems (fun _ => rfl) fun _ _ => rfl
  have succeeded := flatMap_losses losses Event.succeededItems (fun _ => rfl) fun _ _ => rfl
  have resolved := flatMap_losses losses Event.resolvedItems (fun _ => rfl) fun _ _ => rfl
  constructor
  · refine h.justified.append fun event mem later => ?_
    have loss := losses event mem
    cases event with
    | failed | rejected => trivial
    | _ => cases loss
  · simpa [sent] using h.numbered
  · have ordered := h.ordered
    simpa [sent, written] using (List.sublist_append_left _ _).trans ordered
  · have settled := h.settled
    simp only [logged, List.flatMap_append, sent, resolved, rejected, awaitedItems, queuedItems,
      List.append_nil, List.flatMap_nil] at settled taken ⊢
    rw [List.perm_iff_count] at settled taken ⊢
    intro item
    have settled := settled item
    have taken := taken item
    simp only [List.count_append] at settled taken ⊢
    omega
  · have ended := h.ended
    simp only [logged, List.flatMap_append, written, succeeded, failed, awaitedItems,
      List.append_nil] at ended taken ⊢
    exact ended.trans (by simpa using (taken.append_left _).append_left _)
  · simpa [resolved, succeeded] using h.resolved
  · simp

theorem Sound.rejectQueued (h : w.Sound maxBatchBytes) : w.rejectQueued.Sound maxBatchBytes := by
  apply h.clear []
  · exact .refl _
  · exact rejected_losses _ _
  · simp [List.flatMap_map]
  · simp [List.flatMap_map]

theorem Sound.wrote (h : w.Sound maxBatchBytes) {queue : List (Batch Key)}
    (shape : w.queue = batch :: queue) :
    ({ w with
      queue, inFlight, prepares
      awaiting := w.awaiting ++ [batch]
      log := w.log ++ [.wrote (some batch.key) batch.items batch.text] } : Writer Key).Sound
        maxBatchBytes := by
  have queued : w.queuedItems = batch.items ++ queue.flatMap Batch.items := by
    simp [shape]
  constructor
  · refine Justified.concat_iff.2 ⟨h.justified, batch.key, rfl, ?_⟩
    exact (h.ready batch (by simp [shape])).carried
  · simpa using h.numbered
  · have ordered := h.ordered
    rw [queued] at ordered
    simpa using ordered
  · have settled := h.settled
    rw [queued] at settled
    simpa using settled
  · have ended := h.ended.append_right batch.items
    simpa using ended
  · simpa using h.resolved
  · intro other mem
    exact (h.ready other (by simp [shape, mem])).append (by simp)

theorem Sound.fenceChanged (h : w.Sound maxBatchBytes)
    {queue : List (Batch Key)} (shape : w.queue = batch :: queue) :
    (({ w with queue, inFlight, prepares } : Writer Key).abandon batch .fenceChanged).Sound
      maxBatchBytes := by
  simp only [abandon, Writer.rejectQueued, Writer.reject, emit, List.append_assoc]
  apply h.clear []
  · exact .refl _
  · exact List.forall_mem_append.2 ⟨rejected_losses _ _, rejected_losses _ _⟩
  · simp [List.flatMap_map]
  · simp [List.flatMap_map, shape]

theorem eraseIdx_perm {index : Nat} (found : w.awaiting[index]? = some batch) :
    w.awaitedItems.Perm (batch.items ++ (w.awaiting.eraseIdx index).flatMap Batch.items) := by
  obtain ⟨bound, rfl⟩ := List.getElem?_eq_some_iff.1 found
  exact (List.getElem_cons_eraseIdx_perm bound).symm.flatMap_right Batch.items

theorem Sound.failed (h : w.Sound maxBatchBytes) {index : Nat}
    (found : w.awaiting[index]? = some batch) :
    (({ w with awaiting := w.awaiting.eraseIdx index }.emit [.failed batch.items]).abandon batch
      .writeFailed).Sound maxBatchBytes := by
  simp only [abandon, Writer.rejectQueued, Writer.reject, emit, List.append_assoc]
  apply h.clear batch.items
  · exact eraseIdx_perm found
  · refine List.forall_mem_append.2 ⟨by simp [Event.isLoss], ?_⟩
    exact List.forall_mem_append.2 ⟨rejected_losses _ _, rejected_losses _ _⟩
  · simp [List.flatMap_map]
  · simp [List.flatMap_map]

theorem flatMap_resolved (batch : Batch Key) (clientSeq : Nat)
    (f : Event Key → List QueuedItem) (g : QueuedItem → List QueuedItem)
    (same : ∀ item last, f (.resolved item clientSeq last) = g item) :
    (batch.items.mapIdx fun index item => Event.resolved item clientSeq
      (index = batch.items.length - 1)).flatMap f = batch.items.flatMap g := by
  rw [List.mapIdx_eq_zipIdx_map, List.flatMap_map]
  simp only [same]
  rw [← List.flatMap_map (fun item : QueuedItem × Nat => item.1), List.zipIdx_map_fst]

theorem Sound.succeeded (h : w.Sound maxBatchBytes) {index clientSeq : Nat}
    (found : w.awaiting[index]? = some batch) :
    ({ ({ w with awaiting := w.awaiting.eraseIdx index }.emit [.succeeded batch.items]).resolve
      batch clientSeq with inFlight } : Writer Key).Sound maxBatchBytes := by
  have taken := eraseIdx_perm found
  simp only [resolve, emit]
  have silent (f : Event Key → List QueuedItem)
      (same : ∀ item last, f (.resolved item clientSeq last) = []) :=
    (flatMap_resolved batch clientSeq f (fun _ => []) same).trans
      (List.flatMap_eq_nil_iff.2 fun _ _ => rfl)
  have sent := silent Event.sentItems fun _ _ => rfl
  have written := silent Event.writtenItems fun _ _ => rfl
  have rejected := silent Event.rejectedItems fun _ _ => rfl
  have succeeded := silent Event.succeededItems fun _ _ => rfl
  have failed := silent Event.failedItems fun _ _ => rfl
  have resolved := flatMap_resolved batch clientSeq Event.resolvedItems (fun item => [item])
    fun _ _ => rfl
  constructor
  · refine (h.justified.append (by simp [Proper])).append fun event mem later => ?_
    obtain ⟨position, bound, rfl⟩ := List.mem_mapIdx.1 mem
    exact ⟨batch.items, by simp, by simp⟩
  · simpa [sent] using h.numbered
  · simpa [sent, written] using h.ordered
  · have settled := h.settled
    simp only [logged, List.flatMap_append, sent, resolved, rejected, awaitedItems, queuedItems,
      Event.sentItems, Event.resolvedItems, Event.rejectedItems, List.flatMap_cons,
      List.flatMap_nil, List.flatMap_singleton', List.append_nil] at settled taken ⊢
    rw [List.perm_iff_count] at settled taken ⊢
    intro item
    have settled := settled item
    have taken := taken item
    simp only [List.count_append] at settled taken ⊢
    omega
  · have ended := h.ended
    simp only [logged, List.flatMap_append, written, succeeded, failed, awaitedItems,
      Event.writtenItems, Event.succeededItems, Event.failedItems, List.flatMap_cons,
      List.flatMap_nil, List.append_nil] at ended taken ⊢
    rw [List.perm_iff_count] at ended taken ⊢
    intro item
    have ended := ended item
    have taken := taken item
    simp only [List.count_append] at ended taken ⊢
    omega
  · simpa [resolved, succeeded] using h.resolved
  · intro other mem
    refine ((h.ready other mem).append (by simp)).append fun lost mem => ?_
    obtain ⟨position, bound, same⟩ := List.mem_mapIdx.1 mem
    cases same

theorem Sound.refused (h : w.Sound maxBatchBytes) (value : Text) (isSealed : Bool) :
    (({ w with sends := w.sends + 1, prepares }.emit
      [.sent ⟨w.sends, value⟩ none isSealed]).reject [⟨w.sends, value⟩] .unavailable).Sound
        maxBatchBytes := by
  simp only [Writer.reject, emit, List.map_cons, List.map_nil]
  constructor
  · exact (h.justified.append (by simp [Proper])).append (by simp [Proper])
  · have numbered := h.numbered
    simp only [logged] at numbered
    simp [numbered, List.range_succ]
  · simpa using
      h.ordered.trans (List.sublist_append_left _ _)
  · have settled := h.settled
    simp only [logged, List.flatMap_append, awaitedItems, queuedItems, Event.sentItems,
      Event.resolvedItems, Event.rejectedItems, List.flatMap_cons, List.flatMap_nil,
      List.append_nil] at settled ⊢
    rw [List.perm_iff_count] at settled ⊢
    intro item
    have settled := settled item
    simp only [List.count_append] at settled ⊢
    omega
  · simpa
      using h.ended
  · simpa using h.resolved
  · intro batch mem
    exact ((h.ready batch mem).append (by simp)).append (by simp)

section

variable [DecidableEq Key]

theorem enqueue_cases (maxBatchBytes : Nat) (key : Key) (item : QueuedItem) (isSealed : Bool)
    (queue : List (Batch Key)) :
    (∃ front tail, queue = front ++ [tail] ∧ tail.isSealed = false ∧ tail.key = key ∧
        tail.bytes + encodedBytes item.value ≤ maxBatchBytes ∧
        enqueue maxBatchBytes key item isSealed queue = front ++
          [⟨tail.key, tail.items ++ [item], tail.bytes + encodedBytes item.value, isSealed⟩]) ∨
      enqueue maxBatchBytes key item isSealed queue =
        queue ++ [⟨key, [item], encodedBytes item.value, isSealed⟩] := by
  rcases List.eq_nil_or_concat queue with rfl | ⟨front, tail, rfl⟩
  · exact .inr rfl
  · rw [List.concat_eq_append]
    by_cases joins : !tail.isSealed ∧ tail.key = key ∧
        tail.bytes + encodedBytes item.value ≤ maxBatchBytes
    · refine .inl ⟨front, tail, rfl, by simpa using joins.1, joins.2.1, joins.2.2, ?_⟩
      simp [enqueue, joins.1, joins.2]
    · refine .inr ?_
      simp only [enqueue, List.getLast?_append_cons, List.getLast?_singleton, if_neg joins]

theorem enqueue_items (key : Key) (item : QueuedItem) (isSealed : Bool) (queue : List (Batch Key)) :
    (enqueue maxBatchBytes key item isSealed queue).flatMap Batch.items =
      queue.flatMap Batch.items ++ [item] := by
  rcases enqueue_cases maxBatchBytes key item isSealed queue with
    ⟨front, tail, rfl, -, -, -, joined⟩ | added
  · simp [joined]
  · simp [added]

theorem enqueue_ready {log : List (Event Key)} {queue : List (Batch Key)}
    (ready : ∀ batch ∈ queue, batch.Ready maxBatchBytes log) (key : Key) (item : QueuedItem)
    (isSealed : Bool) :
    ∀ batch ∈ enqueue maxBatchBytes key item isSealed queue,
      batch.Ready maxBatchBytes (log ++ [.sent item (some key) isSealed]) := by
  intro batch mem
  rcases enqueue_cases maxBatchBytes key item isSealed queue with
    ⟨front, tail, rfl, opened, rfl, fits, joined⟩ | added
  · rw [joined] at mem
    rcases List.mem_append.1 mem with mem | mem
    · exact (ready batch (List.mem_append_left _ mem)).append (by simp)
    · rw [List.mem_singleton.1 mem]
      exact (ready tail (by simp)).add opened item isSealed fits
  · rw [added] at mem
    rcases List.mem_append.1 mem with mem | mem
    · exact (ready batch mem).append (by simp)
    · rw [List.mem_singleton.1 mem]
      exact Batch.ready_singleton item isSealed

theorem Sound.queued (h : w.Sound maxBatchBytes) (key : Key) (value : Text) (isSealed : Bool)
    {prepares : Nat} :
    ({ w with
      sends := w.sends + 1, prepares
      queue := enqueue maxBatchBytes key ⟨w.sends, value⟩ isSealed w.queue
      log := w.log ++ [.sent ⟨w.sends, value⟩ (some key) isSealed] } : Writer Key).Sound
        maxBatchBytes := by
  constructor
  · exact h.justified.append (by simp [Proper])
  · have numbered := h.numbered
    simp only [logged] at numbered
    simp [numbered, List.range_succ]
  · have ordered := h.ordered.append (.refl [⟨w.sends, value⟩])
    simpa [enqueue_items] using ordered
  · have settled := h.settled.append_right [⟨w.sends, value⟩]
    simpa [enqueue_items] using settled
  · simpa
      using h.ended
  · simpa using h.resolved
  · exact enqueue_ready h.ready key ⟨w.sends, value⟩ isSealed

def Single (w : Writer Key) : Prop :=
  w.awaiting.length = w.inFlight.toNat

/-- Nothing is queued unless it waits for the write in flight. -/
structure Settled (maxBatchBytes : Nat) (w : Writer Key) : Prop extends Sound maxBatchBytes w where
  single : w.Single
  idle : w.inFlight = false → w.queue = []

variable {prepare : Nat → Option Key}

theorem pump_of_inFlight (h : w.inFlight = true) : w.pump prepare = w := by
  rw [pump, if_pos h]

theorem pump_of_queue (h : w.queue = []) : w.pump prepare = w := by
  rw [pump]
  split
  · rfl
  · split
    · rfl
    · simp_all

theorem Sound.pump (h : w.Sound maxBatchBytes) (single : w.Single) :
    (w.pump prepare).Settled maxBatchBytes := by
  cases flight : w.inFlight with
  | true =>
    rw [pump_of_inFlight flight]
    exact ⟨h, single, by simp [flight]⟩
  | false =>
    cases shape : w.queue with
    | nil =>
      rw [pump_of_queue shape]
      exact ⟨h, single, fun _ => shape⟩
    | cons batch queue =>
      have none : w.awaiting = [] := by simpa [Single, flight] using single
      rw [Writer.pump]
      simp only [flight, Bool.false_eq_true, if_false]
      split
      · simp_all
      · rename_i other others same
        obtain ⟨rfl, rfl⟩ : batch = other ∧ queue = others := by simpa [shape] using same
        split
        · rename_i current
          rw [current]
          exact ⟨h.wrote shape, by simp [Single, emit, none], by simp [emit]⟩
        · rw [pump_of_queue rfl]
          exact ⟨h.fenceChanged shape, by simp [Single, abandon, Writer.rejectQueued,
            Writer.reject, emit, none], fun _ => rfl⟩

theorem Settled.send (h : w.Settled maxBatchBytes) (value : Text) (isSealed : Bool) :
    (w.send prepare maxBatchBytes value isSealed).Settled maxBatchBytes := by
  rw [Writer.send]
  cases captured : prepare w.prepares with
  | none => exact ⟨h.refused value isSealed, h.single, h.idle⟩
  | some key => exact (h.queued key value isSealed).pump h.single

omit [DecidableEq Key] in
theorem Single.eraseIdx (h : w.Single) {index : Nat} {batch : Batch Key}
    (found : w.awaiting[index]? = some batch) : w.awaiting.eraseIdx index = [] := by
  obtain ⟨bound, -⟩ := List.getElem?_eq_some_iff.1 found
  have most : w.awaiting.length ≤ 1 := by
    rw [h]
    exact Bool.toNat_le _
  apply List.eq_nil_of_length_eq_zero
  rw [List.length_eraseIdx_of_lt bound]
  omega

theorem Settled.succeed (h : w.Settled maxBatchBytes) (index clientSeq : Nat) :
    (w.succeed prepare index clientSeq).Settled maxBatchBytes := by
  rw [Writer.succeed]
  cases found : w.awaiting[index]? with
  | none => exact h
  | some batch => exact (h.succeeded found).pump (by simp [Single, resolve, emit,
      h.single.eraseIdx found])

theorem Settled.fail (h : w.Settled maxBatchBytes) (index : Nat) :
    (w.fail prepare index).Settled maxBatchBytes := by
  rw [Writer.fail]
  cases found : w.awaiting[index]? with
  | none => exact h
  | some batch => exact (h.failed found).pump (by simp [Single, abandon, Writer.rejectQueued,
      Writer.reject, emit, h.single.eraseIdx found])

theorem Settled.step (h : w.Settled maxBatchBytes) (call : Call) :
    (w.step prepare maxBatchBytes call).Settled maxBatchBytes := by
  cases call with
  | send value isSealed => exact h.send value isSealed
  | succeed index clientSeq => exact h.succeed index clientSeq
  | fail index => exact h.fail index
  | discardQueued => exact ⟨h.rejectQueued, h.single, fun _ => rfl⟩

theorem settled_run (prepare : Nat → Option Key) (maxBatchBytes : Option Nat) (calls : List Call) :
    (run prepare maxBatchBytes calls).Settled
      (maxBatchBytes.getD coalescedInputMaxBytes) := by
  induction calls using List.reverseRecOn with
  | nil => exact ⟨sound_start, rfl, fun _ => rfl⟩
  | append_singleton calls call ih =>
    rw [run, List.foldl_append]
    exact ih.step call

/-- What a writer owes to its user, in terms of all that it has taken in and done. -/
structure Faithful (maxBatchBytes : Nat) (w : Writer Key) : Prop where
  oneInFlight : w.awaiting.length ≤ 1
  proper : Justified (Proper maxBatchBytes) w.log
  sentOnce : (w.logged Event.sentItems).Nodup
  inOrder : (w.logged Event.writtenItems).Sublist (w.logged Event.sentItems)
  resolved : w.logged Event.resolvedItems = w.logged Event.succeededItems
  ended : (w.logged Event.writtenItems).Perm
    (w.logged Event.succeededItems ++ (w.logged Event.failedItems ++ w.awaitedItems))
  settled : (w.logged Event.sentItems).Perm (w.logged Event.resolvedItems ++
    (w.logged Event.rejectedItems ++ (w.awaitedItems ++ w.queuedItems)))
  idle : w.awaiting = [] → w.queue = []

/-- Whatever is sent, however the fence moves, and whenever the writes end. -/
theorem run_faithful (prepare : Nat → Option Key) (maxBatchBytes : Option Nat) (calls : List Call) :
    (run prepare maxBatchBytes calls).Faithful (maxBatchBytes.getD coalescedInputMaxBytes) := by
  have h := settled_run prepare maxBatchBytes calls
  constructor
  · rw [h.single]
    exact Bool.toNat_le _
  · exact h.justified
  · apply List.Nodup.of_map QueuedItem.send
    rw [h.numbered]
    exact List.nodup_range
  · exact (List.sublist_append_left _ _).trans h.ordered
  · exact h.resolved
  · exact h.ended
  · exact h.settled
  · intro none
    apply h.idle
    have single := h.single
    rw [Single, none] at single
    exact Bool.toNat_eq_zero.1 single.symm

end

end Writer

end NoriShell.Terminal

import Pyroscope.Etw.EventsManager

/-!
# A message is handled with its own bytes

The handler checks the size of the user data against the bytes read; what it logs beside the events
file is not checked.
-/

namespace Pyroscope.Etw

open ClrEvents Reading.Ensures List Option

namespace EtwEventsManager

variable {manager : EtwEventsManager} {platform : Platform} {fuel : Nat}

theorem attachCallstack_ensures (enough : 2 ^ 32 ≤ fuel) (data : EventData) :
    (attachCallstack platform fuel data).Ensures data.cbEventData fun _ => True := by
  have shorter : data.cbEventData % 2 ^ 16 ≤ data.cbEventData := Nat.mod_le _ _
  have isUShort : data.cbEventData % 2 ^ 16 < 2 ^ 16 := Nat.mod_lt _ (by decide)
  have pointer := HeapSnapshotManager.sizeofPointer_pos platform
  simp only [attachCallstack]
  generalize data.cbEventData % 2 ^ 16 = userDataLength at *
  split
  case isTrue => exact .pure trivial
  case isFalse large =>
    have header : stackWalkHeaderSize + platform.sizeofPointer ≤ userDataLength :=
      Nat.le_of_not_lt fun small => large (.inr small)
    simp only [stackWalkHeaderSize] at header
    apply (word platform.order data.memory (by omega)).bind
    intro frameCount _
    split
    case isTrue => exact .pure trivial
    case isFalse bounded =>
      have fits := (Nat.le_div_iff_mul_le pointer).mp (Nat.le_of_not_gt bounded)
      simp only [stackWalkHeaderSize] at fits
      have few : frameCount ≤ frameCount * platform.sizeofPointer :=
        Nat.le_mul_of_pos_right frameCount pointer
      apply forLoop (fun _ _ => True) (by omega) (fun _ _ => trivial)
      · intro i stack before _
        have inside : (i + 1) * platform.sizeofPointer ≤ frameCount * platform.sizeofPointer :=
          Nat.mul_le_mul_right _ before
        rw [Nat.add_mul, Nat.mul_comm i] at inside
        apply (word platform.order data.memory (by
          simp only [stackWalkHeaderSize]
          omega)).bind
        exact fun _ _ => .pure trivial
      · omega
      · omega
      · trivial

theorem callstackOr_ensures (enough : 2 ^ 32 ≤ fuel) (fakeIP : Nat) (data : EventData) :
    (manager.callstackOr platform fuel fakeIP data).Ensures data.cbEventData fun _ => True := by
  unfold callstackOr
  split
  · exact attachCallstack_ensures enough data
  · exact .pure trivial

variable {event : EtwEvent}

theorem onStackWalk_ensures (enough : 2 ^ 32 ≤ fuel) (threads : ThreadsInfo) :
    (manager.onStackWalk platform fuel event threads).Ensures event.data.cbEventData
      fun _ => True := by
  simp only [onStackWalk]
  split
  · apply (callstackOr_ensures enough fakeLockContentionIP event.data).bind
    exact fun _ _ => .pure trivial
  · split
    · apply (callstackOr_ensures enough fakeAllocationIP event.data).bind
      exact fun _ _ => .pure trivial
    · exact .pure trivial
  · exact .pure trivial

theorem onAllocationTick_ensures (enough : 2 ^ 32 ≤ fuel) (threads : ThreadsInfo) :
    (manager.onAllocationTick platform fuel event threads).Ensures event.data.cbEventData
      fun _ => True := by
  have isULong : event.data.cbEventData < 2 ^ 32 := event.data.isULong
  have counted : event.data.cbEventData < fuel := by omega
  unfold onAllocationTick
  split
  case isTrue => exact .pure trivial
  case isFalse large =>
    have fixed : 18 + platform.sizeofPointer ≤ event.data.cbEventData := Nat.le_of_not_gt large
    apply (readWideString_ensures _ counted).bind
    rintro (_ | ⟨typeName, after⟩) terminated
    · exact .pure trivial
    · apply (word platform.order event.data.memory (by omega)).bind
      intro allocationKind _
      apply (word platform.order event.data.memory (by omega)).bind
      intro allocationAmount64 _
      apply (wideString_ensures (terminated _ rfl) counted).bind
      exact fun _ _ => .pure trivial

theorem onEvent_ensures (enough : 2 ^ 32 ≤ fuel) (threads : ThreadsInfo) :
    (manager.onEvent platform fuel event threads).Ensures event.data.cbEventData fun _ => True := by
  unfold onEvent
  split
  · exact onStackWalk_ensures enough threads
  · split
    · exact .pure trivial
    · split
      · split
        · split
          · exact (onAllocationTick_ensures enough threads).map fun _ _ => trivial
          · exact .pure trivial
        · apply ((ClrEventsParser.parseEvent_exactly enough .empty).ensures ?_).map
          · exact fun _ _ => trivial
          · -- without a heap dump listener no element is counted by the event
            exact fun _ listened => absurd listened (by simp [parser])
      · exact .pure trivial

end EtwEventsManager

theorem cbEventData_userData (memory : Nat → UInt8) (start : Nat) (length : UInt16) :
    (userData memory start length).cbEventData = length.toNat := by
  simp [EventData.cbEventData, userData]

/-- The header of a message is in its last part, and starts with the magic. -/
def HasHeader (memory : Nat → UInt8) (readSize : Nat) : Prop :=
  sizeofIpcHeader ≤ readSize ∧ (range' 0 ddIpcMagicV1.length).map memory = ddIpcMagicV1

namespace EtwEventsHandler

variable {handler : EtwEventsHandler} {fuel : Nat} {memory : Nat → UInt8}
variable {readSize bound : Nat}

theorem isMessageValid_ensures (upTo : readSize ≤ bound) :
    (isMessageValid memory readSize).Ensures bound (· = true ↔ HasHeader memory readSize) := by
  unfold isMessageValid
  split
  case isTrue short =>
    apply Reading.Ensures.pure
    simp [HasHeader, Nat.not_le_of_gt short]
  case isFalse long =>
    have header : 17 ≤ readSize := Nat.le_of_not_gt long
    have magic : 0 + ddIpcMagicV1.length ≤ bound := Nat.le_trans (by decide) (header.trans upTo)
    apply (Reading.Ensures.bytes memory magic).bind
    rintro magic rfl
    apply Reading.Ensures.pure
    simp [HasHeader, Nat.le_of_not_gt long]

theorem writeEventsFile_exactly (header : sizeofIpcHeader ≤ readSize) (upTo : readSize ≤ bound) :
    (handler.writeEventsFile memory readSize).Exactly bound (clrEventsHeaderSize ≤ bound) := by
  have fits : 17 ≤ readSize := header
  apply Reading.Exactly.after (bytes memory (by omega))
  intro _ _
  apply Reading.Exactly.after (word _ memory (by omega))
  intro _ _
  refine ⟨⟨(), rfl⟩, ?_⟩
  rw [Reading.within_bind, Reading.within_word]
  simp [clrEventsHeaderSize]

theorem onClrEvents_ensures (enough : 2 ^ 32 ≤ fuel) (upTo : readSize ≤ bound)
    (threads : ThreadsInfo) :
    (handler.onClrEvents fuel memory readSize threads).Ensures bound fun _ => True := by
  simp only [onClrEvents]
  split
  case isTrue => exact .pure trivial
  case isFalse large =>
    have whole : 99 ≤ readSize := Nat.le_of_not_gt large
    have inHeader {offset size : Nat} (inside : offset + size ≤ 99) :
        Reading.Ensures bound (Reading.word handler.platform.order memory offset size)
          fun _ => True :=
      (word _ memory (by omega)).weaken fun _ _ => trivial
    iterate 7
      apply (inHeader (by decide)).bind
      intro _ _
    split
    case isTrue => exact .pure trivial
    case isFalse bounded =>
      have inMessage : clrEventsHeaderSize + _ ≤ readSize :=
        Nat.add_le_of_le_sub' whole (Nat.le_of_not_gt bounded)
      cases handler.receiver with
      | none => exact .pure trivial
      | some manager =>
        refine ((EtwEventsManager.onEvent_ensures enough threads).shift.widen ?_).map
          fun _ _ => trivial
        rw [cbEventData_userData]
        exact Nat.le_trans inMessage upTo

theorem onCommand_ensures (enough : 2 ^ 32 ≤ fuel) (header : sizeofIpcHeader ≤ readSize)
    (upTo : readSize ≤ bound) (threads : ThreadsInfo) :
    (handler.onCommand fuel memory readSize threads).Ensures bound fun _ => True := by
  have fits : 17 ≤ readSize := header
  apply (word _ memory (by omega)).bind
  intro commandId _
  split
  · exact .pure trivial
  · split
    · exact onClrEvents_ensures enough upTo threads
    · exact .pure trivial

theorem onMessage_exactly (enough : 2 ^ 32 ≤ fuel) (memory : Nat → UInt8) (upTo : readSize ≤ bound)
    (hasEventsFile : Bool) (threads : ThreadsInfo) :
    (handler.onMessage fuel memory readSize hasEventsFile threads).Exactly bound
      (hasEventsFile = true → HasHeader memory readSize → clrEventsHeaderSize ≤ bound) := by
  apply Reading.Exactly.after (isMessageValid_ensures upTo)
  intro isValid valid
  have returned (outcome : Outcome) : Reading.Ensures bound (pure outcome) fun _ => True :=
    .pure trivial
  cases isValid with
  | false =>
    have headless : ¬HasHeader memory readSize := by
      intro hasHeader
      cases valid.mpr hasHeader
    exact .of_ensures (returned _) fun _ hasHeader => absurd hasHeader headless
  | true =>
    have hasHeader := valid.mp rfl
    cases hasEventsFile with
    | false =>
      apply Reading.Exactly.of_ensures (onCommand_ensures enough hasHeader.1 upTo threads)
      intro absent
      cases absent
    | true =>
      apply ((writeEventsFile_exactly hasHeader.1 upTo).bind _).congr
      · simp [hasHeader]
      · exact fun _ => onCommand_ensures enough hasHeader.1 upTo threads

end EtwEventsHandler

/-- Every byte used for a message is in the buffer and was received for this very message. -/
def Handled.Contained (handled : Handled) : Prop :=
  ∀ index ∈ handled.used, index < bufferSize ∧ handled.message[index]? = some (handled.memory index)

namespace Connection

section Condition

variable (connection : Connection)

/-- A message which is complete with this read and has a valid header is long enough for the
length field of a CLR event, or there is no events file. -/
def LogFits : PipeEvent → Prop
  | .cleanup => True
  | .readFile result =>
    connection.hasEventsFile = true → result.success = true →
      sizeofIpcHeader ≤ result.bytes.length →
      (connection.received ++ result.bytes).take ddIpcMagicV1.length = ddIpcMagicV1 →
        clrEventsHeaderSize ≤ (connection.received ++ result.bytes).length

/-- The bytes which were received stand at the front of the buffer. -/
structure Buffered : Prop where
  fits : connection.received.length ≤ bufferSize
  holds : ∀ index < connection.received.length,
    connection.received[index]? = some (connection.buffer index)

end Condition

variable {handler : EtwEventsHandler} {fuel : Nat} {connection after : Connection}
  {event : PipeEvent}

theorem getElem?_store (buffered : connection.Buffered) (bytes : List UInt8) {index : Nat}
    (inside : index < (connection.received ++ bytes).length) :
    (connection.received ++ bytes)[index]? =
      some (store connection.buffer connection.received.length bytes index) := by
  unfold store
  split
  case isTrue earlier =>
    rw [getElem?_append_left earlier]
    exact buffered.holds index earlier
  case isFalse later =>
    have behind := Nat.le_of_not_lt later
    have inBytes : index - connection.received.length < bytes.length := by
      rw [length_append] at inside
      omega
    simp [getElem?_append_right behind, inBytes]

theorem hasHeader_store (buffered : connection.Buffered) (bytes : List UInt8) :
    HasHeader (store connection.buffer connection.received.length bytes) bytes.length ↔
      sizeofIpcHeader ≤ bytes.length ∧
        (connection.received ++ bytes).take ddIpcMagicV1.length = ddIpcMagicV1 := by
  apply and_congr_right
  intro header
  have magic : ddIpcMagicV1.length ≤ (connection.received ++ bytes).length := by
    rw [length_append]
    exact Nat.le_trans (Nat.le_trans (by decide) header) (Nat.le_add_left _ _)
  have same : (range' 0 ddIpcMagicV1.length).map
      (store connection.buffer connection.received.length bytes) =
        (connection.received ++ bytes).take ddIpcMagicV1.length := by
    apply ext_getElem?
    intro index
    by_cases inMagic : index < ddIpcMagicV1.length
    · rw [getElem?_take_of_lt inMagic,
        getElem?_store buffered bytes (Nat.lt_of_lt_of_le inMagic magic)]
      simp [inMagic]
    · have behind := Nat.le_of_not_lt inMagic
      rw [getElem?_eq_none (by simpa using behind),
        getElem?_eq_none (by simp only [length_take]; omega)]
  rw [same]

theorem next_cases (taken : connection.next handler fuel event = some after) :
    (event = .cleanup ∧ after = { connection with hasEventsFile := false, stopRequested := true }) ∨
    ∃ result, event = .readFile result ∧ connection.CanRead result ∧
      connection.onRead handler fuel result = some after := by
  cases event with
  | cleanup =>
    simp only [next, some.injEq] at taken
    exact .inl ⟨rfl, taken.symm⟩
  | readFile result =>
    simp only [next] at taken
    split at taken
    case isTrue canRead => exact .inr ⟨result, rfl, canRead, taken⟩
    case isFalse => cases taken

section Reads

variable {result : ReadResult}

section

variable (buffered : connection.Buffered) (canRead : connection.CanRead result)
include buffered canRead

theorem message_fits : (connection.received ++ result.bytes).length ≤ bufferSize := by
  have fits := buffered.fits
  have asked := canRead.2
  rw [length_append]
  omega

theorem contained_iff (used : List Nat) :
    Handled.Contained ⟨connection.received ++ result.bytes,
        store connection.buffer connection.received.length result.bytes, used⟩ ↔
      ∀ index ∈ used, index < (connection.received ++ result.bytes).length := by
  constructor
  · intro contained index isUsed
    exact (List.getElem?_eq_some_iff.mp (contained index isUsed).2).1
  · intro inside index isUsed
    refine ⟨?_, getElem?_store buffered result.bytes (inside index isUsed)⟩
    exact Nat.lt_of_lt_of_le (inside index isUsed) (message_fits buffered canRead)

theorem onPart_buffered :
    ({ connection with
        buffer := store connection.buffer connection.received.length result.bytes }.onPart
      (connection.received ++ result.bytes) result.lastError).Buffered := by
  unfold onPart
  split
  · exact ⟨message_fits buffered canRead, fun index inside =>
      getElem?_store buffered result.bytes inside⟩
  · refine ⟨buffered.fits, ?_⟩
    intro index inside
    simp only [store, if_pos inside]
    exact buffered.holds index inside

end

theorem handled_onPart (message : List UInt8) (lastError : Nat) :
    (connection.onPart message lastError).handled = connection.handled := by
  unfold onPart
  split <;> rfl

theorem onRead_contained (enough : 2 ^ 32 ≤ fuel) (buffered : connection.Buffered)
    (canRead : connection.CanRead result)
    (taken : connection.onRead handler fuel result = some after) :
    after.Buffered ∧
      ((∀ handled ∈ after.handled, handled.Contained) ↔
        (∀ handled ∈ connection.handled, handled.Contained) ∧
          connection.LogFits (.readFile result)) := by
  simp only [onRead] at taken
  split at taken
  case isTrue noMessage =>
    cases taken
    refine ⟨onPart_buffered buffered canRead, ?_⟩
    rw [handled_onPart, iff_self_and]
    intro _ _ succeeded header
    rcases noMessage with failed | empty
    · simp [failed] at succeeded
    · simp [empty, sizeofIpcHeader] at header
  case isFalse isMessage =>
    rcases map_eq_some_iff.mp taken with ⟨outcome, -, rfl⟩
    refine ⟨⟨Nat.zero_le _, fun index inside => absurd inside (Nat.not_lt_zero index)⟩, ?_⟩
    have succeeded : result.success = true := by
      cases success : result.success with
      | false => exact absurd (.inl success) isMessage
      | true => rfl
    have lastPart : result.bytes.length ≤ (connection.received ++ result.bytes).length := by
      rw [length_append]
      exact Nat.le_add_left _ _
    have exactly := handler.onMessage_exactly enough
      (store connection.buffer connection.received.length result.bytes) lastPart
      connection.hasEventsFile connection.threads
    simp only [afterMessage, forall_mem_append, forall_mem_singleton,
      contained_iff buffered canRead]
    apply and_congr_right
    intro _
    rw [← Reading.Within, exactly.2, hasHeader_store buffered]
    simp only [LogFits, succeeded, true_implies, and_imp]

end Reads

theorem next_contained (enough : 2 ^ 32 ≤ fuel) (buffered : connection.Buffered)
    (taken : connection.next handler fuel event = some after) :
    after.Buffered ∧
      ((∀ handled ∈ after.handled, handled.Contained) ↔
        (∀ handled ∈ connection.handled, handled.Contained) ∧ connection.LogFits event) := by
  rcases next_cases taken with ⟨rfl, rfl⟩ | ⟨result, rfl, canRead, read⟩
  · exact ⟨⟨buffered.fits, buffered.holds⟩, by simp [LogFits]⟩
  · exact onRead_contained enough buffered canRead read

theorem noFile_next (noFile : connection.hasEventsFile = false)
    (taken : connection.next handler fuel event = some after) : after.hasEventsFile = false := by
  rcases next_cases taken with ⟨rfl, rfl⟩ | ⟨result, rfl, canRead, read⟩
  · rfl
  · simp only [onRead] at read
    split at read
    · cases read
      unfold onPart
      split <;> exact noFile
    · rcases map_eq_some_iff.mp read with ⟨outcome, -, rfl⟩
      exact noFile

end Connection

/-- The bytes used for each message are bytes received for this message, in exactly those runs
in which no message with a valid header is too short for the log of the events file. -/
theorem messages_use_own_bytes_iff (handler : EtwEventsHandler) {fuel : Nat}
    (enough : 2 ^ 32 ≤ fuel) (hasEventsFile : Bool) (threads : ThreadsInfo)
    {events : List PipeEvent} {connection : Connection}
    (run : (pipeSystem handler fuel hasEventsFile threads).Run
      (.opened hasEventsFile threads) events connection) :
    (∀ handled ∈ connection.handled, handled.Contained) ↔
      ((pipeSystem handler fuel hasEventsFile threads).restrict Connection.LogFits).Run
        (.opened hasEventsFile threads) events connection := by
  apply Transition.System.Run.restrict_iff Connection.Buffered
    (fun connection => ∀ handled ∈ connection.handled, handled.Contained) _ _ _ run
  · exact ⟨Nat.zero_le _, fun index inside => absurd inside (Nat.not_lt_zero index)⟩
  · intro handled isHandled
    cases isHandled
  · intro state event after buffered taken
    exact Connection.next_contained enough buffered taken

/-- The manager opens its handler without an events file, and then each message is handled with
its own bytes. -/
theorem own_bytes_without_eventsFile (handler : EtwEventsHandler) {fuel : Nat}
    (enough : 2 ^ 32 ≤ fuel) (threads : ThreadsInfo) {events : List PipeEvent}
    {connection : Connection}
    (run : (pipeSystem handler fuel false threads).Run (.opened false threads) events connection) :
    ∀ handled ∈ connection.handled, handled.Contained := by
  have kept : connection.hasEventsFile = false ∧
      ((pipeSystem handler fuel false threads).restrict Connection.LogFits).Run
        (.opened false threads) events connection := by
    refine run.history_invariant (fun events connection => connection.hasEventsFile = false ∧
      ((pipeSystem handler fuel false threads).restrict Connection.LogFits).Run
        (.opened false threads) events connection) ⟨rfl, .nil _⟩ ?_
    rintro events state event after ⟨noFile, fits⟩ taken
    refine ⟨Connection.noFile_next noFile taken, .snoc fits ⟨?_, taken⟩⟩
    cases event with
    | cleanup => trivial
    | readFile result =>
      intro hasFile
      rw [noFile] at hasFile
      cases hasFile
  exact (messages_use_own_bytes_iff handler enough false threads run).mpr kept.2

section Instances

def quietHandler : EtwEventsHandler := ⟨none, ⟨.bits64, .littleEndian⟩⟩

def isAlive (rest : List UInt8) : ReadResult :=
  ⟨true, ddIpcMagicV1 ++ [17, 0, 17] ++ rest, 0⟩

end Instances

theorem short_message_uses_own_bytes : ∃ connection,
    (pipeSystem quietHandler (2 ^ 32) false fun _ => none).Run (.opened false fun _ => none)
      [.readFile (isAlive (replicate 82 7)), .readFile (isAlive [])] connection ∧
    connection.handled.length = 2 ∧ ∀ handled ∈ connection.handled, handled.Contained :=
  Transition.System.exists_run_of_exec rfl fun run =>
    ⟨rfl, own_bytes_without_eventsFile quietHandler (Nat.le_refl _) _ run⟩

end Pyroscope.Etw

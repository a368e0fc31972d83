import Pyroscope.ClrEvents.HeapDump

/-!
# `ClrEventsParser`

Every read through `EventsParserHelper` stays in the payload; the elements of the bulk events do if
their count fits its size.
-/

namespace Pyroscope.ClrEvents

abbrev Nanoseconds := Int

structure GCStartPayload where
  count : Nat
  depth : Nat
  reason : Nat
  type : Nat
  deriving DecidableEq

structure GCEndPayload where
  count : Nat
  depth : Nat
  deriving DecidableEq

structure GCGlobalHeapPayload where
  globalMechanisms : Nat
  memPressure : Nat
  deriving DecidableEq

/-- An `AllocationTickV4Payload`; its type name is where the name starts in the payload. -/
structure AllocationTickV4Payload where
  allocationAmount : Nat
  allocationKind : Nat
  clrInstanceId : Nat
  allocationAmount64 : Nat
  typeId : Nat
  typeName : Nat
  heapIndex : Nat
  address : Nat
  objectSize : Nat
  deriving DecidableEq

structure AllocationSampledPayload where
  allocationKind : Nat
  clrInstanceId : Nat
  typeId : Nat
  typeName : Nat
  address : Nat
  objectSize : Nat
  sampledByteOffset : Nat
  deriving DecidableEq

inductive Notice where
  | onAllocation (payload : AllocationTickV4Payload)
  | onAllocationSampled (payload : AllocationSampledPayload)
  /-- With the eight bytes of the double `DurationNs`. -/
  | onContention (durationNs : Nat)
  | setBlockingThread (osThreadId : Nat)
  | onWaitStart (timestamp : Nanoseconds) (associatedObjectId : Nat)
  | onWaitStop (timestamp : Nanoseconds)
  | onGCTriggered
  | onGCStart (timestamp : Nanoseconds) (payload : GCStartPayload)
  | onGCEnd (payload : GCEndPayload)
  | onGCSuspendEEBegin (timestamp : Nanoseconds)
  | onGCRestartEEEnd (timestamp : Nanoseconds)
  | onGCHeapStats (timestamp : Nanoseconds) (gen2Size lohSize pohSize : Nat)
  | onGCGlobalHeapHistory (timestamp : Nanoseconds) (payload : GCGlobalHeapPayload)
  deriving DecidableEq

structure ClrEventsParser where
  hasAllocationListener : Bool
  hasContentionListener : Bool
  gcDumpListener : Option HeapSnapshotManager
  allocationEnabled : Bool
  contentionEnabled : Bool
  skipReferenceChain : Bool
  skipGcLifecycleEvents : Bool

structure Event where
  timestamp : Nanoseconds
  version : Nat
  keywords : UInt64
  id : Nat
  data : EventData

section Constants

def keywordGC : UInt64 := 0x1

def keywordContention : UInt64 := 0x4000

def keywordGCHeapDump : UInt64 := 0x100000

def keywordWaitHandle : UInt64 := 0x40000000000

def keywordAllocationSampling : UInt64 := 0x80000000000

def eventGCStart : Nat := 1

def eventGCEnd : Nat := 2

def eventGCRestartEEEnd : Nat := 3

def eventGCHeapStat : Nat := 4

def eventGCSuspendEEBegin : Nat := 9

def eventAllocationTick : Nat := 10

def eventGCBulkRootEdge : Nat := 16

def eventGCBulkNode : Nat := 18

def eventGCBulkEdge : Nat := 19

def eventGCTriggered : Nat := 35

def eventGCBulkRootStaticVar : Nat := 38

def eventContentionStart : Nat := 81

def eventContentionStop : Nat := 91

def eventGCGlobalHeapHistory : Nat := 205

def eventWaitHandleStart : Nat := 301

def eventWaitHandleStop : Nat := 302

def eventAllocationSampled : Nat := 303

def sizeofGCBulkPayload : Nat := 4 + 4 + 2

def sizeofGCBulkRootStaticVarPayload : Nat := 4 + 8 + 2

def sizeofGCHeapStatsV1Payload : Nat := 10 * 8 + 3 * 4 + 2

def sizeofGCHeapStatsV2Payload : Nat := sizeofGCHeapStatsV1Payload + 2 * 8

def sizeofGCGlobalHeapPayload : Nat := 8 + 5 * 4 + 2 + 4 + 4

end Constants

def hasKeyword (keywords keyword : UInt64) : Bool := keyword == keywords &&& keyword

namespace ClrEventsParser

variable (parser : ClrEventsParser) (platform : Platform) (fuel : Nat) (event : Event)

def parseAllocationEvent : Reading (Option AllocationTickV4Payload) :=
  let readInteger := readInteger platform event.data
  (readInteger 4 0).andThen fun (allocationAmount, offset) =>
  (readInteger 4 offset).andThen fun (allocationKind, offset) =>
  (readInteger 2 offset).andThen fun (clrInstanceId, offset) =>
  (readInteger 8 offset).andThen fun (allocationAmount64, offset) =>
  (readInteger platform.sizeofPointer offset).andThen fun (typeId, offset) =>
  (readWideString platform event.data fuel offset).andThen fun (typeName, offset) =>
  (readInteger 4 offset).andThen fun (heapIndex, offset) =>
  (readInteger platform.sizeofPointer offset).andThen fun (address, offset) =>
  (readInteger 8 offset).andThen fun (objectSize, _) =>
    pure (some ⟨allocationAmount, allocationKind, clrInstanceId, allocationAmount64, typeId,
      typeName, heapIndex, address, objectSize⟩)

def parseAllocationSampled : Reading (Option AllocationSampledPayload) :=
  let readInteger := readInteger platform event.data
  (readInteger 4 0).andThen fun (allocationKind, offset) =>
  (readInteger 2 offset).andThen fun (clrInstanceId, offset) =>
  (readInteger platform.sizeofPointer offset).andThen fun (typeId, offset) =>
  (readWideString platform event.data fuel offset).andThen fun (typeName, offset) =>
  (readInteger platform.sizeofPointer offset).andThen fun (address, offset) =>
  (readInteger 8 offset).andThen fun (objectSize, offset) =>
  (readInteger 8 offset).andThen fun (sampledByteOffset, _) =>
    pure (some ⟨allocationKind, clrInstanceId, typeId, typeName, address, objectSize,
      sampledByteOffset⟩)

/-- The notice of a payload of one fixed size, unless the event is too short for it. -/
def noticeOf (size : Nat) (notice : (Nat → Nat → Nat) → Notice) : Reading (List Notice) :=
  read event.data size 0 >>= fun found =>
    pure (found.map fun (bytes, _) => notice (fieldAt platform bytes)).toList

/-- Each entry is followed by a name of its own length. The loop is left at the first entry which is
not in the payload. -/
def parseRootStaticVars (listener : HeapSnapshotManager) (count offset : Nat)
    (snapshot : HeapSnapshot) : Reading (Nat × HeapSnapshot) :=
  Reading.forLoop (2 ^ 32) count
    (fun _ (offset, snapshot) =>
      ((read event.data sizeofGCBulkRootStaticVarValue offset).andThen fun (bytes, offset) =>
        (readWideString platform event.data fuel offset).andThen fun (fieldName, offset) =>
          pure (some (bytes, fieldName, offset))) >>= fun
        | none => pure (.done (offset, snapshot))
        | some (bytes, fieldName, offset) =>
          let field := fieldAt platform bytes
          listener.onBulkRootStaticVar platform event.data fuel
            ⟨field 0 8, field 8 8, field 16 8, field 24 4⟩ fieldName snapshot >>= fun snapshot =>
            pure (.yield (offset, snapshot)))
    fuel 0 (offset, snapshot)

def readBulkPayload : Reading (Option (Nat × Nat)) :=
  (read event.data sizeofGCBulkPayload 0).andThen fun (bytes, offset) =>
    pure (some (fieldAt platform bytes 4 4, offset))

variable (snapshot : HeapSnapshot)

/-- The parser returns at once if the header is not in the payload or the roots are not wanted. -/
def parseGcDumpEvent : Reading (Option HeapSnapshot) :=
  if event.id = eventGCBulkNode then
    match parser.gcDumpListener with
    | none => pure (some snapshot)
    | some listener =>
      (readBulkPayload platform event).andThen fun (count, nodes) =>
        some <$> listener.onBulkNodes platform event.data fuel count nodes snapshot
  else if event.id = eventGCBulkEdge then
    match parser.gcDumpListener with
    | none => pure (some snapshot)
    | some _ =>
      (readBulkPayload platform event).andThen fun (count, edges) =>
        some <$> HeapSnapshotManager.onBulkEdges count edges snapshot
  else if event.id = eventGCBulkRootEdge then
    if parser.skipReferenceChain then pure none
    else
      match parser.gcDumpListener with
      | none => pure (some snapshot)
      | some listener =>
        (readBulkPayload platform event).andThen fun (count, roots) =>
          some <$> listener.onBulkRootEdges platform event.data fuel count roots snapshot
  else if event.id = eventGCBulkRootStaticVar then
    if parser.skipReferenceChain then pure none
    else
      match parser.gcDumpListener with
      | none => pure (some snapshot)
      | some listener =>
        (read event.data sizeofGCBulkRootStaticVarPayload 0).andThen fun (bytes, offset) =>
          (some ∘ Prod.snd) <$>
            parseRootStaticVars platform fuel event listener (fieldAt platform bytes 0 4) offset
              snapshot
  else
    pure (some snapshot)

def parseGcLifecycleEvent : Reading (List Notice) :=
  let timestamp := event.timestamp
  let noticeOf := noticeOf platform event
  if event.id = eventGCTriggered then
    pure [.onGCTriggered]
  else if event.id = eventGCStart then
    noticeOf (4 * 4) fun field =>
      .onGCStart timestamp ⟨field 0 4, field 4 4, field 8 4, field 12 4⟩
  else if event.id = eventGCEnd then
    noticeOf (2 * 4) fun field => .onGCEnd ⟨field 0 4, field 4 4⟩
  else if event.id = eventGCSuspendEEBegin then
    pure [.onGCSuspendEEBegin timestamp]
  else if event.id = eventGCRestartEEEnd then
    pure [.onGCRestartEEEnd timestamp]
  else if event.id = eventGCHeapStat then
    if event.version = 1 then
      noticeOf sizeofGCHeapStatsV1Payload fun field =>
        .onGCHeapStats timestamp (field 32 8) (field 48 8) 0
    else if event.version = 2 then
      noticeOf sizeofGCHeapStatsV2Payload fun field =>
        .onGCHeapStats timestamp (field 32 8) (field 48 8) (field sizeofGCHeapStatsV1Payload 8)
    else
      pure [.onGCHeapStats timestamp 0 0 0]
  else if event.id = eventGCGlobalHeapHistory then
    noticeOf sizeofGCGlobalHeapPayload fun field =>
      .onGCGlobalHeapHistory timestamp ⟨field 24 4, field 34 4⟩
  else
    pure []

def parseGcEvent : Reading (List Notice × HeapSnapshot) :=
  if event.id = eventAllocationTick ∧ event.version = 4 then
    if !parser.hasAllocationListener || !parser.allocationEnabled then
      pure ([], snapshot)
    else
      parseAllocationEvent platform fuel event >>= fun payload =>
        pure ((payload.map .onAllocation).toList, snapshot)
  else
    parseGcDumpEvent parser platform fuel event snapshot >>= fun
      | none => pure ([], snapshot)
      | some snapshot =>
        if parser.skipGcLifecycleEvents then pure ([], snapshot)
        else
          parseGcLifecycleEvent platform event >>= fun notices => pure (notices, snapshot)

def parseContentionEvent : Reading (List Notice) :=
  let pointer := platform.sizeofPointer
  if !parser.hasContentionListener || !parser.contentionEnabled then
    pure []
  else if event.id = eventContentionStop ∧ event.version ≥ 1 then
    noticeOf platform event (1 + 2 + 8) fun field => .onContention (field 3 8)
  else if event.id = eventContentionStart ∧ event.version ≥ 2 then
    noticeOf platform event (1 + 2 + pointer + pointer + 8) fun field =>
      .setBlockingThread (field (3 + 2 * pointer) 8)
  else
    pure []

def parseWaitHandleEvent : Reading (List Notice) :=
  let pointer := platform.sizeofPointer
  if !parser.hasContentionListener then
    pure []
  else if event.id = eventWaitHandleStart then
    noticeOf platform event (1 + pointer + 2) fun field =>
      .onWaitStart event.timestamp (field 1 pointer)
  else if event.id = eventWaitHandleStop then
    noticeOf platform event 2 fun _ => .onWaitStop event.timestamp
  else
    pure []

def parseAllocationSampledEvent : Reading (List Notice) :=
  if !parser.hasAllocationListener then
    pure []
  else if event.id = eventAllocationSampled then
    parseAllocationSampled platform fuel event >>= fun payload =>
      pure (payload.map .onAllocationSampled).toList
  else
    pure []

def parseEvent : Reading (List Notice × HeapSnapshot) :=
  let unchanged notices := (notices, snapshot)
  if hasKeyword event.keywords keywordGC || hasKeyword event.keywords keywordGCHeapDump then
    parseGcEvent parser platform fuel event snapshot
  else if hasKeyword event.keywords keywordContention then
    unchanged <$> parseContentionEvent parser platform event
  else if hasKeyword event.keywords keywordWaitHandle then
    unchanged <$> parseWaitHandleEvent parser platform event
  else if hasKeyword event.keywords keywordAllocationSampling then
    unchanged <$> parseAllocationSampledEvent parser platform fuel event
  else
    pure (unchanged [])

end ClrEventsParser

/-! ## Which bytes of a payload are read -/

open List

namespace EventData

variable {data : EventData}

theorem map_memory {size : Nat} (fits : size ≤ data.cbEventData) :
    (range' 0 size).map data.memory = data.payload.take size := by
  apply ext_getElem
  · simp only [length_map, length_range', length_take]
    exact (Nat.min_eq_left fits).symm
  · intro index inRange inTake
    have inside : index < data.payload.length := by
      simp only [length_take] at inTake
      omega
    simp [memory, getD, inside]

end EventData

theorem fieldAt_take (platform : Platform) (bytes : List UInt8) {length offset size : Nat}
    (inside : offset + size ≤ length) :
    fieldAt platform (bytes.take length) offset size = fieldAt platform bytes offset size := by
  simp only [fieldAt, drop_take, take_take]
  rw [Nat.min_eq_left (by omega)]

theorem fieldAt_lt (platform : Platform) (bytes : List UInt8) (offset size : Nat) :
    fieldAt platform bytes offset size < 256 ^ size := by
  apply Nat.lt_of_lt_of_le (NativeWord.ofBytes_lt _ _)
  exact Nat.pow_le_pow_right (by decide) (length_take_le _ _)

namespace ClrEventsParser

section Condition

variable (parser : ClrEventsParser) (platform : Platform) (event : Event)

def IsGcEvent : Prop :=
  hasKeyword event.keywords keywordGC || hasKeyword event.keywords keywordGCHeapDump

def countField : Nat := fieldAt platform event.data.payload 4 4

/-- What the listener reads of `Count` bulk elements fits into the payload. -/
def BulkCountFits : Prop :=
  parser.gcDumpListener.isSome → sizeofGCBulkPayload ≤ event.data.cbEventData →
    (event.id = eventGCBulkNode →
      ElementsFit sizeofGCBulkPayload (sizeofGCBulkNodeValue platform)
        (platform.sizeofPointer + 16) (countField platform event) event.data.cbEventData) ∧
    (event.id = eventGCBulkRootEdge → parser.skipReferenceChain = false →
      ElementsFit sizeofGCBulkPayload (sizeofGCBulkRootEdgeValue platform)
        (platform.sizeofPointer + 5) (countField platform event) event.data.cbEventData)

def CountFits : Prop := IsGcEvent event → BulkCountFits parser platform event

end Condition

variable {parser : ClrEventsParser} {platform : Platform} {fuel : Nat} {event : Event}

section Checked

/-- The parser reads inside the event only. -/
abbrev Safe (event : Event) {α : Type} (reading : Reading α) : Prop :=
  reading.Ensures event.data.cbEventData fun _ => True

theorem noticeOf_safe (size : Nat) (notice : (Nat → Nat → Nat) → Notice) :
    Safe event (noticeOf platform event size notice) := by
  apply (read_safe size 0).bind
  exact fun _ _ => .pure trivial

theorem readWideString_safe (offset : Nat) (enough : event.data.cbEventData < fuel) :
    Safe event (readWideString platform event.data fuel offset) :=
  (readWideString_ensures offset enough).weaken fun _ _ => trivial

theorem parseAllocationEvent_safe (enough : event.data.cbEventData < fuel) :
    Safe event (parseAllocationEvent platform fuel event) := by
  iterate 5
    apply (readInteger_safe _ _).followedBy
    rintro ⟨_, offset⟩
  apply (readWideString_safe _ enough).followedBy
  rintro ⟨_, offset⟩
  iterate 3
    apply (readInteger_safe _ _).followedBy
    rintro ⟨_, offset⟩
  exact .pure trivial

theorem parseAllocationSampled_safe (enough : event.data.cbEventData < fuel) :
    Safe event (parseAllocationSampled platform fuel event) := by
  iterate 3
    apply (readInteger_safe _ _).followedBy
    rintro ⟨_, offset⟩
  apply (readWideString_safe _ enough).followedBy
  rintro ⟨_, offset⟩
  iterate 3
    apply (readInteger_safe _ _).followedBy
    rintro ⟨_, offset⟩
  exact .pure trivial

theorem parseGcLifecycleEvent_safe : Safe event (parseGcLifecycleEvent platform event) := by
  unfold parseGcLifecycleEvent
  repeat' split
  all_goals first | exact .pure trivial | exact noticeOf_safe _ _

theorem parseContentionEvent_safe : Safe event (parser.parseContentionEvent platform event) := by
  unfold parseContentionEvent
  repeat' split
  all_goals first | exact .pure trivial | exact noticeOf_safe _ _

theorem parseWaitHandleEvent_safe : Safe event (parser.parseWaitHandleEvent platform event) := by
  unfold parseWaitHandleEvent
  repeat' split
  all_goals first | exact .pure trivial | exact noticeOf_safe _ _

theorem parseAllocationSampledEvent_safe (enough : event.data.cbEventData < fuel) :
    Safe event (parser.parseAllocationSampledEvent platform fuel event) := by
  unfold parseAllocationSampledEvent
  split
  · exact .pure trivial
  · split
    · apply (parseAllocationSampled_safe enough).bind
      exact fun _ _ => .pure trivial
    · exact .pure trivial

end Checked

section Bulk

theorem readBulkPayload_ensures :
    (readBulkPayload platform event).Ensures event.data.cbEventData fun found =>
      found = if sizeofGCBulkPayload ≤ event.data.cbEventData then
        some (countField platform event, sizeofGCBulkPayload) else none := by
  apply (read_ensures sizeofGCBulkPayload 0).bind
  rintro found rfl
  simp only [Nat.zero_add]
  split
  case isTrue fits =>
    rw [EventData.map_memory fits]
    apply Reading.Ensures.pure
    simp only [countField, fieldAt_take platform event.data.payload
      (show 4 + 4 ≤ sizeofGCBulkPayload by decide)]
  case isFalse => exact .pure rfl

theorem bulk_exactly {handler : Nat × Nat → Reading (Option HeapSnapshot)} {condition : Prop}
    (handled : (handler (countField platform event, sizeofGCBulkPayload)).Exactly
      event.data.cbEventData condition) :
    ((readBulkPayload platform event).andThen handler).Exactly event.data.cbEventData
      (sizeofGCBulkPayload ≤ event.data.cbEventData → condition) := by
  apply Reading.Exactly.after readBulkPayload_ensures
  rintro found rfl
  split
  case isTrue fits =>
    simp only [fits, true_implies]
    exact handled
  case isFalse short =>
    have returned : Safe event (pure none : Reading (Option HeapSnapshot)) := .pure trivial
    exact .of_ensures returned fun fits => absurd fits short

theorem parseRootStaticVars_safe (enough : event.data.cbEventData < fuel) {count : Nat}
    (isUInt32 : count < 2 ^ 32) (counted : count < fuel) (listener : HeapSnapshotManager)
    (offset : Nat) (snapshot : HeapSnapshot) :
    Safe event (parseRootStaticVars platform fuel event listener count offset snapshot) := by
  apply Reading.Ensures.forLoop (fun _ _ => True) isUInt32 (fun _ _ => trivial)
  · rintro i ⟨offset, snapshot⟩ before -
    apply Reading.Ensures.bind (?entry : Reading.Ensures event.data.cbEventData _
      fun found => ∀ result, found = some result → Terminated platform event.data result.2.1)
    · rintro (_ | ⟨bytes, fieldName, offset⟩) terminated
      · exact .pure trivial
      · apply (listener.onBulkRootStaticVar_ensures (terminated _ rfl) enough _ _).bind
        exact fun _ _ => .pure trivial
    case entry =>
      apply Reading.Ensures.andThen (fun _ => True) _ (by simp)
      · rintro ⟨bytes, offset⟩ -
        apply (readWideString_ensures offset enough).andThen
          (fun text => Terminated platform event.data text.1) (by simp)
        rintro ⟨fieldName, offset⟩ terminated
        apply Reading.Ensures.pure
        rintro result same
        cases same
        exact terminated
      · exact (read_safe _ _).weaken fun _ _ _ _ => trivial
  · exact Nat.zero_le count
  · exact counted
  · trivial

end Bulk

section Events

theorem countField_lt : countField platform event < 2 ^ 32 :=
  Nat.lt_of_lt_of_le (fieldAt_lt platform _ 4 4) (by decide)

theorem parseGcDumpEvent_exactly (enough : 2 ^ 32 ≤ fuel) (snapshot : HeapSnapshot) :
    (parser.parseGcDumpEvent platform fuel event snapshot).Exactly event.data.cbEventData
      (parser.BulkCountFits platform event) := by
  have isULong : event.data.cbEventData < 2 ^ 32 := event.data.isULong
  have counted : countField platform event < fuel := Nat.lt_of_lt_of_le countField_lt enough
  have returned (result : Option HeapSnapshot) : Safe event (pure result) := .pure trivial
  unfold parseGcDumpEvent
  split
  case isTrue isNode =>
    cases listener : parser.gcDumpListener with
    | none => exact .of_ensures (returned _) (by simp [BulkCountFits, listener])
    | some manager =>
      apply (bulk_exactly (manager.onBulkNodes_reads countField_lt counted snapshot).map).congr
      simp [BulkCountFits, listener, isNode, eventGCBulkNode, eventGCBulkRootEdge]
  case isFalse isNoNode =>
  split
  case isTrue isEdge =>
    have unread : parser.BulkCountFits platform event := by
      simp [BulkCountFits, isEdge, eventGCBulkNode, eventGCBulkRootEdge, eventGCBulkEdge]
    cases parser.gcDumpListener with
    | none => exact .of_ensures (returned _) unread
    | some manager =>
      apply Reading.Exactly.of_ensures _ unread
      apply Reading.Ensures.followedBy (readBulkPayload_ensures.weaken fun _ _ => trivial)
      exact fun _ => .pure trivial
  case isFalse isNoEdge =>
  split
  case isTrue isRootEdge =>
    split
    case isTrue skipped =>
      exact .of_ensures (returned _) (by
        simp [BulkCountFits, isRootEdge, skipped, eventGCBulkNode, eventGCBulkRootEdge])
    case isFalse wanted =>
      cases listener : parser.gcDumpListener with
      | none => exact .of_ensures (returned _) (by simp [BulkCountFits, listener])
      | some manager =>
        apply (bulk_exactly
          (manager.onBulkRootEdges_reads countField_lt counted snapshot).map).congr
        simp [BulkCountFits, listener, isRootEdge, wanted, eventGCBulkNode, eventGCBulkRootEdge]
  case isFalse isNoRootEdge =>
  have uncounted : parser.BulkCountFits platform event := by
    simp [BulkCountFits, isNoNode, isNoRootEdge]
  apply Reading.Exactly.of_ensures _ uncounted
  repeat' split
  case _ => exact returned _
  case _ => exact returned _
  case _ manager _ =>
    apply (read_safe _ _).followedBy
    rintro ⟨bytes, offset⟩
    apply (parseRootStaticVars_safe (by omega) _ _ manager offset snapshot).map
    · exact fun _ _ => trivial
    · exact Nat.lt_of_lt_of_le (fieldAt_lt platform bytes 0 4) (by decide)
    · exact Nat.lt_of_lt_of_le (fieldAt_lt platform bytes 0 4) (by omega)
  case _ => exact returned _

theorem parseGcEvent_exactly (enough : 2 ^ 32 ≤ fuel) (snapshot : HeapSnapshot) :
    (parser.parseGcEvent platform fuel event snapshot).Exactly event.data.cbEventData
      (parser.BulkCountFits platform event) := by
  have isULong : event.data.cbEventData < 2 ^ 32 := event.data.isULong
  unfold parseGcEvent
  split
  case isTrue isTick =>
    have uncounted : parser.BulkCountFits platform event := by
      simp [BulkCountFits, isTick.1, eventAllocationTick, eventGCBulkNode, eventGCBulkRootEdge]
    apply Reading.Exactly.of_ensures _ uncounted
    split
    · exact .pure trivial
    · apply (parseAllocationEvent_safe (by omega)).bind
      exact fun _ _ => .pure trivial
  case isFalse =>
    apply (parseGcDumpEvent_exactly enough snapshot).bind
    rintro (_ | snapshot)
    · exact .pure trivial
    · dsimp only
      split
      · exact .pure trivial
      · apply parseGcLifecycleEvent_safe.bind
        exact fun _ _ => .pure trivial

theorem parseEvent_exactly (enough : 2 ^ 32 ≤ fuel) (snapshot : HeapSnapshot) :
    (parser.parseEvent platform fuel event snapshot).Exactly event.data.cbEventData
      (parser.CountFits platform event) := by
  have isULong : event.data.cbEventData < 2 ^ 32 := event.data.isULong
  unfold parseEvent
  split
  case isTrue isGc =>
    apply (parseGcEvent_exactly enough snapshot).congr
    simp [CountFits, IsGcEvent, isGc]
  case isFalse isNoGc =>
    have uncounted : parser.CountFits platform event := fun isGc => absurd isGc isNoGc
    apply Reading.Exactly.of_ensures _ uncounted
    split
    · exact parseContentionEvent_safe.map fun _ _ => trivial
    · split
      · exact parseWaitHandleEvent_safe.map fun _ _ => trivial
      · split
        · exact (parseAllocationSampledEvent_safe (by omega)).map fun _ _ => trivial
        · exact .pure trivial

end Events

/-- Parsing an event finishes, whatever its payload, and reads only bytes of the payload
exactly if the count of a bulk event fits it. -/
theorem event_read_within_payload_iff (parser : ClrEventsParser) (platform : Platform)
    (event : Event) (snapshot : HeapSnapshot) {fuel : Nat} (enough : 2 ^ 32 ≤ fuel) :
    (∃ result, (parser.parseEvent platform fuel event snapshot).value = some result) ∧
      ((∀ index ∈ (parser.parseEvent platform fuel event snapshot).indices,
          index < event.data.cbEventData) ↔
        parser.CountFits platform event) :=
  parseEvent_exactly enough snapshot

section Instances

def x64 : Platform := ⟨.bits64, .littleEndian⟩

def dumpingParser : ClrEventsParser where
  hasAllocationListener := false
  hasContentionListener := false
  gcDumpListener := some
    { getTypeName := fun _ => none
      getClassFromObject := fun _ => none
      getObjectSize2 := fun _ => none
      isDebugEnabled := false
      referenceChainTraverser := none }
  allocationEnabled := true
  contentionEnabled := true
  skipReferenceChain := false
  skipGcLifecycleEvents := false

/-- The header of a bulk node event with a count of one, and no more than `elements` bytes
behind it. -/
def oneNode (elements : Fin 100) : Event where
  timestamp := 0
  version := 0
  keywords := keywordGCHeapDump
  id := eventGCBulkNode
  data :=
    { payload := [0, 0, 0, 0, 1, 0, 0, 0, 0, 0] ++ replicate elements 0
      beyond := fun _ => 0
      isULong := by
        have := elements.isLt
        simp only [length_append, length_replicate, length_cons, length_nil]
        omega }

end Instances

theorem whole_node_read_within_payload :
    (∃ result, (dumpingParser.parseEvent x64 (2 ^ 32) (oneNode 32) .empty).value = some result) ∧
    ∀ index ∈ (dumpingParser.parseEvent x64 (2 ^ 32) (oneNode 32) .empty).indices,
      index < (oneNode 32).data.cbEventData := by
  have read := event_read_within_payload_iff dumpingParser x64 (oneNode 32) .empty
    (Nat.le_refl (2 ^ 32))
  refine ⟨read.1, read.2.mpr ?_⟩
  intro _ _ _
  exact ⟨fun _ => by decide, fun isRootEdge => absurd isRootEdge (by decide)⟩

/-- A node is read behind the end of a payload which is only a header. -/
theorem missing_node_read_past_payload :
    (oneNode 0).data.cbEventData = 10 ∧
      18 ∈ (dumpingParser.parseEvent x64 (2 ^ 32) (oneNode 0) .empty).indices := by
  decide

end ClrEventsParser

end Pyroscope.ClrEvents

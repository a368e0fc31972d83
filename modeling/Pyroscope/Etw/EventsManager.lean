import Pyroscope.ClrEvents.Parser
import Pyroscope.Lib.Transition

/-!
# `EtwEventsManager` and `EtwEventsHandler`

The handler reads messages from a named pipe into one buffer. The manager remembers the last event
of each thread, since a call stack follows as an event of its own.
-/

namespace Pyroscope.Etw

open ClrEvents

inductive EventId where
  | unknown
  | contentionStart
  | allocationTick
  deriving DecidableEq

/-- Times are in units of 100 ns, as in the events. -/
abbrev EtwTimestamp := Int

structure ThreadInfo where
  lastEventId : EventId
  contentionCallStack : List Nat
  contentionStartTimestamp : EtwTimestamp
  allocationCallStack : List Nat
  allocationTickTimestamp : Nanoseconds
  allocationKind : Nat
  allocationClassId : Nat
  allocatedType : List Nat
  allocationAmount : Nat
  deriving DecidableEq

def ThreadInfo.new : ThreadInfo where
  lastEventId := .unknown
  contentionCallStack := []
  contentionStartTimestamp := 0
  allocationCallStack := []
  allocationTickTimestamp := 0
  allocationKind := 0
  allocationClassId := 0
  allocatedType := []
  allocationAmount := 0

abbrev ThreadsInfo := Nat → Option ThreadInfo

inductive EtwNotice where
  | onContention (timestamp : Nanoseconds) (tid : Nat) (duration : Nanoseconds)
      (callStack : List Nat)
  | onAllocation (timestamp : Nanoseconds) (tid allocationKind classId : Nat)
      (allocatedType : List Nat) (allocationAmount : Nat) (callStack : List Nat)
  | parsed (notice : Notice)
  deriving DecidableEq

structure EtwEvent where
  systemTimestamp : EtwTimestamp
  tid : Nat
  version : Nat
  keyword : UInt64
  level : Nat
  id : Nat
  data : EventData

structure EtwEventsManager where
  hasAllocationListener : Bool
  hasContentionListener : Bool
  /-- Whether `_agentReplayEndpoint` is empty. -/
  isLive : Bool
  skipReferenceChain : Bool
  skipGcLifecycleEvents : Bool
  /-- The conversion to epoch time, which asks the system for its time zone. -/
  timestampToEpochNs : EtwTimestamp → Nanoseconds

def keywordStackWalk : UInt64 := 0x40000000

def fakeLockContentionIP : Nat := 1

def fakeAllocationIP : Nat := 2

def fixedFieldsSize (platform : Platform) : Nat := 4 + 4 + 2 + 8 + platform.sizeofPointer

def stackWalkHeaderSize : Nat := 2 + 1 + 1 + 4

def sizeofStackWalkPayload (platform : Platform) : Nat :=
  stackWalkHeaderSize + platform.sizeofPointer

namespace EtwEventsManager

variable (manager : EtwEventsManager) (platform : Platform) (fuel : Nat)

def parser : ClrEventsParser where
  hasAllocationListener := false
  hasContentionListener := false
  gcDumpListener := none
  allocationEnabled := true
  contentionEnabled := true
  skipReferenceChain := manager.skipReferenceChain
  skipGcLifecycleEvents := manager.skipGcLifecycleEvents

/-- `AttachCallstack`, which is given the length of the user data as a word of 16 bits. -/
def attachCallstack (data : EventData) : Reading (List Nat) :=
  let field offset size := Reading.word platform.order data.memory offset size
  let userDataLength := data.cbEventData % 2 ^ 16
  if userDataLength = 0 ∨ userDataLength < sizeofStackWalkPayload platform then
    pure []
  else
    field 4 4 >>= fun frameCount =>
      if frameCount > (userDataLength - stackWalkHeaderSize) / platform.sizeofPointer then
        pure []
      else
        Reading.forLoop (2 ^ 32) frameCount
          (fun i stack =>
            field (stackWalkHeaderSize + platform.sizeofPointer * i) platform.sizeofPointer >>=
              fun frame => pure (.yield (stack ++ [frame])))
          fuel 0 []

/-- The call stack of an event, which is one fake frame while events are replayed. -/
def callstackOr (fakeIP : Nat) (data : EventData) : Reading (List Nat) :=
  if manager.isLive then attachCallstack platform fuel data else pure [fakeIP]

def attachContentionCallstack : EventData → Reading (List Nat) :=
  callstackOr manager platform fuel fakeLockContentionIP

def attachAllocationCallstack : EventData → Reading (List Nat) :=
  callstackOr manager platform fuel fakeAllocationIP

def setInfo (threads : ThreadsInfo) (tid : Nat) (info : ThreadInfo) : ThreadsInfo :=
  Function.update threads tid (some info)

def getOrCreate (threads : ThreadsInfo) (tid : Nat) : ThreadInfo := (threads tid).getD .new

def onStackWalk (event : EtwEvent) (threads : ThreadsInfo) :
    Reading (List EtwNotice × ThreadsInfo) :=
  let info := getOrCreate threads event.tid
  let cleared (info : ThreadInfo) := setInfo threads event.tid { info with lastEventId := .unknown }
  match info.lastEventId with
  | .contentionStart =>
    attachContentionCallstack manager platform fuel event.data >>= fun callStack =>
      pure ([], cleared { info with contentionCallStack := callStack })
  | .allocationTick =>
    if manager.hasAllocationListener then
      attachAllocationCallstack manager platform fuel event.data >>= fun callStack =>
        pure
          ([.onAllocation info.allocationTickTimestamp event.tid info.allocationKind
              info.allocationClassId info.allocatedType info.allocationAmount callStack],
            cleared { info with allocationCallStack := callStack })
    else
      pure ([], cleared info)
  | .unknown => pure ([], cleared info)

def onContentionEvent (event : EtwEvent) (threads : ThreadsInfo) : List EtwNotice × ThreadsInfo :=
  if !manager.hasContentionListener then
    ([], threads)
  else if event.id = eventContentionStart then
    ([], setInfo threads event.tid
      { getOrCreate threads event.tid with
        contentionStartTimestamp := event.systemTimestamp
        lastEventId := .contentionStart })
  else if event.id = eventContentionStop then
    match threads event.tid with
    | none => ([], threads)
    | some info =>
      let cleared := { info with lastEventId := .unknown }
      if info.contentionStartTimestamp = 0 then
        ([], setInfo threads event.tid cleared)
      else
        ([.onContention (manager.timestampToEpochNs event.systemTimestamp) event.tid
            (100 * (event.systemTimestamp - info.contentionStartTimestamp))
            info.contentionCallStack],
          setInfo threads event.tid { cleared with contentionStartTimestamp := 0 })
  else
    ([], threads)

def onAllocationTick (event : EtwEvent) (threads : ThreadsInfo) : Reading ThreadsInfo :=
  let field offset size := Reading.word platform.order event.data.memory offset size
  let info := { getOrCreate threads event.tid with lastEventId := .allocationTick }
  let cleared := setInfo threads event.tid { info with lastEventId := .unknown }
  if event.data.cbEventData < fixedFieldsSize platform then
    pure cleared
  else
    readWideString platform event.data fuel (fixedFieldsSize platform) >>= fun
      | none => pure cleared
      | some (typeName, _) =>
        field 4 4 >>= fun allocationKind =>
        field 10 8 >>= fun allocationAmount64 =>
        wideString platform event.data fuel typeName >>= fun allocatedType =>
          pure (setInfo threads event.tid
            { info with
              allocationTickTimestamp := manager.timestampToEpochNs event.systemTimestamp
              allocationKind := allocationKind
              allocationClassId := 0
              allocationAmount := allocationAmount64
              allocatedType := allocatedType })

def onEvent (event : EtwEvent) (threads : ThreadsInfo) : Reading (List EtwNotice × ThreadsInfo) :=
  if event.keyword = keywordStackWalk then
    onStackWalk manager platform fuel event threads
  else if event.keyword = keywordContention then
    pure (onContentionEvent manager event threads)
  else if event.keyword = keywordGC then
    if event.id = eventAllocationTick then
      if manager.hasAllocationListener then
        ([], ·) <$> onAllocationTick manager platform fuel event threads
      else
        pure ([], threads)
    else
      (fun (notices, _) => (notices.map .parsed, threads)) <$>
        manager.parser.parseEvent platform fuel
          ⟨manager.timestampToEpochNs event.systemTimestamp, event.version, event.keyword, event.id,
            event.data⟩ .empty
  else
    pure ([], threads)

end EtwEventsManager

/-! ## `EtwEventsHandler` -/

/-- The characters of `DD_ETW_IPC_V1` and a final zero. -/
def ddIpcMagicV1 : List UInt8 :=
  [0x44, 0x44, 0x5f, 0x45, 0x54, 0x57, 0x5f, 0x49, 0x50, 0x43, 0x5f, 0x56, 0x31, 0x00]

def sizeofIpcHeader : Nat := 14 + 2 + 1

def sizeofEventHeader : Nat := 80

def clrEventsHeaderSize : Nat := sizeofIpcHeader + sizeofEventHeader + 2

def bufferSize : Nat := 2 ^ 16 + sizeofIpcHeader

def commandClrEvents : Nat := 16

def commandIsAlive : Nat := 17

def errorMoreData : Nat := 234

/-- What a call of `ReadFile` gives, with the error which `GetLastError` gives after it. -/
structure ReadResult where
  success : Bool
  bytes : List UInt8
  lastError : Nat
  deriving DecidableEq

inductive PipeEvent where
  | readFile (result : ReadResult)
  | cleanup
  deriving DecidableEq

structure Handled where
  message : List UInt8
  memory : Nat → UInt8
  used : List Nat

structure EtwEventsHandler where
  receiver : Option EtwEventsManager
  platform : Platform

structure Connection where
  buffer : Nat → UInt8
  received : List UInt8
  hasEventsFile : Bool
  stopRequested : Bool
  closed : Bool
  threads : ThreadsInfo
  notices : List EtwNotice
  handled : List Handled

structure Outcome where
  goesOn : Bool
  notices : List EtwNotice
  threads : ThreadsInfo

def signed64 (word : Nat) : Int := if word < 2 ^ 63 then word else word - 2 ^ 64

def userData (memory : Nat → UInt8) (start : Nat) (length : UInt16) : EventData where
  payload := (List.range' start length.toNat).map memory
  beyond index := memory (start + index)
  isULong := by
    have isUInt16 : length.toNat < 2 ^ 16 := length.toNat_lt
    simp only [List.length_map, List.length_range']
    omega

def store (buffer : Nat → UInt8) (start : Nat) (bytes : List UInt8) (index : Nat) : UInt8 :=
  if index < start then buffer index else bytes.getD (index - start) (buffer index)

namespace EtwEventsHandler

variable (handler : EtwEventsHandler) (fuel : Nat) (memory : Nat → UInt8) (readSize : Nat)

/-- The end of `ReadEvents`: the last part of the message must hold a header, and the message
must start with the magic. -/
def isMessageValid : Reading Bool :=
  if readSize < sizeofIpcHeader then
    pure false
  else
    Reading.bytes memory 0 ddIpcMagicV1.length >>= fun magic => pure (magic == ddIpcMagicV1)

def writeEventsFile : Reading Unit :=
  Reading.bytes memory 0 readSize >>= fun _ =>
  Reading.word handler.platform.order memory 14 2 >>= fun _ =>
  Reading.word handler.platform.order memory (sizeofIpcHeader + sizeofEventHeader) 2 >>= fun _ =>
    pure ()

def onClrEvents (threads : ThreadsInfo) : Reading Outcome :=
  let skipped : Outcome := ⟨true, [], threads⟩
  let field offset size := Reading.word handler.platform.order memory offset size
  let header offset size := field (sizeofIpcHeader + offset) size
  if readSize < clrEventsHeaderSize then
    pure skipped
  else
    header 8 4 >>= fun tid =>
    header 42 1 >>= fun version =>
    header 48 8 >>= fun keyword =>
    header 44 1 >>= fun level =>
    header 40 2 >>= fun id =>
    header 16 8 >>= fun timestamp =>
    field (sizeofIpcHeader + sizeofEventHeader) 2 >>= fun length =>
      let userDataLength := UInt16.ofNat length
      if userDataLength.toNat > readSize - clrEventsHeaderSize then
        pure skipped
      else
        match handler.receiver with
        | none => pure skipped
        | some manager =>
          let event : EtwEvent :=
            ⟨signed64 timestamp, tid, version, UInt64.ofNat keyword, level, id,
              userData memory clrEventsHeaderSize userDataLength⟩
          (fun (notices, threads) => ⟨true, notices, threads⟩) <$>
            (manager.onEvent handler.platform fuel event threads).shift clrEventsHeaderSize

def onCommand (threads : ThreadsInfo) : Reading Outcome :=
  Reading.word handler.platform.order memory 16 1 >>= fun commandId =>
    if commandId = commandIsAlive then pure ⟨true, [], threads⟩
    else if commandId = commandClrEvents then onClrEvents handler fuel memory readSize threads
    else pure ⟨false, [], threads⟩

/-- One round of `OnConnect`, from where `ReadEvents` looks at the last part of a message. -/
def onMessage (hasEventsFile : Bool) (threads : ThreadsInfo) : Reading Outcome :=
  isMessageValid memory readSize >>= fun isValid =>
    if !isValid then
      pure ⟨false, [], threads⟩
    else if hasEventsFile then
      writeEventsFile handler memory readSize >>= fun _ =>
        onCommand handler fuel memory readSize threads
    else
      onCommand handler fuel memory readSize threads

end EtwEventsHandler

namespace Connection

variable (handler : EtwEventsHandler) (fuel : Nat) (connection : Connection)

def opened (hasEventsFile : Bool) (threads : ThreadsInfo) : Connection where
  buffer := fun _ => 0
  received := []
  hasEventsFile := hasEventsFile
  stopRequested := false
  closed := false
  threads := threads
  notices := []
  handled := []

/-- The handler asks for the rest of the buffer, and gets no more than that. -/
def CanRead (result : ReadResult) : Prop :=
  connection.closed = false ∧ result.bytes.length ≤ bufferSize - connection.received.length

instance (result : ReadResult) : Decidable (connection.CanRead result) :=
  inferInstanceAs (Decidable (_ ∧ _))

/-- A read which failed or gave nothing: the message goes on only if there is more data and
room for it. -/
def onPart (message : List UInt8) (lastError : Nat) : Connection :=
  if lastError = errorMoreData ∧ message.length ≠ bufferSize then
    { connection with received := message }
  else
    { connection with closed := true }

def afterMessage (handled : Handled) (outcome : Outcome) : Connection :=
  { connection with
    received := []
    closed := !outcome.goesOn || connection.stopRequested
    threads := outcome.threads
    notices := connection.notices ++ outcome.notices
    handled := connection.handled ++ [handled] }

def onRead (result : ReadResult) : Option Connection :=
  let message := connection.received ++ result.bytes
  let memory := store connection.buffer connection.received.length result.bytes
  let stored := { connection with buffer := memory }
  if result.success = false ∨ result.bytes = [] then
    some (stored.onPart message result.lastError)
  else
    let reading := handler.onMessage fuel memory result.bytes.length connection.hasEventsFile
      connection.threads
    reading.value.map (stored.afterMessage ⟨message, memory, reading.indices⟩)

def next (event : PipeEvent) : Option Connection :=
  match event with
  | .cleanup => some { connection with hasEventsFile := false, stopRequested := true }
  | .readFile result =>
    if connection.CanRead result then onRead handler fuel connection result else none

end Connection

def pipeSystem (handler : EtwEventsHandler) (fuel : Nat) (hasEventsFile : Bool)
    (threads : ThreadsInfo) : Transition.System Connection PipeEvent :=
  .ofFunction (.opened hasEventsFile threads) (Connection.next handler fuel)

end Pyroscope.Etw

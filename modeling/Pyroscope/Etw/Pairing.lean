import Pyroscope.Etw.Containment

/-!
# Events of one thread

An allocation is notified with the tick right before its stack, a contention with the latest stack
of a contention.
-/

namespace Pyroscope.Etw

open ClrEvents ThreadInfo ClrEventsParser Option

structure Tick where
  timestamp : Nanoseconds
  allocationKind : Nat
  allocationAmount : Nat
  allocatedType : List Nat

/-- What an event means for its thread: the stacks of a stack walk, or the data of a tick unless it
is malformed. -/
inductive ThreadEvent where
  | stackWalk (contentionStack allocationStack : List Nat)
  | contentionStart (timestamp : EtwTimestamp)
  | contentionStop (timestamp : EtwTimestamp)
  | allocationTick (tick : Option Tick)

namespace EtwEventsManager

variable (manager : EtwEventsManager) (platform : Platform) (fuel : Nat)

def readTick (event : EtwEvent) : Reading (Option Tick) :=
  let field offset size := Reading.word platform.order event.data.memory offset size
  if event.data.cbEventData < fixedFieldsSize platform then
    pure none
  else
    readWideString platform event.data fuel (fixedFieldsSize platform) >>= fun
      | none => pure none
      | some (typeName, _) =>
        field 4 4 >>= fun allocationKind =>
        field 10 8 >>= fun allocationAmount64 =>
        wideString platform event.data fuel typeName >>= fun allocatedType =>
          pure (some ⟨manager.timestampToEpochNs event.systemTimestamp, allocationKind,
            allocationAmount64, allocatedType⟩)

def threadEvent (event : EtwEvent) : Option ThreadEvent :=
  if event.keyword = keywordStackWalk then
    some (.stackWalk ((manager.attachContentionCallstack platform fuel event.data).value.getD [])
      ((manager.attachAllocationCallstack platform fuel event.data).value.getD []))
  else if event.keyword = keywordContention then
    if event.id = eventContentionStart then some (.contentionStart event.systemTimestamp)
    else if event.id = eventContentionStop then some (.contentionStop event.systemTimestamp)
    else none
  else if event.keyword = keywordGC ∧ event.id = eventAllocationTick then
    some (.allocationTick ((manager.readTick platform fuel event).value.getD none))
  else none

end EtwEventsManager

namespace ThreadInfo

def next (info : ThreadInfo) : ThreadEvent → ThreadInfo
  | .stackWalk contentionStack allocationStack =>
    match info.lastEventId with
    | .contentionStart =>
      { info with contentionCallStack := contentionStack, lastEventId := .unknown }
    | .allocationTick =>
      { info with allocationCallStack := allocationStack, lastEventId := .unknown }
    | .unknown => { info with lastEventId := .unknown }
  | .contentionStart timestamp =>
    { info with contentionStartTimestamp := timestamp, lastEventId := .contentionStart }
  | .contentionStop _ => { info with contentionStartTimestamp := 0, lastEventId := .unknown }
  | .allocationTick none => { info with lastEventId := .unknown }
  | .allocationTick (some tick) =>
    { info with
      lastEventId := .allocationTick
      allocationTickTimestamp := tick.timestamp
      allocationKind := tick.allocationKind
      allocationClassId := 0
      allocationAmount := tick.allocationAmount
      allocatedType := tick.allocatedType }

def notices (manager : EtwEventsManager) (tid : Nat) (info : ThreadInfo) :
    ThreadEvent → List EtwNotice
  | .stackWalk _ allocationStack =>
    if info.lastEventId = .allocationTick then
      [.onAllocation info.allocationTickTimestamp tid info.allocationKind info.allocationClassId
        info.allocatedType info.allocationAmount allocationStack]
    else []
  | .contentionStop timestamp =>
    if info.contentionStartTimestamp = 0 then []
    else
      [.onContention (manager.timestampToEpochNs timestamp) tid
        (100 * (timestamp - info.contentionStartTimestamp)) info.contentionCallStack]
  | .contentionStart _ | .allocationTick _ => []

end ThreadInfo

namespace EtwEventsManager

variable {manager : EtwEventsManager} {platform : Platform} {fuel : Nat} {event : EtwEvent}
  {meaning : ThreadEvent}

theorem value_onAllocationTick (threads : ThreadsInfo) :
    (manager.onAllocationTick platform fuel event threads).value =
      (manager.readTick platform fuel event).value.map fun tick =>
        setInfo threads event.tid
          ((getOrCreate threads event.tid).next (.allocationTick tick)) := by
  unfold onAllocationTick readTick
  split
  · rfl
  · simp only [Reading.value_bind_eq, map_bind]
    congr 1
    funext found
    rcases found with _ | ⟨typeName, after⟩
    · rfl
    · simp only [Reading.value_bind_eq, map_bind, Reading.value_pure, Function.comp_def,
        map_some, next]

theorem getOrCreate_setInfo (threads : ThreadsInfo) (tid : Nat) (info : ThreadInfo) (other : Nat) :
    getOrCreate (setInfo threads tid info) other =
      if other = tid then info else getOrCreate threads other := by
  simp only [getOrCreate, setInfo, Function.update_apply]
  split <;> rfl

/-- The reading gives the notices of the event, and only changes what is known of its thread. -/
def Handles (manager : EtwEventsManager) (event : EtwEvent) (threads : ThreadsInfo)
    (meaning : ThreadEvent) (reading : Reading (List EtwNotice × ThreadsInfo)) : Prop :=
  ∃ after, reading.value =
      some ((getOrCreate threads event.tid).notices manager event.tid meaning, after) ∧
    ∀ tid, getOrCreate after tid =
      if tid = event.tid then (getOrCreate threads event.tid).next meaning
      else getOrCreate threads tid

theorem handles_setInfo {threads : ThreadsInfo} {reading : Reading (List EtwNotice × ThreadsInfo)}
    (isValue : reading.value =
      some ((getOrCreate threads event.tid).notices manager event.tid meaning,
        setInfo threads event.tid ((getOrCreate threads event.tid).next meaning))) :
    Handles manager event threads meaning reading :=
  ⟨_, isValue, getOrCreate_setInfo threads event.tid _⟩

theorem handles_onStackWalk (enough : 2 ^ 32 ≤ fuel)
    (allocates : manager.hasAllocationListener = true) (threads : ThreadsInfo) :
    Handles manager event threads
      (.stackWalk ((manager.attachContentionCallstack platform fuel event.data).value.getD [])
        ((manager.attachAllocationCallstack platform fuel event.data).value.getD []))
      (manager.onStackWalk platform fuel event threads) := by
  rcases @callstackOr_ensures manager platform fuel enough fakeLockContentionIP event.data with
    ⟨-, contentionStack, contended, -⟩
  rcases @callstackOr_ensures manager platform fuel enough fakeAllocationIP event.data with
    ⟨-, allocationStack, allocated, -⟩
  apply handles_setInfo
  simp only [onStackWalk, attachContentionCallstack, attachAllocationCallstack, contended,
    allocated, getD_some]
  cases last : (getOrCreate threads event.tid).lastEventId with
  | unknown => simp [notices, next, last]
  | contentionStart =>
    simp [notices, next, last, Reading.value_bind_eq, contended]
  | allocationTick =>
    simp [notices, next, last, Reading.value_bind_eq, allocated, allocates]

theorem handles_contentionStop (threads : ThreadsInfo) (isStop : event.id = eventContentionStop)
    (listens : manager.hasContentionListener = true) :
    Handles manager event threads (.contentionStop event.systemTimestamp)
      (pure (manager.onContentionEvent event threads)) := by
  have notStart : eventContentionStop ≠ eventContentionStart := by decide
  cases isKnown : threads event.tid with
  | none =>
    -- nothing is known of the thread, which stays so
    have isNew : getOrCreate threads event.tid = .new := by simp [getOrCreate, isKnown]
    refine ⟨threads, ?_, fun tid => ?_⟩
    · simp [onContentionEvent, listens, isStop, notStart, isKnown, isNew, notices,
        new]
    · split
      case isTrue same =>
        rw [same, isNew]
        rfl
      case isFalse => rfl
  | some info =>
    have isInfo : getOrCreate threads event.tid = info := by simp [getOrCreate, isKnown]
    apply handles_setInfo
    by_cases stopped : info.contentionStartTimestamp = 0 <;>
      simp [onContentionEvent, listens, isStop, notStart, isKnown, isInfo, notices, next, stopped]

theorem handles_onEvent (enough : 2 ^ 32 ≤ fuel) (listens : manager.hasContentionListener = true)
    (allocates : manager.hasAllocationListener = true)
    (isEvent : manager.threadEvent platform fuel event = some meaning) (threads : ThreadsInfo) :
    Handles manager event threads meaning (manager.onEvent platform fuel event threads) := by
  unfold threadEvent at isEvent
  unfold onEvent
  split at isEvent
  case isTrue isWalk =>
    cases isEvent
    rw [if_pos isWalk]
    exact handles_onStackWalk enough allocates threads
  case isFalse notWalk =>
    rw [if_neg notWalk]
    split at isEvent
    case isTrue isContention =>
      rw [if_pos isContention]
      split at isEvent
      case isTrue isStart =>
        cases isEvent
        apply handles_setInfo
        simp [onContentionEvent, listens, isStart, notices, next]
      case isFalse notStart =>
        rcases ite_none_right_eq_some.mp isEvent with ⟨isStop, ⟨⟩⟩
        exact handles_contentionStop threads isStop listens
    case isFalse notContention =>
      rcases ite_none_right_eq_some.mp isEvent with ⟨⟨isGC, isTick⟩, ⟨⟩⟩
      rw [if_neg notContention, if_pos isGC, if_pos isTick, if_pos allocates]
      rcases @onAllocationTick_ensures manager platform fuel event enough threads with
        ⟨-, result, got, -⟩
      rw [value_onAllocationTick] at got
      rcases map_eq_some_iff.mp got with ⟨tick, isRead, -⟩
      apply handles_setInfo
      rw [Reading.value_map, value_onAllocationTick, isRead]
      rfl

end EtwEventsManager

def EtwNotice.isAllocation : EtwNotice → Bool
  | .onAllocation .. => true
  | .onContention .. | .parsed _ => false

/-! ## The events of a thread, the newest first -/

namespace ThreadEvent

def lastStack : List ThreadEvent → List Nat
  | .stackWalk contentionStack _ :: .contentionStart _ :: _ => contentionStack
  | _ :: earlier => lastStack earlier
  | [] => []

def ownStack : List ThreadEvent → Option (List Nat)
  | .stackWalk contentionStack _ :: .contentionStart _ :: _ => some contentionStack
  | .contentionStart _ :: _ => none
  | _ :: earlier => ownStack earlier
  | [] => none

def lastStart : List ThreadEvent → Option EtwTimestamp
  | .contentionStart timestamp :: _ => some timestamp
  | _ :: earlier => lastStart earlier
  | [] => none

/-- An allocation is notified for a stack right behind a tick which is not malformed. -/
def allocations (tid : Nat) (earlier : List ThreadEvent) : ThreadEvent → List EtwNotice
  | .stackWalk _ allocationStack =>
    match earlier with
    | .allocationTick (some tick) :: _ =>
      [.onAllocation tick.timestamp tid tick.allocationKind 0 tick.allocatedType
        tick.allocationAmount allocationStack]
    | _ => []
  | _ => []

variable {events : List ThreadEvent}

theorem lastStack_stackWalk {contentionStack allocationStack : List Nat}
    (notStart : ∀ timestamp earlier, events ≠ .contentionStart timestamp :: earlier) :
    lastStack (.stackWalk contentionStack allocationStack :: events) = lastStack events := by
  rw [lastStack]
  intro _ _ timestamp earlier _ isStart
  exact notStart timestamp earlier isStart

theorem ownStack_eq_some {stack : List Nat} (own : ownStack events = some stack) :
    lastStack events = stack := by
  fun_induction ownStack events <;> simp_all [lastStack]

end ThreadEvent

open ThreadEvent

def ThreadInfo.after (events : List ThreadEvent) : ThreadInfo :=
  events.foldr (fun event info => info.next event) .new

/-- What is remembered of a thread is what its latest events told. -/
structure ThreadInfo.Knows (info : ThreadInfo) (events : List ThreadEvent) : Prop where
  stack : info.contentionCallStack = lastStack events
  start : info.contentionStartTimestamp ≠ 0 → lastStart events = some info.contentionStartTimestamp
  contention : info.lastEventId = .contentionStart ↔
    ∃ timestamp earlier, events = .contentionStart timestamp :: earlier
  allocation : info.lastEventId = .allocationTick ↔
    ∃ tick earlier, events = .allocationTick (some tick) :: earlier
  tick : ∀ tick earlier, events = .allocationTick (some tick) :: earlier →
    info.allocationTickTimestamp = tick.timestamp ∧ info.allocationKind = tick.allocationKind ∧
      info.allocationClassId = 0 ∧ info.allocatedType = tick.allocatedType ∧
      info.allocationAmount = tick.allocationAmount

namespace ThreadInfo

variable {info : ThreadInfo}

theorem Knows.next (knows : info.Knows events) (event : ThreadEvent) :
    (info.next event).Knows (event :: events) := by
  rcases knows with ⟨stack, start, contention, allocation, tick⟩
  cases event with
  | stackWalk contentionStack allocationStack =>
    cases last : info.lastEventId with
    | contentionStart =>
      rcases contention.mp last with ⟨timestamp, earlier, rfl⟩
      constructor <;> simp_all [ThreadInfo.next, lastStack, lastStart]
    | allocationTick =>
      rcases allocation.mp last with ⟨tick, earlier, rfl⟩
      constructor <;> simp_all [ThreadInfo.next, lastStack, lastStart]
    | unknown =>
      have skipped : lastStack (.stackWalk contentionStack allocationStack :: events) =
          lastStack events := by
        refine lastStack_stackWalk fun timestamp earlier isStart => ?_
        cases last.symm.trans (contention.mpr ⟨timestamp, earlier, isStart⟩)
      constructor <;> simp_all [ThreadInfo.next, lastStart]
  | contentionStart timestamp => constructor <;> simp_all [ThreadInfo.next, lastStack, lastStart]
  | contentionStop timestamp => constructor <;> simp_all [ThreadInfo.next, lastStack]
  | allocationTick tick =>
    cases tick with
    | none | some tick => constructor <;> simp_all [ThreadInfo.next, lastStack, lastStart]

theorem knows_after (events : List ThreadEvent) : (after events).Knows events := by
  induction events with
  | nil => constructor <;> simp [after, new, lastStack]
  | cons event events ih => exact ih.next event

/-- A contention is notified with the duration since its start, and with the last stack. -/
theorem Knows.onContention (knows : info.Knows events) {manager : EtwEventsManager}
    {tid otherTid : Nat} {event : ThreadEvent} {timestamp duration : Nanoseconds} {stack : List Nat}
    (notified : .onContention timestamp otherTid duration stack ∈ info.notices manager tid event) :
    ∃ stop start, event = .contentionStop stop ∧ lastStart events = some start ∧
      timestamp = manager.timestampToEpochNs stop ∧ otherTid = tid ∧
      duration = 100 * (stop - start) ∧ stack = lastStack events := by
  cases event with
  | contentionStop stop =>
    simp only [notices] at notified
    split at notified
    case isTrue => cases notified
    case isFalse started =>
      rcases List.mem_singleton.mp notified with ⟨⟩
      exact ⟨stop, _, rfl, knows.start started, rfl, rfl, rfl, knows.stack⟩
  | stackWalk contentionStack allocationStack =>
    simp only [notices] at notified
    split at notified <;> simp at notified
  | contentionStart start => cases notified
  | allocationTick tick => cases notified

theorem Knows.allocations (knows : info.Knows events) (manager : EtwEventsManager) (tid : Nat)
    (event : ThreadEvent) :
    (info.notices manager tid event).filter EtwNotice.isAllocation =
      ThreadEvent.allocations tid events event := by
  rcases knows with ⟨_, _, _, allocation, tick⟩
  cases event with
  | stackWalk contentionStack allocationStack =>
    simp only [notices, ThreadEvent.allocations]
    split
    case isTrue last =>
      rcases allocation.mp last with ⟨tick, earlier, rfl⟩
      simp_all [EtwNotice.isAllocation]
    case isFalse notLast =>
      split
      case h_1 => exact absurd (allocation.mpr ⟨_, _, rfl⟩) notLast
      case h_2 => rfl
  | contentionStop stop =>
    simp only [notices, ThreadEvent.allocations]
    split <;> rfl
  | contentionStart start => rfl
  | allocationTick tick => rfl

end ThreadInfo

namespace EtwEventsManager

variable (manager : EtwEventsManager) (platform : Platform) (fuel : Nat)

def receive : List EtwEvent → Option ThreadsInfo
  | [] => some fun _ => none
  | event :: earlier => (receive earlier).bind fun threads =>
    (manager.onEvent platform fuel event threads).value.map Prod.snd

def eventsOf (tid : Nat) (events : List EtwEvent) : List ThreadEvent :=
  events.filterMap fun event =>
    if event.tid = tid then manager.threadEvent platform fuel event else none

variable {manager platform fuel}

theorem receive_knows (enough : 2 ^ 32 ≤ fuel) (listens : manager.hasContentionListener = true)
    (allocates : manager.hasAllocationListener = true) {events : List EtwEvent}
    (paired : ∀ event ∈ events, (manager.threadEvent platform fuel event).isSome) :
    ∃ threads, manager.receive platform fuel events = some threads ∧
      ∀ tid, (getOrCreate threads tid).Knows (manager.eventsOf platform fuel tid events) := by
  induction events with
  | nil => exact ⟨fun _ => none, rfl, fun tid => knows_after []⟩
  | cons event earlier ih =>
    rcases List.forall_mem_cons.mp paired with ⟨isPaired, pairedEarlier⟩
    rcases ih pairedEarlier with ⟨threads, received, knows⟩
    rcases isSome_iff_exists.mp isPaired with ⟨meaning, isEvent⟩
    rcases handles_onEvent enough listens allocates isEvent threads with ⟨after, isValue, changed⟩
    refine ⟨after, by simp [receive, received, isValue], fun tid => ?_⟩
    rw [changed]
    split
    case isTrue same =>
      subst same
      have newest : manager.eventsOf platform fuel event.tid (event :: earlier) =
          meaning :: manager.eventsOf platform fuel event.tid earlier := by
        simp [eventsOf, isEvent]
      rw [newest]
      exact (knows event.tid).next meaning
    case isFalse other =>
      have same : manager.eventsOf platform fuel tid (event :: earlier) =
          manager.eventsOf platform fuel tid earlier := by
        simp [eventsOf, Ne.symm other]
      rw [same]
      exact knows tid

/-- The notices of an event behind any others. An allocation is notified exactly for a stack right
behind its tick. A contention is notified with its own stack, or none, exactly if it has one, or if
no contention of the thread has had one which is not empty. -/
theorem contention_stack_own_iff (enough : 2 ^ 32 ≤ fuel)
    (listens : manager.hasContentionListener = true)
    (allocates : manager.hasAllocationListener = true) (event : EtwEvent) (earlier : List EtwEvent)
    (paired : ∀ other ∈ event :: earlier, (manager.threadEvent platform fuel other).isSome) :
    ∃ threads notices after meaning,
      manager.receive platform fuel earlier = some threads ∧
      (manager.onEvent platform fuel event threads).value = some (notices, after) ∧
      manager.threadEvent platform fuel event = some meaning ∧
      (∀ timestamp tid duration stack, .onContention timestamp tid duration stack ∈ notices →
        tid = event.tid ∧
        (∃ stop start, meaning = .contentionStop stop ∧
          lastStart (manager.eventsOf platform fuel tid earlier) = some start ∧
          duration = 100 * (stop - start)) ∧
        (stack = (ownStack (manager.eventsOf platform fuel tid earlier)).getD [] ↔
          (ownStack (manager.eventsOf platform fuel tid earlier)).isSome ∨
            lastStack (manager.eventsOf platform fuel tid earlier) = [])) ∧
      notices.filter EtwNotice.isAllocation =
        allocations event.tid (manager.eventsOf platform fuel event.tid earlier) meaning := by
  rcases List.forall_mem_cons.mp paired with ⟨isPaired, pairedEarlier⟩
  rcases receive_knows enough listens allocates pairedEarlier with ⟨threads, received, knows⟩
  rcases isSome_iff_exists.mp isPaired with ⟨meaning, isEvent⟩
  rcases handles_onEvent enough listens allocates isEvent threads with ⟨after, isValue, -⟩
  refine ⟨threads, _, after, meaning, received, isValue, isEvent, ?_,
    (knows event.tid).allocations manager event.tid meaning⟩
  intro timestamp tid duration stack notified
  rcases (knows event.tid).onContention notified with
    ⟨stop, start, isStop, isStart, -, rfl, isDuration, rfl⟩
  refine ⟨rfl, ⟨stop, start, isStop, isStart, isDuration⟩, ?_⟩
  cases own : ownStack (manager.eventsOf platform fuel event.tid earlier) with
  | none => simp
  | some stack => simp [ownStack_eq_some own]

def liveManager : EtwEventsManager := ⟨true, true, true, false, false, (100 * ·)⟩

def contentionEvent (id : Nat) (timestamp : EtwTimestamp) : EtwEvent :=
  ⟨timestamp, 1, 1, keywordContention, 4, id, ⟨[], fun _ => 0, by decide⟩⟩

def stackEvent (timestamp : EtwTimestamp) : EtwEvent :=
  ⟨timestamp, 1, 0, keywordStackWalk, 4, 82,
    ⟨[0, 0, 0, 0, 1, 0, 0, 0, 7, 0, 0, 0, 0, 0, 0, 0], fun _ => 0, by decide⟩⟩

/-- A contention, its stack and its end. -/
theorem contention_has_own_stack : ∃ threads notices after,
    liveManager.receive x64 (2 ^ 32)
      [stackEvent 11, contentionEvent eventContentionStart 10] = some threads ∧
    (liveManager.onEvent x64 (2 ^ 32) (contentionEvent eventContentionStop 20)
      threads).value = some (notices, after) ∧
    ∀ timestamp tid duration stack, .onContention timestamp tid duration stack ∈ notices →
      stack = [7] := by
  have own : ownStack (liveManager.eventsOf x64 (2 ^ 32) 1
      [stackEvent 11, contentionEvent eventContentionStart 10]) = some [7] := by decide +kernel
  rcases @contention_stack_own_iff liveManager x64 (2 ^ 32) (by decide) rfl rfl
    (contentionEvent eventContentionStop 20)
    [stackEvent 11, contentionEvent eventContentionStart 10] (by decide +kernel)
    with ⟨threads, notices, after, _, received, isValue, _, contentions, _⟩
  refine ⟨threads, notices, after, received, isValue, ?_⟩
  intro timestamp tid duration stack notified
  rcases contentions timestamp tid duration stack notified with ⟨rfl, _, isOwn⟩
  have stackIs := isOwn.mpr (.inl (by rw [isSome_iff_exists]; exact ⟨_, own⟩))
  exact stackIs.trans (by rw [getD_eq_iff]; exact .inl own)

/-- The second contention has no stack, and is notified with that of the first. -/
theorem earlier_stack_notified :
    ownStack (liveManager.eventsOf x64 (2 ^ 32) 1
      [contentionEvent eventContentionStart 30, contentionEvent eventContentionStop 20,
        stackEvent 11, contentionEvent eventContentionStart 10]) = none ∧
    ((liveManager.receive x64 (2 ^ 32)
      [contentionEvent eventContentionStart 30, contentionEvent eventContentionStop 20,
        stackEvent 11, contentionEvent eventContentionStart 10]).bind fun threads =>
          (liveManager.onEvent x64 (2 ^ 32) (contentionEvent eventContentionStop 40)
            threads).value.map Prod.fst) = some [.onContention 4000 1 1000 [7]] := by
  constructor
  · decide +kernel
  · decide +kernel

end EtwEventsManager

end Pyroscope.Etw

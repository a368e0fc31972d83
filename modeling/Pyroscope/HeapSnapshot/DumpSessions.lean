import Pyroscope.Lib.Transition

/-!
# Starting and ending heap dumps

The thread of `HeapSnapshotManager` starts and closes dumps for two flags, which the callbacks for
garbage collections set.
-/

namespace Pyroscope.HeapSnapshot

open Transition

structure SnapshotCooldown where
  interval : Nat
  nextAllowed : Nat
deriving DecidableEq

namespace SnapshotCooldown

variable (cooldown : SnapshotCooldown)

def isAllowed (now : Nat) : Bool :=
  cooldown.nextAllowed = 0 || now ≥ cooldown.nextAllowed

def onDumpEnd (dumpEndTime : Nat) : SnapshotCooldown :=
  { cooldown with nextAllowed := dumpEndTime + cooldown.interval }

def onCleanupDone (cleanupTime : Nat) : SnapshotCooldown :=
  { cooldown with nextAllowed := max cooldown.nextAllowed (cleanupTime + cooldown.interval) }

end SnapshotCooldown

/-- When a session was asked for, when its collection ended, and when it was cleaned up. -/
structure Dump where
  started : Nat
  ended : Option Nat
  cleaned : Option Nat
deriving DecidableEq

namespace DumpSessions

structure Configuration where
  heapDumpInterval : Nat
  memPressureThreshold : Nat
  delayFirstSnapshot : Bool
deriving DecidableEq

inductive LoopPc where
  | idle
  /-- There is a session to clean up. -/
  | cleanupSeen
  | stopping
  | closed
  | noCleanup
  | startSeen
  | requested
  | resetting
  /-- `EventPipeStartSession` has not returned yet. -/
  | calling
deriving DecidableEq

inductive CallbackPc where
  | idle
  | startSeen (number : Nat)
  | ended (number : Nat)
  | matching (number : Nat)
  | matched
  | leaving
  | timing
  | cooling
  | signalling
  | deciding
  | sessionSeen
  | noStart
  | noCleanup
  | timed (now : Nat)
  | granting
deriving DecidableEq

structure State where
  clock : Nat
  session : Nat
  isHeapDumpInProgress : Bool
  shouldStartHeapDump : Bool
  shouldCleanupHeapDumpSession : Bool
  inducedGCNumber : Option Nat
  memPressure : Nat
  lastTimestamp : Nat
  snapshotCooldown : SnapshotCooldown
  loop : LoopPc
  callback : CallbackPc
  /-- The sessions so far, the latest first, with the one which is being started. -/
  dumps : List Dump
deriving DecidableEq

inductive Event where
  | time (elapsed : Nat)
  | loopStep
  /-- An allocation before the session is started fails. -/
  | loopThrows
  | sessionStarted (session : Nat)
  | sessionFailed
  | onGarbageCollectionStart (number generation : Nat) (isInduced isNonConcurrent : Bool)
  | onGarbageCollectionEnd (number memPressure : Nat)
  | callbackStep
deriving DecidableEq

namespace State

def initial (config : Configuration) : State where
  clock := 0
  session := 0
  isHeapDumpInProgress := false
  shouldStartHeapDump := false
  shouldCleanupHeapDumpSession := false
  inducedGCNumber := none
  memPressure := 0
  lastTimestamp := 0
  snapshotCooldown := ⟨config.heapDumpInterval, 0⟩
  loop := .idle
  callback := .idle
  dumps := []

variable (state : State)

/-- The first end of the latest dump is its end. -/
def endDump : List Dump :=
  match state.dumps with
  | [] => []
  | dump :: rest => { dump with ended := dump.ended.or (some state.clock) } :: rest

def cleanDump : List Dump :=
  match state.dumps with
  | [] => []
  | dump :: rest => { dump with cleaned := dump.cleaned.or (some state.clock) } :: rest

def loopStep : Option State :=
  match state.loop with
  | .idle =>
    some { state with
      loop := if state.shouldCleanupHeapDumpSession then .cleanupSeen else .noCleanup }
  | .cleanupSeen => some { state with shouldCleanupHeapDumpSession := false, loop := .stopping }
  | .stopping => some { state with session := 0, loop := .closed }
  | .closed =>
    some { state with
      snapshotCooldown := state.snapshotCooldown.onCleanupDone state.clock
      dumps := state.cleanDump
      loop := .idle }
  | .noCleanup =>
    some { state with loop := if state.shouldStartHeapDump then .startSeen else .idle }
  | .startSeen => some { state with shouldStartHeapDump := false, loop := .requested }
  | .requested => some { state with loop := if state.session ≠ 0 then .idle else .resetting }
  | .resetting =>
    some { state with
      isHeapDumpInProgress := true
      dumps := ⟨state.clock, none, none⟩ :: state.dumps
      loop := .calling }
  | .calling => none

def loopThrows : Option State :=
  if state.loop = .resetting then some { state with loop := .idle } else none

def sessionStarted (session : Nat) : Option State :=
  if state.loop = .calling ∧ session ≠ 0 then some { state with session := session, loop := .idle }
  else none

def sessionFailed : Option State :=
  if state.loop = .calling then
    some { state with
      session := 0
      isHeapDumpInProgress := false
      dumps := state.dumps.tail
      loop := .idle }
  else none

/-- The load of `OnGarbageCollectionStart`, which waits for the first induced foreground
collection of generation 2. -/
def onGarbageCollectionStart (number generation : Nat)
    (isInduced isNonConcurrent : Bool) : Option State :=
  if state.callback = .idle then
    some { state with
      callback :=
        if state.isHeapDumpInProgress && isInduced && generation == 2 && isNonConcurrent then
          .startSeen number
        else .idle }
  else none

def onGarbageCollectionEnd (number memPressure : Nat) : Option State :=
  if state.callback = .idle then
    some { state with memPressure := memPressure, callback := .ended number }
  else none

/-- The end of `StartAsyncSnapshotIfNeeded`, behind the reading of the clock. -/
def decide (config : Configuration) (state : State) (now : Nat) : State :=
  if !state.snapshotCooldown.isAllowed now then { state with callback := .idle }
  else if config.memPressureThreshold > 0 &&
      state.memPressure < config.memPressureThreshold then
    { state with callback := .idle }
  else if state.lastTimestamp = 0 then
    { state with
      lastTimestamp := now
      callback := if !config.delayFirstSnapshot then .granting else .idle }
  else if now - state.lastTimestamp < config.heapDumpInterval then
    { state with callback := .idle }
  else { state with callback := .granting }

def callbackStep (config : Configuration) (state : State) : Option State :=
  match state.callback with
  | .idle => none
  | .startSeen number =>
    some { state with
      inducedGCNumber := if state.inducedGCNumber = none then some number else state.inducedGCNumber
      callback := .idle }
  | .ended number =>
    some { state with
      callback := if state.isHeapDumpInProgress then .matching number else .deciding }
  | .matching number =>
    some { state with
      callback := if state.inducedGCNumber = some number then .matched else .idle }
  | .matched => some { state with inducedGCNumber := none, callback := .leaving }
  | .leaving => some { state with isHeapDumpInProgress := false, callback := .timing }
  | .timing =>
    some { state with lastTimestamp := state.clock, dumps := state.endDump, callback := .cooling }
  | .cooling =>
    some { state with
      snapshotCooldown := state.snapshotCooldown.onDumpEnd state.lastTimestamp
      callback := .signalling }
  | .signalling => some { state with shouldCleanupHeapDumpSession := true, callback := .idle }
  | .deciding => some { state with callback := if state.session ≠ 0 then .idle else .sessionSeen }
  | .sessionSeen =>
    some { state with callback := if state.shouldStartHeapDump then .idle else .noStart }
  | .noStart =>
    some { state with
      callback := if state.shouldCleanupHeapDumpSession then .idle else .noCleanup }
  | .noCleanup => some { state with callback := .timed state.clock }
  | .timed now => some (state.decide config now)
  | .granting => some { state with shouldStartHeapDump := true, callback := .idle }

def step (config : Configuration) (state : State) : Event → Option State
  | .time elapsed => some { state with clock := state.clock + elapsed }
  | .loopStep => state.loopStep
  | .loopThrows => state.loopThrows
  | .sessionStarted session => state.sessionStarted session
  | .sessionFailed => state.sessionFailed
  | .onGarbageCollectionStart number generation isInduced isNonConcurrent =>
    state.onGarbageCollectionStart number generation isInduced isNonConcurrent
  | .onGarbageCollectionEnd number memPressure =>
    state.onGarbageCollectionEnd number memPressure
  | .callbackStep => state.callbackStep config

def sessions : List Dump :=
  if state.loop = .calling then state.dumps.tail else state.dumps

end State

def system (config : Configuration) : System State Event :=
  .ofFunction (State.initial config) (State.step config)

end DumpSessions

end Pyroscope.HeapSnapshot

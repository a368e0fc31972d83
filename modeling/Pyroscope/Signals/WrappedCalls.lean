import Pyroscope.Signals.Collector

/-!
# Wrapped system calls

A wrapper shares the address of a local flag during the underlying call, and makes it again if it
was interrupted and the flag is set.
-/

namespace Pyroscope.Signals

open Transition Function

/-- The local flag of a wrapped call, which is a place on the stack of a thread. -/
structure CallId where
  thread : Thread
  number : Nat
  deriving DecidableEq

/-- Where a wrapped call is; the first three are passed before and after the loop. -/
inductive CallPc where
  | loadFunction (withdraws : Bool)
  | loadInstance (withdraws : Bool)
  | setSharedMemory (withdraws : Bool)
  | resetting
  | calling
  | inside
  | testing
  | returning
  deriving DecidableEq

structure Call where
  number : Nat
  pc : CallPc
  /-- Who has sent the signals which have interrupted the last underlying call. -/
  signals : List Origin
  /-- The last underlying call has returned -1 with `EINTR`. -/
  failed : Bool
  deriving DecidableEq

inductive Frame where
  | call (call : Call)
  | applicationHandler
  deriving DecidableEq

structure ThreadState where
  registered : Bool
  sharedMemoryArea : Option CallId
  /-- What the thread executes, innermost first, on top of the profiler's handler if that runs. -/
  frames : List Frame
  interrupted : List Frame
  /-- The memory area which `MarkAsInterrupted` has read and is about to write to. -/
  memoryArea : Option CallId
  /-- `interrupted_by_profiler` of each call of the thread -/
  interruptedByProfiler : Nat → Bool
  calls : Nat

inductive ShieldPc where
  | idle
  | settingInstance
  | settingFunction
  | clearingFunction
  | clearingInstance
  deriving DecidableEq

structure Shield where
  isEnabled : Bool
  isStarted : Bool
  instanceSet : Bool
  /-- `dd_set_shared_memory` points to `SetSharedMemory`. -/
  functionSet : Bool
  pc : ShieldPc
  deriving DecidableEq

structure Process where
  collector : Collector
  shield : Shield
  threads : Thread → ThreadState

inductive CallStep where
  | loadFunction
  | loadInstance
  | setSharedMemory
  | reset
  | enter
  | leave (failed : Bool)
  | test
  | return
  deriving DecidableEq

inductive ShieldStep where
  | start
  | setInstance
  | setFunction
  | stop
  | clearFunction
  | clearInstance
  deriving DecidableEq

inductive ProcessEvent where
  | collector (event : CollectorEvent)
  | shield (step : ShieldStep)
  | call (thread : Thread)
  | callStep (thread : Thread) (step : CallStep)
  | applicationSignal (thread : Thread) (origin : Origin)
  | applicationReturn (thread : Thread)
  | register (thread : Thread) (registered : Bool)
  deriving DecidableEq

def Shield.next (shield : Shield) : ShieldStep → Option Shield
  | .start =>
    if shield.pc ≠ .idle then none
    else if shield.isStarted then some shield
    else
      some { shield with
        isStarted := true, pc := if shield.isEnabled then .settingInstance else .idle }
  | .setInstance =>
    if shield.pc = .settingInstance then
      some { shield with instanceSet := true, pc := .settingFunction }
    else none
  | .setFunction =>
    if shield.pc = .settingFunction then some { shield with functionSet := true, pc := .idle }
    else none
  | .stop =>
    if shield.pc ≠ .idle then none
    else if shield.isStarted ∧ shield.isEnabled then some { shield with pc := .clearingFunction }
    else some shield
  | .clearFunction =>
    if shield.pc = .clearingFunction then
      some { shield with functionSet := false, pc := .clearingInstance }
    else none
  | .clearInstance =>
    if shield.pc = .clearingInstance then some { shield with instanceSet := false, pc := .idle }
    else none

def CallPc.afterSharing (withdraws : Bool) : CallPc :=
  if withdraws then .returning else .resetting

def recordSignal (origin : Origin) : List Frame → List Frame
  | .call call :: rest =>
    if call.pc = .inside then
      .call { call with signals := call.signals ++ [origin] } :: rest
    else .call call :: rest
  | frames => frames

namespace ThreadState

def initial : ThreadState where
  registered := false
  sharedMemoryArea := none
  frames := []
  interrupted := []
  memoryArea := none
  interruptedByProfiler _ := false
  calls := 0

def call (state : ThreadState) : ThreadState :=
  { state with
    frames := .call ⟨state.calls, .loadFunction false, [], false⟩ :: state.frames
    interruptedByProfiler := update state.interruptedByProfiler state.calls false
    calls := state.calls + 1 }

/-- The rest of `WRAPPED_FUNCTION`, one access to shared memory or one system call at a time. -/
def callStep (shield : Shield) (thread : Thread) (state : ThreadState) (step : CallStep) :
    Option ThreadState :=
  match state.frames with
  | .call call :: rest =>
    let goto (state : ThreadState) (pc : CallPc) :=
      { state with frames := .call { call with pc := pc } :: rest }
    match step, call.pc with
    | .loadFunction, .loadFunction withdraws =>
      some (goto state
        (if shield.functionSet then .loadInstance withdraws else .afterSharing withdraws))
    | .loadInstance, .loadInstance withdraws =>
      some (goto state
        (if shield.instanceSet then .setSharedMemory withdraws else .afterSharing withdraws))
    | .setSharedMemory, .setSharedMemory withdraws =>
      let memoryArea := if withdraws then none else some ⟨thread, call.number⟩
      some (goto { state with
        sharedMemoryArea := if state.registered then memoryArea else state.sharedMemoryArea }
        (.afterSharing withdraws))
    | .reset, .resetting =>
      some (goto { state with
        interruptedByProfiler :=
          update state.interruptedByProfiler call.number false } .calling)
    | .enter, .calling =>
      some { state with
        frames := .call { call with pc := .inside, signals := [], failed := false } :: rest }
    | .leave failed, .inside =>
      if failed ∧ call.signals = [] then none
      else some { state with frames := .call { call with pc := .testing, failed } :: rest }
    | .test, .testing =>
      -- `is_interrupted_by_profiler`
      some (goto state
        (if call.failed ∧ state.interruptedByProfiler call.number then .resetting
          else .loadFunction true))
    | .return, .returning => some { state with frames := rest }
    | _, _ => none
  | _ => none

variable (state : ThreadState)

def deliver (origin : Origin) : ThreadState :=
  { state with frames := [], interrupted := recordSignal origin state.frames }

def resume : ThreadState :=
  { state with frames := state.interrupted, interrupted := [] }

def applicationSignal (origin : Origin) : ThreadState :=
  { state with frames := .applicationHandler :: recordSignal origin state.frames }

def setFlag (number : Nat) : ThreadState :=
  { state with
    interruptedByProfiler := update state.interruptedByProfiler number true }

end ThreadState

namespace Process

def initial (isEnabled : Bool) : Process where
  collector := .initial
  shield := ⟨isEnabled, false, false, false, .idle⟩
  threads _ := .initial

variable (process : Process)

def setThread (thread : Thread) (state : ThreadState) : Process :=
  { process with threads := update process.threads thread state }

/-- Application code runs on the thread, rather than a wrapped call or the profiler's handler. -/
def runsApplication (thread : Thread) : Bool :=
  match (process.threads thread).frames, process.collector.handlers thread with
  | .applicationHandler :: _, _ => true
  | [], none => true
  | [], some ⟨_, .chained⟩ => true
  | _, _ => false

/-- What `MarkAsInterrupted` reads: the memory area of the thread which is being collected. -/
def currentMemoryArea : Option CallId :=
  process.collector.currentThread.bind fun target => (process.threads target).sharedMemoryArea

def handlerEffect (thread : Thread) (step : HandlerStep) : Process :=
  let state := process.threads thread
  match step with
  | .readMemoryArea =>
    process.setThread thread { state with memoryArea := process.currentMemoryArea }
  | .mark =>
    match state.memoryArea with
    | none => process
    | some memoryArea =>
      let process := process.setThread thread { state with memoryArea := none }
      process.setThread memoryArea.thread
        ((process.threads memoryArea.thread).setFlag memoryArea.number)
  | .exit | .exitOriginal =>
    match process.collector.handlers thread with
    | none => process.setThread thread state.resume
    | some _ => process
  | _ => process

def collectorStep (event : CollectorEvent) : Option Process :=
  (process.collector.next event).map fun collector => { process with collector }

def collectorNext : CollectorEvent → Option Process
  | .sampler (.select target) =>
    -- `CanBeInterrupted`
    if (process.threads target).sharedMemoryArea = none then
      process.collectorStep (.sampler (.select target))
    else none
  | .handler thread step =>
    if (process.threads thread).frames = [] then
      (process.collectorStep (.handler thread step)).map fun process =>
        process.handlerEffect thread step
    else none
  | .deliver thread =>
    match process.collector.pending thread with
    | none => none
    | some origin =>
      (process.collectorStep (.deliver thread)).map fun process =>
        process.setThread thread ((process.threads thread).deliver origin)
  | .discard thread =>
    match process.collector.pending thread, process.collector.handlers thread with
    | some origin, none =>
      (process.collectorStep (.discard thread)).map fun process =>
        process.setThread thread ((process.threads thread).applicationSignal origin)
    | _, _ => none
  | event => process.collectorStep event

def next (process : Process) : ProcessEvent → Option Process
  | .collector event => process.collectorNext event
  | .shield step => (process.shield.next step).map fun shield => { process with shield }
  | .call thread =>
    if process.runsApplication thread then
      some (process.setThread thread (process.threads thread).call)
    else none
  | .callStep thread step =>
    ((process.threads thread).callStep process.shield thread step).map (process.setThread thread)
  | .applicationSignal thread origin =>
    if origin = .profiler then none
    else some (process.setThread thread ((process.threads thread).applicationSignal origin))
  | .applicationReturn thread =>
    match (process.threads thread).frames with
    | .applicationHandler :: rest =>
      some (process.setThread thread { process.threads thread with frames := rest })
    | _ => none
  | .register thread registered =>
    match (process.threads thread).frames, process.collector.handlers thread with
    | [], none =>
      some (process.setThread thread { process.threads thread with registered := registered })
    | _, _ => none

end Process

def processSystem (isEnabled : Bool) : System Process ProcessEvent :=
  .ofFunction (.initial isEnabled) Process.next

def startShield (thread : Thread) : List ProcessEvent :=
  [.shield .start, .shield .setInstance, .shield .setFunction, .register thread true]

def enterCall (thread : Thread) : List ProcessEvent :=
  [.call thread, .callStep thread .loadFunction, .callStep thread .loadInstance,
    .callStep thread .setSharedMemory, .callStep thread .reset, .callStep thread .enter]

def readMemoryArea (thread : Thread) : List ProcessEvent :=
  [.collector (.deliver thread), .collector (.handler thread .loadInstance),
    .collector (.handler thread .lock), .collector (.handler thread .reloadInstance),
    .collector (.handler thread .readMemoryArea)]

/-! ## What a step does to one thread -/

open Process Option

def Frame.position : Frame → Option (Nat × CallPc)
  | .call wrapped => some (wrapped.number, wrapped.pc)
  | .applicationHandler => none

def positions (frames : List Frame) : List (Nat × CallPc) :=
  frames.filterMap Frame.position

@[simp] theorem positions_recordSignal (origin : Origin) (frames : List Frame) :
    positions (recordSignal origin frames) = positions frames := by
  unfold recordSignal
  split
  · split <;> simp [positions, Frame.position]
  · rfl

@[simp] theorem positions_nil : positions [] = [] := rfl

@[simp] theorem positions_call (call : Call) (rest : List Frame) :
    positions (.call call :: rest) = (call.number, call.pc) :: positions rest := rfl

@[simp] theorem positions_applicationHandler (rest : List Frame) :
    positions (.applicationHandler :: rest) = positions rest :=
  List.filterMap_cons_none rfl

def ThreadState.activeCalls (state : ThreadState) : List (Nat × CallPc) :=
  positions state.frames ++ positions state.interrupted

def HandlerPc.unmarked : HandlerPc → Bool
  | .entered | .locking | .locked | .interrupting | .marking => true
  | _ => false

structure Advances (collector : Collector) (step : HandlerStep) (before after : Handler) :
    Prop where
  origin : after.origin = before.origin
  before_ne : before.pc ≠ .marking
  after_ne : after.pc ≠ .marking
  unmarked : before.pc.unmarked = true → after.pc.unmarked = true ∨
    collector.instanceSet = false ∧ (step = .loadInstance ∨ step = .reloadInstance)
  marked : before.pc.unmarked = false → after.pc.unmarked = false

inductive HandlerMove (collector : Collector) : HandlerStep → Handler → Option Handler → Prop where
  | advance {step : HandlerStep} {before after : Handler}
      (advances : Advances collector step before after) (noRead : step ≠ .readMemoryArea)
      (noMark : step ≠ .mark) : HandlerMove collector step before (some after)
  | read (origin : Origin) :
      HandlerMove collector .readMemoryArea ⟨origin, .interrupting⟩ (some ⟨origin, .marking⟩)
  | mark (origin : Origin) :
      HandlerMove collector .mark ⟨origin, .marking⟩ (some ⟨origin, .checking⟩)
  | exit {step : HandlerStep} {before : Handler} (marked : before.pc.unmarked = false)
      (exits : step = .exit ∨ step = .exitOriginal) : HandlerMove collector step before none

variable {step : HandlerStep}

theorem handlerMove_of_handlerStep {collector later : Collector} {thread : Thread}
    (taken : collector.handlerStep thread step = some later) :
    ∃ before after, collector.handlers thread = some before ∧
      later.handlers = update collector.handlers thread after ∧
      HandlerMove collector step before after := by
  unfold Collector.handlerStep at taken
  split at taken
  · cases taken
  · rename_i origin pc found
    refine ⟨⟨origin, pc⟩, later.handlers thread, found, ?_⟩
    split at taken
    all_goals (try split at taken)
    all_goals cases taken
    all_goals simp only [Collector.setHandler, update_self, true_and]
    case h_4 => exact .read origin
    case h_5 => exact .mark origin
    case h_12.isTrue => exact .exit rfl (.inl rfl)
    case h_13 => exact .exit rfl (.inr rfl)
    all_goals refine .advance ⟨rfl, ?_, ?_, ?_, ?_⟩ ?_ ?_
    all_goals simp_all [HandlerPc.unmarked]

def ThreadState.markFlags (state : ThreadState) (thread : Thread) (memoryArea : Option CallId) :
    Nat → Bool :=
  match memoryArea with
  | none => state.interruptedByProfiler
  | some call =>
    if call.thread = thread then update state.interruptedByProfiler call.number true
    else state.interruptedByProfiler

/-- The handler which a thread executes and the state of the thread after a step. -/
inductive ThreadMove (process : Process) (thread : Thread) :
    ProcessEvent → Option Handler → ThreadState → Prop where
  | stay (event : ProcessEvent) :
      ThreadMove process thread event (process.collector.handlers thread) (process.threads thread)
  | call (runs : process.runsApplication thread = true) :
      ThreadMove process thread (.call thread) (process.collector.handlers thread)
        (process.threads thread).call
  | callStep {step : CallStep} {state : ThreadState}
      (taken : (process.threads thread).callStep process.shield thread step = some state) :
      ThreadMove process thread (.callStep thread step) (process.collector.handlers thread) state
  | signal {origin : Origin} (application : origin ≠ .profiler) :
      ThreadMove process thread (.applicationSignal thread origin)
        (process.collector.handlers thread) ((process.threads thread).applicationSignal origin)
  | discard {origin : Origin} (pending : process.collector.pending thread = some origin) :
      ThreadMove process thread (.collector (.discard thread))
        (process.collector.handlers thread) ((process.threads thread).applicationSignal origin)
  | applicationReturn {rest : List Frame}
      (handles : (process.threads thread).frames = .applicationHandler :: rest) :
      ThreadMove process thread (.applicationReturn thread) (process.collector.handlers thread)
        { process.threads thread with frames := rest }
  | register {registered : Bool} (idle : (process.threads thread).frames = [])
      (unhandled : process.collector.handlers thread = none) :
      ThreadMove process thread (.register thread registered) none
        { process.threads thread with registered := registered }
  | deliver {origin : Origin} (unhandled : process.collector.handlers thread = none) :
      ThreadMove process thread (.collector (.deliver thread)) (some ⟨origin, .entered⟩)
        ((process.threads thread).deliver origin)
  | advance {step : HandlerStep} {before after : Handler}
      (found : process.collector.handlers thread = some before)
      (advances : Advances process.collector step before after) :
      ThreadMove process thread (.collector (.handler thread step)) (some after)
        (process.threads thread)
  | read {origin : Origin} (top : (process.threads thread).frames = [])
      (found : process.collector.handlers thread = some ⟨origin, .interrupting⟩) :
      ThreadMove process thread (.collector (.handler thread .readMemoryArea))
        (some ⟨origin, .marking⟩)
        { process.threads thread with memoryArea := process.currentMemoryArea }
  | mark {origin : Origin} (top : (process.threads thread).frames = [])
      (found : process.collector.handlers thread = some ⟨origin, .marking⟩) :
      ThreadMove process thread (.collector (.handler thread .mark)) (some ⟨origin, .checking⟩)
        { process.threads thread with
          memoryArea := none
          interruptedByProfiler :=
            (process.threads thread).markFlags thread (process.threads thread).memoryArea }
  | marked {other : Thread} {number : Nat} (different : other ≠ thread)
      (read : (process.threads other).memoryArea = some ⟨thread, number⟩) :
      ThreadMove process thread (.collector (.handler other .mark))
        (process.collector.handlers thread) ((process.threads thread).setFlag number)
  | exit {step : HandlerStep} {before : Handler} (top : (process.threads thread).frames = [])
      (found : process.collector.handlers thread = some before)
      (marked : before.pc.unmarked = false) :
      ThreadMove process thread (.collector (.handler thread step)) none
        (process.threads thread).resume

section Inversion

variable {process later : Process} {event : ProcessEvent} {acting : Thread}

theorem ThreadMove.setThread {state : ThreadState} {collector : Collector}
    (same : collector.handlers = process.collector.handlers)
    (move : ThreadMove process acting event (process.collector.handlers acting) state)
    (thread : Thread) :
    ThreadMove process thread event (collector.handlers thread)
      (update process.threads acting state thread) := by
  rw [same]
  by_cases here : thread = acting
  · subst thread
    rw [update_self]
    exact move
  · rw [update_of_ne here]
    exact .stay event

@[simp] theorem collector_handlerEffect (acting : Thread) (step : HandlerStep) :
    (process.handlerEffect acting step).collector = process.collector := by
  cases step <;> simp only [handlerEffect]
  all_goals (try split)
  all_goals rfl

theorem shield_handlerEffect (process : Process) (acting : Thread) (step : HandlerStep) :
    (process.handlerEffect acting step).shield = process.shield := by
  cases step <;> simp only [handlerEffect]
  all_goals (try split)
  all_goals rfl

theorem handlerEffect_of_running (process : Process) {handler : Handler}
    (running : process.collector.handlers acting = some handler) (noRead : step ≠ .readMemoryArea)
    (noMark : step ≠ .mark) :
    process.handlerEffect acting step = process := by
  cases step <;> simp_all [handlerEffect]

theorem handlerEffect_of_exit (process : Process) (ended : process.collector.handlers acting = none)
    (exits : step = .exit ∨ step = .exitOriginal) :
    process.handlerEffect acting step =
      process.setThread acting (process.threads acting).resume := by
  rcases exits with rfl | rfl <;> simp [handlerEffect, ended]

theorem threads_mark_self (acting : Thread) :
    (process.handlerEffect acting .mark).threads acting =
      { process.threads acting with
        memoryArea := none
        interruptedByProfiler :=
          (process.threads acting).markFlags acting (process.threads acting).memoryArea } := by
  simp only [handlerEffect]
  split
  · rename_i unread
    simp [ThreadState.markFlags, unread]
    rw [← unread]
  · rename_i memoryArea read
    by_cases own : memoryArea.thread = acting
    · simp [setThread, ThreadState.markFlags, ThreadState.setFlag, read, own]
    · simp [setThread, ThreadState.markFlags, read, own, Ne.symm own]

theorem threads_mark_other (process : Process) {acting thread : Thread}
    (different : thread ≠ acting) :
    (process.handlerEffect acting .mark).threads thread = process.threads thread ∨
      ∃ number, (process.threads acting).memoryArea = some ⟨thread, number⟩ ∧
        (process.handlerEffect acting .mark).threads thread =
          (process.threads thread).setFlag number := by
  simp only [handlerEffect]
  split
  · exact .inl rfl
  · rename_i memoryArea read
    by_cases here : thread = memoryArea.thread
    · subst thread
      refine .inr ⟨memoryArea.number, read, ?_⟩
      simp [setThread, different]
    · left
      simp [setThread, different, here]

theorem threadMove_of_handler (taken : process.collectorNext (.handler acting step) = some later)
    (thread : Thread) :
    ThreadMove process thread (.collector (.handler acting step))
      (later.collector.handlers thread) (later.threads thread) := by
  simp only [collectorNext, collectorStep, Collector.next] at taken
  split at taken
  case isFalse => cases taken
  rename_i top
  simp only [map_map, map_eq_some_iff, comp_apply] at taken
  rcases taken with ⟨collector, taken, rfl⟩
  rcases handlerMove_of_handlerStep taken with ⟨before, after, found, moved, move⟩
  rcases handlerMoves_of_handlerStep taken with ⟨_, _, moves⟩
  have here : collector.handlers acting = after := by
    rw [moved, update_self]
  have elsewhere (different : thread ≠ acting) :
      collector.handlers thread = process.collector.handlers thread := by
    rw [moved, update_of_ne different]
  rw [collector_handlerEffect]
  cases move with
  | @advance _ _ after advances noRead noMark =>
    rw [handlerEffect_of_running { process with collector } here noRead noMark]
    by_cases same : thread = acting
    · subst thread
      simp only [here]
      exact .advance found advances
    · simp only [elsewhere same]
      exact .stay _
  | read origin =>
    by_cases same : thread = acting
    · subst thread
      simp only [handlerEffect, setThread, update_self, here]
      have current : ({ process with collector } : Process).currentMemoryArea =
          process.currentMemoryArea := by
        simp only [currentMemoryArea, moves.currentThread]
      rw [current]
      exact .read top found
    · simp only [handlerEffect, setThread, update_of_ne same,
        elsewhere same]
      exact .stay _
  | mark origin =>
    by_cases same : thread = acting
    · subst thread
      rw [threads_mark_self]
      simp only [here]
      exact .mark top found
    · simp only [elsewhere same]
      rcases threads_mark_other { process with collector } same with
        unchanged | ⟨number, read, marked⟩
      · rw [unchanged]
        exact .stay _
      · rw [marked]
        exact .marked (Ne.symm same) read
  | exit marked exits =>
    rw [handlerEffect_of_exit { process with collector } here exits]
    by_cases same : thread = acting
    · subst thread
      simp only [setThread, update_self, here]
      exact .exit top found marked
    · simp only [setThread, update_of_ne same, elsewhere same]
      exact .stay _

theorem Process.threadMove (taken : process.next event = some later) (thread : Thread) :
    ThreadMove process thread event (later.collector.handlers thread) (later.threads thread) := by
  cases event with
  | collector event =>
    cases event with
    | sampler step =>
      have stepped : process.collectorStep (.sampler step) = some later := by
        simp only [next] at taken
        cases step
        case select target =>
          simp only [collectorNext] at taken
          split at taken
          · exact taken
          · cases taken
        all_goals exact taken
      simp only [collectorStep, Collector.next, map_eq_some_iff] at stepped
      rcases stepped with ⟨collector, stepped, rfl⟩
      simp only [handlers_samplerStep stepped]
      exact .stay _
    | handler acting step => exact threadMove_of_handler taken thread
    | send acting origin =>
      simp only [next, collectorNext, collectorStep, Collector.next] at taken
      split at taken <;> cases taken
      exact .stay _
    | discard acting =>
      simp only [next, collectorNext, collectorStep, Collector.next] at taken
      split at taken <;> cases taken
      rename_i pending _
      exact .setThread rfl (.discard pending) thread
    | deliver acting =>
      simp only [next, collectorNext, collectorStep, Collector.next] at taken
      cases pending : process.collector.pending acting with
      | none => simp [pending] at taken
      | some origin =>
        cases unhandled : process.collector.handlers acting with
        | some handler => simp [pending, unhandled] at taken
        | none =>
          simp only [pending, unhandled, map_some, Option.some.injEq] at taken
          subst later
          by_cases same : thread = acting
          · subst thread
            simp only [setThread, Collector.setHandler, update_self]
            exact .deliver unhandled
          · simp only [setThread, Collector.setHandler,
              update_of_ne same]
            exact .stay _
  | shield step =>
    simp only [next, map_eq_some_iff] at taken
    rcases taken with ⟨shield, _, rfl⟩
    exact .stay _
  | call acting =>
    simp only [next] at taken
    split at taken <;> cases taken
    rename_i runs
    exact .setThread rfl (.call runs) thread
  | callStep acting step =>
    simp only [next, map_eq_some_iff] at taken
    rcases taken with ⟨state, taken, rfl⟩
    exact .setThread rfl (.callStep taken) thread
  | applicationSignal acting origin =>
    simp only [next] at taken
    split at taken <;> cases taken
    rename_i application
    exact .setThread rfl (.signal application) thread
  | applicationReturn acting =>
    simp only [next] at taken
    split at taken <;> cases taken
    rename_i handles
    exact .setThread rfl (.applicationReturn handles) thread
  | register acting registered =>
    simp only [next] at taken
    split at taken <;> cases taken
    rename_i idle unhandled
    apply ThreadMove.setThread rfl
    rw [unhandled]
    exact .register idle unhandled

theorem Process.shieldMove (taken : process.next event = some later) :
    later.shield = process.shield ∨
      ∃ step, event = .shield step ∧ process.shield.next step = some later.shield := by
  cases event with
  | shield step =>
    simp only [next, map_eq_some_iff] at taken
    rcases taken with ⟨shield, stepped, rfl⟩
    exact .inr ⟨step, rfl, stepped⟩
  | collector event =>
    left
    simp only [next, collectorNext, collectorStep] at taken
    repeat' split at taken
    all_goals simp only [map_map, map_eq_some_iff, comp_apply,
      reduceCtorEq] at taken
    all_goals rcases taken with ⟨collector, _, rfl⟩
    all_goals first
      | rfl
      | exact shield_handlerEffect ..
  | _ =>
    left
    simp only [next, map_eq_some_iff] at taken
    repeat' split at taken
    all_goals first
      | (cases taken <;> rfl)
      | (rcases taken with ⟨_, _, rfl⟩; rfl)

end Inversion

end Pyroscope.Signals
